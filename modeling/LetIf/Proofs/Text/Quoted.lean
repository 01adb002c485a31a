import LetIf.Proofs.Text.OneRow

/-!
# Codes that end by themselves

A code for values ends by itself if a value, and what follows, can be told from
its code joined with what follows. An escaped character does so whatever stands
around it, and none has a quote in front, so a quoted text ends at its closing
quote.
-/

namespace LetIf.Text

variable {α : Type}

/-- The value and what follows it are told from the text that they make up. -/
def Delimited (code : α → List Char) : Prop :=
  ∀ a b x y, code a ++ x = code b ++ y → a = b ∧ x = y

theorem delimited_closed {code : α → List Char} {stop : Char} (h : ∀ a, stop ∉ code a)
    (hinj : ∀ a b, code a = code b → a = b) : Delimited fun a => code a ++ [stop] := by
  intro a b x y heq
  have ha := h a
  have hb := h b
  rw [List.append_assoc, List.append_assoc] at heq
  obtain ⟨hcode, hrest⟩ : code a = code b ∧ [stop] ++ x = [stop] ++ y := by
    rcases List.append_eq_append_iff.1 heq with ⟨zs, hz, hx⟩ | ⟨zs, hz, hx⟩
    all_goals cases zs with
    | nil => simp_all
    | cons z zs => simp_all
  exact ⟨hinj a b hcode, List.append_cancel_left hrest⟩

theorem digitChar_inj : ∀ m < 16, ∀ n < 16, Nat.digitChar m = Nat.digitChar n → m = n := by
  decide

theorem toDigits_inj {b : Nat} (hb : 1 < b) (hb' : b ≤ 16) {m n : Nat}
    (h : Nat.toDigits b m = Nat.toDigits b n) : m = n := by
  induction m using Nat.strongRecOn generalizing n with
  | ind m ih =>
    rw [Nat.toDigits_eq_if hb, Nat.toDigits_eq_if (n := n) hb] at h
    split at h <;> split at h
    next hm hn => exact digitChar_inj m (by omega) n (by omega) (List.singleton_inj.1 h)
    -- Before the last digit of a number that has more than one, there is another.
    next => exact absurd h (by simp [List.cons_eq_append_iff, Nat.toDigits_ne_nil])
    next => exact absurd h.symm (by simp [List.cons_eq_append_iff, Nat.toDigits_ne_nil])
    next hm hn =>
      obtain ⟨hdiv, hmod⟩ := List.append_inj' h rfl
      have hquot := ih (m / b) (Nat.div_lt_self (by omega) hb) hdiv
      have hlt := Nat.mod_lt m (show 0 < b by omega)
      have hlt' := Nat.mod_lt n (show 0 < b by omega)
      have hrem := digitChar_inj (m % b) (by omega) (n % b) (by omega) (List.singleton_inj.1 hmod)
      rw [← Nat.div_add_mod m b, ← Nat.div_add_mod n b, hquot, hrem]

theorem delimited_toDigits {b : Nat} {stop : Char} (hb : 1 < b) (hb' : b ≤ 16)
    (h : stop.isAlphanum = false) : Delimited fun n => Nat.toDigits b n ++ [stop] :=
  delimited_closed (not_mem_toDigits hb hb' h) fun _ _ => toDigits_inj hb hb'

def meaning? : Char → Option Char
  | '"' => some '"'
  | '\\' => some '\\'
  | '0' => some '\x00'
  | 't' => some '\t'
  | 'n' => some '\n'
  | 'r' => some '\r'
  | _ => none

inductive Escaped : Char → List Char → Prop
  | plain {c : Char} : c ≠ '\\' → c ≠ '"' → Escaped c [c]
  | letter {c letter : Char} : meaning? letter = some c → Escaped c ['\\', letter]
  | code (c : Char) : Escaped c (codePoint c)

theorem escaped_escape (c : Char) : Escaped c (escape c) := by
  fun_cases escape c with
  | case1 h | case2 _ h | case3 _ _ h | case4 _ _ _ h | case5 _ _ _ _ h | case6 _ _ _ _ _ h =>
    subst h
    exact .letter rfl
  | case7 => exact .code c
  | case8 hquote hback => exact .plain hback hquote

theorem Escaped.head_ne {c : Char} {cs : List Char} (h : Escaped c cs) (x : List Char) :
    ∃ d ds, cs ++ x = d :: ds ∧ d ≠ '"' := by
  cases h with
  | plain _ hquote => exact ⟨c, x, rfl, hquote⟩
  | @letter l _ => exact ⟨'\\', l :: x, rfl, by decide⟩
  | code => exact ⟨'\\', _, rfl, by decide⟩

theorem delimited_codePoint : Delimited codePoint := by
  intro c d x y h
  simp only [codePoint, List.cons_append, List.cons.injEq, true_and] at h
  obtain ⟨hcode, hrest⟩ := delimited_toDigits (by decide) (by decide) rfl _ _ x y h
  exact ⟨Char.toNat_inj.1 hcode, hrest⟩

theorem delimited_escape : Delimited escape := by
  intro c d x y h
  have hc := escaped_escape c
  have hd := escaped_escape d
  generalize escape c = cs at hc h
  generalize escape d = ds at hd h
  cases hc with
  | plain hback =>
    cases hd with
    | plain => exact List.cons.inj h
    | letter | code => exact absurd (List.cons.inj h).1 hback
  | @letter l hl =>
    cases hd with
    | plain hback => exact absurd (List.cons.inj h).1.symm hback
    | @letter l' hl' =>
      obtain ⟨rfl, hrest⟩ := List.cons.inj (List.cons.inj h).2
      exact ⟨Option.some.inj (hl.symm.trans hl'), hrest⟩
    | code =>
      obtain ⟨rfl, -⟩ := List.cons.inj (List.cons.inj h).2
      cases hl
  | code =>
    cases hd with
    | plain hback => exact absurd (List.cons.inj h).1.symm hback
    | @letter l hl =>
      obtain ⟨rfl, -⟩ := List.cons.inj (List.cons.inj h).2
      cases hl
    | code => exact delimited_codePoint c d x y h

theorem delimited_quoteChars : Delimited quoteChars := by
  intro cs ds x y h
  simp only [quoteChars, List.cons_append, List.append_assoc, List.cons.injEq, true_and,
    List.nil_append] at h
  induction cs generalizing ds with
  | nil =>
    cases ds with
    | nil => exact ⟨rfl, (List.cons.inj h).2⟩
    | cons d ds =>
      obtain ⟨e, es, he, hne⟩ := (escaped_escape d).head_ne (ds.flatMap escape ++ '"' :: y)
      rw [List.flatMap_cons, List.append_assoc, he] at h
      exact absurd (List.cons.inj h).1.symm hne
  | cons c cs ih =>
    cases ds with
    | nil =>
      obtain ⟨e, es, he, hne⟩ := (escaped_escape c).head_ne (cs.flatMap escape ++ '"' :: x)
      rw [List.flatMap_cons, List.append_assoc, he] at h
      exact absurd (List.cons.inj h).1 hne
    | cons d ds =>
      simp only [List.flatMap_cons, List.append_assoc] at h
      obtain ⟨rfl, hrest⟩ := delimited_escape c d _ _ h
      obtain ⟨rfl, hxy⟩ := ih ds hrest
      exact ⟨rfl, hxy⟩

end LetIf.Text
