import LetIf.Proofs.Text.Rows
import LetIf.Text.Quoted

/-!
# Texts of one row

Numerals have no line feed, and a quoted text has none either: a line feed is
escaped, and no escape holds one.
-/

namespace LetIf.Text

def OneRow (s : String) : Prop := '\n' ∉ s.toList

instance : DecidablePred OneRow := fun s => inferInstanceAs (Decidable ('\n' ∉ s.toList))

theorem OneRow.append {s t : String} (hs : OneRow s) (ht : OneRow t) : OneRow (s ++ t) := by
  unfold OneRow at *
  simp [hs, ht]

/-- Texts of one row, each ended by a line feed, are the rows of what they make up. -/
theorem rows_join {texts : List String} (h : ∀ text ∈ texts, OneRow text) :
    rows (String.join (texts.map (· ++ "\n"))).toList = texts.map String.toList ++ [[]] := by
  induction texts with
  | nil => rfl
  | cons text texts ih =>
    obtain ⟨htext, htexts⟩ := List.forall_mem_cons.1 h
    have hlines : (String.join ((text :: texts).map (· ++ "\n"))).toList
        = text.toList ++ '\n' :: (String.join (texts.map (· ++ "\n"))).toList := by
      simp
    rw [hlines, rows_append_newline, rows_of_not_mem htext, ih htexts]
    rfl

theorem join_inj {texts texts' : List String} (h : ∀ text ∈ texts, OneRow text)
    (h' : ∀ text ∈ texts', OneRow text)
    (heq : String.join (texts.map (· ++ "\n")) = String.join (texts'.map (· ++ "\n"))) :
    texts = texts' := by
  have hrows := rows_join h
  rw [heq, rows_join h'] at hrows
  have hmap := List.append_cancel_right hrows
  exact ((List.map_inj_right fun _ _ => String.toList_inj.1).1 hmap).symm

theorem isAlphanum_digitChar : ∀ n < 16, n.digitChar.isAlphanum := by
  decide

theorem isAlphanum_of_mem_toDigits {b n : Nat} {c : Char} (hb : 1 < b) (hb' : b ≤ 16)
    (h : c ∈ Nat.toDigits b n) : c.isAlphanum := by
  induction n using Nat.strongRecOn with
  | ind n ih =>
    rw [Nat.toDigits_eq_if hb] at h
    split at h
    next hlt =>
      obtain rfl := List.mem_singleton.1 h
      exact isAlphanum_digitChar n (by omega)
    next hlt =>
      rcases List.mem_append.1 h with h | h
      · exact ih (n / b) (Nat.div_lt_self (by omega) hb) h
      · obtain rfl := List.mem_singleton.1 h
        have hmod := Nat.mod_lt n (show 0 < b by omega)
        exact isAlphanum_digitChar (n % b) (by omega)

theorem not_mem_toDigits {b : Nat} {c : Char} (hb : 1 < b) (hb' : b ≤ 16)
    (hc : c.isAlphanum = false) (n : Nat) : c ∉ Nat.toDigits b n := by
  intro h
  rw [isAlphanum_of_mem_toDigits hb hb' h] at hc
  cases hc

theorem oneRow_repr (n : Nat) : OneRow n.repr := by
  rw [OneRow, Nat.toList_repr]
  exact not_mem_toDigits (by decide) (by decide) rfl n

theorem not_mem_escape (c : Char) : '\n' ∉ escape c := by
  fun_cases escape c with
  | case7 =>
    have hd : '\n' ∉ Nat.toDigits 16 c.toNat := not_mem_toDigits (by decide) (by decide) rfl c.toNat
    simp [codePoint, hd]
  | case8 _ _ _ _ hn => simpa using Ne.symm hn
  | _ => decide

theorem oneRow_quote (s : String) : OneRow (quote s) := by
  have hs : '\n' ∉ s.toList.flatMap escape := by
    intro hm
    obtain ⟨c, -, hc⟩ := List.mem_flatMap.1 hm
    exact not_mem_escape c hc
  simp [OneRow, quote, quoteChars, hs]

end LetIf.Text
