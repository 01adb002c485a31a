import LetIf.Grammar.Rules

/-!
# Derivations

The grammar as relations between a list of terminals and the tree it stands
for. They are read off the rules and say nothing about how a text is read.

Any spelling opens a row and any spelling is a name; a number must denote an
integer, and a boolean must be spelled as one of the two truth values. Words
of these relations delimit themselves: of two words at the front of one text,
neither goes on after the other has ended. Hence no text has two readings.
-/

namespace LetIf.Grammar

variable {α : Type}

inductive DerivesExpr : List Terminal → Expr → Prop
  | ite {cs ys ns : List Terminal} {c y n : Expr} :
      DerivesExpr cs c → DerivesExpr ys y → DerivesExpr ns n →
      DerivesExpr (⟨.keyword, "if"⟩ :: cs ++ ⟨.keyword, "then"⟩ :: ys
        ++ ⟨.keyword, "else"⟩ :: ns) (.ite c y n)
  | name (text : String) : DerivesExpr [⟨.name, text⟩] (.name text)
  | num {text : String} {n : Int64} :
      Numeral.read? text = some n → DerivesExpr [⟨.number, text⟩] (.num n)
  | true : DerivesExpr [⟨.boolean, "true"⟩] (.bool true)
  | false : DerivesExpr [⟨.boolean, "false"⟩] (.bool false)

inductive DerivesBinding : List Terminal → Binding → Prop
  | mk (name : String) (args : List String) {ts : List Terminal} {body : Expr} :
      DerivesExpr ts body →
      DerivesBinding (⟨.keyword, "let"⟩ :: ⟨.name, name⟩ :: args.map (⟨.name, ·⟩)
        ++ ⟨.symbol, "="⟩ :: ts) ⟨name, args, body⟩

inductive DerivesProgram : List Terminal → Program → Prop
  | nil : DerivesProgram [] ⟨[]⟩
  | cons (text : String) {ts us : List Terminal} {b : Binding} {p : Program} :
      DerivesBinding ts b → DerivesProgram us p →
      DerivesProgram (⟨.newline, text⟩ :: ts ++ us) ⟨b :: p.bindings⟩

/-- Two words at the front of one text are the same word, read the same way. -/
def SelfDelimiting (L : List Terminal → α → Prop) : Prop :=
  ∀ {u v x y : List Terminal} {a b : α}, L u a → L v b → u ++ x = v ++ y → u = v ∧ a = b

theorem DerivesExpr.selfDelimiting : SelfDelimiting DerivesExpr := by
  intro u v x y a b hu hv h
  induction hu generalizing v x y b with
  | ite _ _ _ ihc ihy ihn =>
    cases hv with
    | ite hc hy hn =>
      -- Once one part is known to be the same, the next parts start together.
      simp only [List.cons_append, List.append_assoc, List.cons.injEq, true_and] at h
      obtain ⟨rfl, rfl⟩ := ihc hc h
      simp only [List.append_cancel_left_eq, List.cons.injEq, true_and] at h
      obtain ⟨rfl, rfl⟩ := ihy hy h
      simp only [List.append_cancel_left_eq, List.cons.injEq, true_and] at h
      obtain ⟨rfl, rfl⟩ := ihn hn h
      exact ⟨rfl, rfl⟩
    | _ => simp at h
  | name text => cases hv <;> simp_all
  | num hn =>
    cases hv with
    | num hm =>
      simp only [List.cons_append, List.nil_append, List.cons.injEq, Terminal.mk.injEq, true_and]
        at h
      obtain ⟨rfl, rfl⟩ := h
      simp_all
    | _ => simp at h
  | true => cases hv <;> simp_all
  | false => cases hv <;> simp_all

/-- The names before an equals sign, the sign included. -/
def DerivesArgs (ts : List Terminal) (args : List String) : Prop :=
  ts = args.map (⟨.name, ·⟩) ++ [⟨.symbol, "="⟩]

theorem DerivesArgs.selfDelimiting : SelfDelimiting DerivesArgs := by
  intro u v x y args brgs hu hv h
  subst hu hv
  suffices args = brgs by simp [this]
  induction args generalizing brgs with
  | nil => cases brgs <;> simp_all
  | cons a args ih =>
    cases brgs with
    | nil => simp at h
    | cons b brgs =>
      simp only [List.map_cons, List.cons_append, List.cons.injEq, Terminal.mk.injEq, true_and]
        at h
      rw [h.1, ih h.2]

theorem derivesBinding_iff {ts : List Terminal} {b : Binding} :
    DerivesBinding ts b ↔ ∃ us vs, DerivesArgs us b.args ∧ DerivesExpr vs b.body ∧
      ts = ⟨.keyword, "let"⟩ :: ⟨.name, b.name⟩ :: us ++ vs := by
  constructor
  · rintro ⟨name, args, h⟩
    exact ⟨_, _, rfl, h, by simp⟩
  · rintro ⟨_, vs, rfl, h, rfl⟩
    simpa using DerivesBinding.mk b.name b.args h

theorem DerivesBinding.selfDelimiting : SelfDelimiting DerivesBinding := by
  intro u v x y a b hu hv h
  obtain ⟨us, vs, hua, hue, rfl⟩ := derivesBinding_iff.1 hu
  obtain ⟨us', vs', hva, hve, rfl⟩ := derivesBinding_iff.1 hv
  simp only [List.cons_append, List.append_assoc, List.cons.injEq, Terminal.mk.injEq, true_and]
    at h
  obtain ⟨hname, h⟩ := h
  obtain ⟨rfl, hargs⟩ := DerivesArgs.selfDelimiting hua hva h
  obtain ⟨rfl, hbody⟩ := DerivesExpr.selfDelimiting hue hve (List.append_cancel_left h)
  cases a
  cases b
  simp_all

theorem DerivesProgram.tail {ts us : List Terminal} {p q : Program} (h : DerivesProgram ts p)
    (hq : DerivesProgram (ts ++ us) q) :
    ∃ r, DerivesProgram us r ∧ q.bindings = p.bindings ++ r.bindings := by
  induction h generalizing q with
  | nil => exact ⟨q, hq, rfl⟩
  | @cons text ts vs b p hb _ ih =>
    generalize hw : ⟨.newline, text⟩ :: ts ++ vs ++ us = w at hq
    cases hq with
    | nil => simp at hw
    | cons text' hb' hq' =>
      simp only [List.cons_append, List.append_assoc, List.cons.injEq] at hw
      obtain ⟨rfl, rfl⟩ := hb.selfDelimiting hb' hw.2
      obtain ⟨r, hr, hbs⟩ := ih (List.append_cancel_left hw.2 ▸ hq')
      exact ⟨r, hr, by simp [hbs]⟩

theorem DerivesProgram.unique {ts : List Terminal} {p q : Program} (hp : DerivesProgram ts p)
    (hq : DerivesProgram ts q) : p = q := by
  have happ : DerivesProgram (ts ++ []) q := by simpa using hq
  obtain ⟨r, hr, hbs⟩ := hp.tail happ
  cases hr
  cases p
  cases q
  simp_all

theorem DerivesProgram.append {ts us : List Terminal} {p q : Program} (hp : DerivesProgram ts p)
    (hq : DerivesProgram us q) : DerivesProgram (ts ++ us) ⟨p.bindings ++ q.bindings⟩ := by
  induction hp with
  | nil => exact hq
  | cons text hb _ ih => simpa using DerivesProgram.cons text hb ih

end LetIf.Grammar
