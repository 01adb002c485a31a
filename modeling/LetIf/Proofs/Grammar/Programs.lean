import LetIf.Proofs.Grammar.Recognition

/-!
# Verdicts on programs

A program does not delimit itself, since another row may always follow. Its
rows do, and they are read one by one until a row has a fault or no other row
starts.
-/

namespace LetIf.Grammar

-- ---------------------------------------------------------------------------
-- Rows
-- ---------------------------------------------------------------------------

theorem bindings_cons_newline {t : Terminal} (ts : List Terminal) (h : t.kind = .newline) :
    bindings (t :: ts) = (binding ts).andThen fun first us => (bindings us).map (first :: ·) := by
  rw [bindings, if_pos h]
  rfl

theorem bindings_of_ne_newline {ts : List Terminal} (h : ∀ t ∈ ts.head?, t.kind ≠ .newline) :
    bindings ts = .done [] ts := by
  cases ts with
  | nil => rw [bindings]
  | cons t ts => rw [bindings, if_neg (h t rfl)]

/-- What reading rows comes to: some rows are read and no other one starts, or
the row after some rows has a fault. -/
inductive ReadsRows (ts : List Terminal) (result : Except Refusal (List Binding))
    (rest : List Terminal) : Prop
  | stops {v : List Terminal} {p : Program} :
      DerivesProgram v p → result = .ok p.bindings → ts = v ++ rest →
      (∀ t ∈ rest.head?, t.kind ≠ .newline) → ReadsRows ts result rest
  | fails {v before tail : List Terminal} {p : Program} {t : Terminal} {f : Refusal} :
      DerivesProgram v p → result = .error f → ts = v ++ t :: before ++ tail →
      t.kind = .newline → leaves tail f.blame rest →
      Fault DerivesBinding before tail.head? f.cause → ReadsRows ts result rest

theorem ReadsRows.cons {ts v rest : List Terminal} {t : Terminal} {b : Binding}
    {result : Except Refusal (List Binding)} (h : ReadsRows ts result rest)
    (hb : DerivesBinding v b) (ht : t.kind = .newline) :
    ReadsRows (t :: v ++ ts) (result.map (b :: ·)) rest := by
  obtain ⟨kind, text⟩ := t
  obtain rfl : kind = .newline := ht
  cases h with
  | stops hp hr hts hrest =>
    subst hr hts
    exact .stops (hp.cons text hb) rfl (by simp) hrest
  | fails hp hr hts ht hl hf =>
    subst hr hts
    exact .fails (hp.cons text hb) rfl (by simp) ht hl hf

theorem readsRows_bindings (ts : List Terminal) :
    ReadsRows ts (bindings ts).result (bindings ts).rest := by
  induction ts using bindings.induct with
  | case1 =>
    rw [bindings]
    exact .stops .nil rfl rfl (by simp [Reading.done])
  | case2 t rest ht r ih =>
    rw [bindings_cons_newline rest ht]
    have hj := judges_binding rest
    cases hr : (binding rest).result with
    | ok b =>
      obtain ⟨v, hb, hrest⟩ := (judges_of_ok hr).1 hj
      have hc : ReadsRows (t :: v ++ (binding rest).rest) _ _ := ih.cons hb ht
      rw [List.cons_append, ← hrest] at hc
      simp only [Reading.andThen, Reading.map, hr]
      exact hc
    | error f =>
      obtain ⟨before, tail, hrest, hl, hf⟩ := (judges_of_error hr).1 hj
      simp only [Reading.andThen, hr]
      exact .fails .nil rfl (by simp [hrest]) ht hl hf
  | case3 t rest ht =>
    have hh : ∀ u ∈ (t :: rest).head?, u.kind ≠ .newline := by simpa using ht
    rw [bindings_of_ne_newline hh]
    exact .stops .nil rfl rfl hh

theorem program_ok {ts : List Terminal} {p : Program} (h : (program ts).result = .ok p) :
    ∃ v, DerivesProgram v p ∧ ts = v ++ (program ts).rest ∧
      ∀ t ∈ (program ts).rest.head?, t.kind ≠ .newline := by
  cases readsRows_bindings ts with
  | @stops v q hq hr hts hrest =>
    obtain rfl : q = p := by simpa [program, Reading.map, hr, Except.map] using h
    exact ⟨v, hq, hts, hrest⟩
  | fails _ hr => simp [program, Reading.map, hr, Except.map] at h

theorem program_error {ts : List Terminal} {f : Refusal} (h : (program ts).result = .error f) :
    ∃ before tail, ts = before ++ tail ∧ leaves tail f.blame (program ts).rest ∧
      ∃ row, Explains DerivesBinding row tail.head? f.cause := by
  cases readsRows_bindings ts with
  | stops _ hr => simp [program, Reading.map, hr, Except.map] at h
  | @fails v row tail q t g _ hr hts _ hl hfault =>
    obtain rfl : g = f := by simpa [program, Reading.map, hr, Except.map] using h
    exact ⟨v ++ t :: row, tail, hts, hl, row, hfault.explains⟩

-- ---------------------------------------------------------------------------
-- Programs cut short
-- ---------------------------------------------------------------------------

abbrev Viable (ts : List Terminal) : Prop := Begins DerivesProgram ts

theorem Viable.of_append {ts us : List Terminal} (h : Viable (ts ++ us)) : Viable ts := by
  obtain ⟨vs, p, hp⟩ := h
  exact ⟨us ++ vs, p, List.append_assoc .. ▸ hp⟩

theorem DerivesProgram.viable {ts : List Terminal} {p : Program} (h : DerivesProgram ts p) :
    Viable ts :=
  ⟨[], p, by simpa using h⟩

theorem DerivesProgram.viable_append {ts us : List Terminal} {p : Program} {t : Terminal}
    (h : DerivesProgram ts p) (ht : t.kind = .newline) (hb : Begins DerivesBinding us) :
    Viable (ts ++ t :: us) := by
  obtain ⟨kind, text⟩ := t
  obtain rfl : kind = .newline := ht
  obtain ⟨vs, b, hb⟩ := hb
  exact ⟨vs, _, by simpa using h.append (.cons text hb .nil)⟩

theorem DerivesProgram.cons_inv {t : Terminal} {ts : List Terminal} {p : Program}
    (h : DerivesProgram (t :: ts) p) :
    t.kind = .newline ∧ ∃ v b, DerivesBinding v b ∧ v <+: ts := by
  cases h with
  | cons text hb _ => exact ⟨rfl, _, _, hb, List.prefix_append _ _⟩

theorem DerivesExpr.kind_ne_eof {ts : List Terminal} {e : Expr} (h : DerivesExpr ts e) :
    ∀ t ∈ ts, t.kind ≠ .eof := by
  induction h with
  | ite _ _ _ ihc ihy ihn => grind
  | _ => simp

theorem DerivesProgram.kind_ne_eof {ts : List Terminal} {p : Program} (h : DerivesProgram ts p) :
    ∀ t ∈ ts, t.kind ≠ .eof := by
  induction h with
  | nil => simp
  | cons text hb _ ih =>
    cases hb with
    | mk name args he =>
      have := he.kind_ne_eof
      grind

theorem not_viable_eof (ts : List Terminal) (text : String) : ¬Viable (ts ++ [⟨.eof, text⟩]) := by
  rintro ⟨us, p, hp⟩
  exact hp.kind_ne_eof ⟨.eof, text⟩ (by simp) rfl

-- ---------------------------------------------------------------------------
-- Faults of a text
-- ---------------------------------------------------------------------------

/-- What a refused text says: it begins a program up to a place, goes on there
as no program does, and the cause is right about what could have come. Only
after a whole program is the end of the text what was missing. -/
structure Misfit (before : List Terminal) (next : Option Terminal) (cause : Cause) : Prop where
  viable : Viable before
  impossible : ∀ us p, us.head? = next → ¬DerivesProgram (before ++ us) p
  explains : Explains DerivesProgram before next cause ∨
    (cause = .unexpectedToken (.kind .eof) (describeNext next.toList) ∧
      ∃ p, DerivesProgram before p)

theorem Fault.misfit {v before : List Terminal} {next : Option Terminal} {cause : Cause}
    {p : Program} {t : Terminal} (h : Fault DerivesBinding before next cause)
    (hv : DerivesProgram v p) (ht : t.kind = .newline) :
    Misfit (v ++ t :: before) next cause where
  viable := hv.viable_append ht h.begins
  impossible := by
    intro us q hus hq
    rw [List.append_assoc, List.cons_append] at hq
    obtain ⟨r, hr, -⟩ := hv.tail hq
    obtain ⟨-, w, b, hb, hw⟩ := hr.cons_inv
    exact h.blocked hus hb hw
  explains := by
    rw [List.append_cons]
    exact .inl (h.explains.lift fun ts hts => by simpa using hv.viable_append ht hts)

theorem DerivesProgram.misfit {v : List Terminal} {p : Program} {t : Terminal}
    (hv : DerivesProgram v p) (ht : t.kind ≠ .newline) :
    Misfit v (some t) (.unexpectedToken (.kind .eof) t.describe) where
  viable := hv.viable
  impossible := by
    intro us q hus hq
    obtain ⟨r, hr, -⟩ := hv.tail hq
    obtain ⟨us, rfl⟩ := List.head?_eq_some_iff.1 hus
    exact ht hr.cons_inv.1
  explains := .inr ⟨rfl, p, hv⟩

-- ---------------------------------------------------------------------------
-- Whole texts
-- ---------------------------------------------------------------------------

section
variable {ts : List Terminal}

theorem whole_of_error {f : Refusal} (h : (bindings ts).result = .error f) :
    (whole ts).result = .error f ∧ (whole ts).rest = (bindings ts).rest := by
  simp [whole, program, Reading.andThen, Reading.map, h, Except.map]

theorem whole_of_rest_nil {bs : List Binding} (h : (bindings ts).result = .ok bs)
    (hr : (bindings ts).rest = []) : (whole ts).result = .ok ⟨bs⟩ := by
  simp [whole, program, Reading.andThen, Reading.map, Reading.note, Reading.done, h, hr,
    Except.map]

theorem whole_of_rest_cons {bs : List Binding} {t : Terminal} {rest : List Terminal}
    (h : (bindings ts).result = .ok bs) (hr : (bindings ts).rest = t :: rest) :
    (whole ts).result = .error ⟨.unexpectedToken (.kind .eof) t.describe, .next⟩ ∧
      (whole ts).rest = t :: rest := by
  simp [whole, program, Reading.andThen, Reading.map, Reading.refuse, h, hr, Except.map]

/-- A text is read as the program it derives, or it has a misfit. -/
theorem whole_cases (ts : List Terminal) :
    (∃ p, (whole ts).result = .ok p ∧ DerivesProgram ts p) ∨
    ∃ f before tail, (whole ts).result = .error f ∧ ts = before ++ tail ∧
      leaves tail f.blame (whole ts).rest ∧ Misfit before tail.head? f.cause := by
  cases readsRows_bindings ts with
  | @stops v p hp hr hts hrest =>
    cases hb : (bindings ts).rest with
    | nil =>
      rw [hb, List.append_nil] at hts
      exact .inl ⟨p, whole_of_rest_nil hr hb, hts ▸ hp⟩
    | cons t rest =>
      rw [hb] at hts hrest
      obtain ⟨hw, hl⟩ := whole_of_rest_cons hr hb
      exact .inr ⟨_, v, t :: rest, hw, hts, hl.symm, hp.misfit (hrest t rfl)⟩
  | @fails v before tail p t f hp hr hts ht hl hf =>
    obtain ⟨hw, hrest⟩ := whole_of_error hr
    exact .inr ⟨f, v ++ t :: before, tail, hw, hts, hrest ▸ hl, hf.misfit hp ht⟩

theorem whole_error {f : Refusal} (h : (whole ts).result = .error f) :
    ∃ before tail, ts = before ++ tail ∧ leaves tail f.blame (whole ts).rest ∧
      Misfit before tail.head? f.cause := by
  obtain ⟨p, hw, -⟩ | ⟨g, before, tail, hw, hts, hl, hm⟩ := whole_cases ts
  · rw [h] at hw
    cases hw
  · obtain rfl : f = g := Except.error.inj (h.symm.trans hw)
    exact ⟨before, tail, hts, hl, hm⟩

theorem whole_eq_ok_iff {p : Program} : (whole ts).result = .ok p ↔ DerivesProgram ts p := by
  obtain ⟨q, hw, hq⟩ | ⟨f, before, tail, hw, rfl, -, hm⟩ := whole_cases ts
  · rw [hw, Except.ok.injEq]
    exact ⟨fun h => h ▸ hq, fun h => hq.unique h⟩
  · rw [hw]
    exact ⟨nofun, fun h => absurd h (hm.impossible tail p rfl)⟩

end

end LetIf.Grammar
