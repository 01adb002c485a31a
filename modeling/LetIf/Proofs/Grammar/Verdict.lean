import LetIf.Proofs.Grammar.Derivation

/-!
# Verdicts

A rule is given a text that may begin with a word of its language. Its verdict
is right if it reads such a word, or else names a fault: a place up to which
the text begins some word, and from which, with the terminal found there, it
can begin none. A fault also says what could have stood in that place.

Sequencing keeps verdicts right as long as the first of two words delimits
itself. That one fact, `Judges.andThen`, carries all rules of the grammar.
-/

namespace LetIf.Grammar

variable {α β : Type}

def Begins (L : List Terminal → α → Prop) (ts : List Terminal) : Prop :=
  ∃ us a, L (ts ++ us) a

/-- However a text goes on that has `next` after `before`, no word stands at
its front. Where there is no next terminal, the text ends. -/
def Blocked (L : List Terminal → α → Prop) (before : List Terminal)
    (next : Option Terminal) : Prop :=
  ∀ {us v : List Terminal} {a : α}, us.head? = next → L v a → ¬v <+: before ++ us

/-- The cause describes what was found and is right about what was missing. -/
def Explains (L : List Terminal → α → Prop) (before : List Terminal)
    (next : Option Terminal) : Cause → Prop
  | .unexpectedToken expected found =>
    found = describeNext next.toList ∧ ∀ t, expected.admits t → Begins L (before ++ [t])
  | .unrecognisedExpression found =>
    found = describeNext next.toList ∧ ∀ {ts e}, DerivesExpr ts e → Begins L (before ++ ts)
  | .malformedNumber text =>
    next = some ⟨.number, text⟩ ∧ Numeral.read? text = none ∧
      ∀ {ts e}, DerivesExpr ts e → Begins L (before ++ ts)
  | .malformedBoolean text =>
    next = some ⟨.boolean, text⟩ ∧ text ≠ "true" ∧ text ≠ "false" ∧
      ∀ {ts e}, DerivesExpr ts e → Begins L (before ++ ts)
  | .unrecognisedToken _ | .numberOutOfRange _ => False

structure Fault (L : List Terminal → α → Prop) (before : List Terminal)
    (next : Option Terminal) (cause : Cause) : Prop where
  begins : Begins L before
  blocked : Blocked L before next
  explains : Explains L before next cause

theorem Explains.lift {L : List Terminal → α → Prop} {M : List Terminal → β → Prop}
    {before u : List Terminal} {next : Option Terminal} {cause : Cause}
    (h : Explains L before next cause) (hb : ∀ ts, Begins L ts → Begins M (u ++ ts)) :
    Explains M (u ++ before) next cause := by
  cases cause with
  | unexpectedToken expected found =>
    exact ⟨h.1, fun t ht => List.append_assoc .. ▸ hb _ (h.2 t ht)⟩
  | unrecognisedExpression found =>
    exact ⟨h.1, fun he => List.append_assoc .. ▸ hb _ (h.2 he)⟩
  | malformedNumber text =>
    exact ⟨h.1, h.2.1, fun he => List.append_assoc .. ▸ hb _ (h.2.2 he)⟩
  | malformedBoolean text =>
    exact ⟨h.1, h.2.1, h.2.2.1, fun he => List.append_assoc .. ▸ hb _ (h.2.2.2 he)⟩
  | unrecognisedToken | numberOutOfRange => exact h

/-- A fault after `u` in a larger language: beginnings of the smaller one go on
there, and a word of the larger one has a word of the smaller one after `u`. -/
theorem Fault.lift {L : List Terminal → α → Prop} {M : List Terminal → β → Prop}
    {before u : List Terminal} {next : Option Terminal} {cause : Cause}
    (h : Fault L before next cause) (hb : ∀ ts, Begins L ts → Begins M (u ++ ts))
    (hw : ∀ {v us b}, M v b → v <+: u ++ us → ∃ w a, L w a ∧ w <+: us) :
    Fault M (u ++ before) next cause where
  begins := hb _ h.begins
  blocked := by
    intro us v b hus hv hp
    rw [List.append_assoc] at hp
    obtain ⟨w, a, hL, hle⟩ := hw hv hp
    exact h.blocked hus hL hle
  explains := h.explains.lift hb

/-- What is left unread when the terminal at the front of `tail` is blamed. -/
def leaves (tail : List Terminal) : Blame → List Terminal → Prop
  | .next, rest => tail = rest
  | .latest, rest => ∃ t, tail = t :: rest

def Judges (L : List Terminal → α → Prop) (ts : List Terminal) (r : Reading α) : Prop :=
  match r.result with
  | .ok a => ∃ v, L v a ∧ ts = v ++ r.rest
  | .error refusal => ∃ before tail, ts = before ++ tail ∧ leaves tail refusal.blame r.rest ∧
      Fault L before tail.head? refusal.cause

theorem judges_of_ok {L : List Terminal → α → Prop} {ts : List Terminal} {r : Reading α} {a : α}
    (h : r.result = .ok a) : Judges L ts r ↔ ∃ v, L v a ∧ ts = v ++ r.rest := by
  simp [Judges, h]

theorem judges_of_error {L : List Terminal → α → Prop} {ts : List Terminal} {r : Reading α}
    {f : Refusal} (h : r.result = .error f) :
    Judges L ts r ↔ ∃ before tail, ts = before ++ tail ∧ leaves tail f.blame r.rest ∧
      Fault L before tail.head? f.cause := by
  simp [Judges, h]

theorem Judges.of_iff {L M : List Terminal → α → Prop} {ts : List Terminal} {r : Reading α}
    (h : Judges L ts r) (he : ∀ v a, L v a ↔ M v a) : Judges M ts r := by
  obtain rfl : L = M := funext fun v => funext fun a => propext (he v a)
  exact h

theorem Judges.note {L : List Terminal → α → Prop} {ts : List Terminal} {r : Reading α}
    (h : Judges L ts r) (event : Event) : Judges L ts (r.note event) := h

theorem Judges.lift {L : List Terminal → α → Prop} {M : List Terminal → β → Prop}
    {ts u : List Terminal} {r : Reading α} {f : α → β} (h : Judges L ts r)
    (hf : ∀ {v a}, L v a → M (u ++ v) (f a))
    (hw : ∀ {v us b}, M v b → v <+: u ++ us → ∃ w a, L w a ∧ w <+: us) :
    Judges M (u ++ ts) (r.map f) := by
  cases ha : r.result with
  | ok a =>
    obtain ⟨v, hv, rfl⟩ := (judges_of_ok ha).1 h
    rw [judges_of_ok (a := f a) (by simp [Reading.map, ha, Except.map])]
    exact ⟨u ++ v, hf hv, (List.append_assoc ..).symm⟩
  | error refusal =>
    obtain ⟨before, tail, rfl, hl, hfault⟩ := (judges_of_error ha).1 h
    rw [judges_of_error (f := refusal) (by simp [Reading.map, ha, Except.map])]
    refine ⟨u ++ before, tail, (List.append_assoc ..).symm, hl, hfault.lift ?_ hw⟩
    rintro ts ⟨us, a, hts⟩
    exact ⟨us, f a, List.append_assoc .. ▸ hf hts⟩

theorem Judges.map {L : List Terminal → α → Prop} {ts : List Terminal} {r : Reading α}
    (h : Judges L ts r) (f : α → β) :
    Judges (fun v b => ∃ a, L v a ∧ f a = b) ts (r.map f) := by
  refine h.lift (u := []) (fun hv => ⟨_, hv, rfl⟩) ?_
  rintro v us _ ⟨a, hv, -⟩ hp
  exact ⟨v, a, hv, hp⟩

theorem Judges.exists_word {L : List Terminal → α → Prop} {ts : List Terminal} {r : Reading α}
    (h : Judges L ts r) : ∃ v a, L v a := by
  cases hr : r.result with
  | ok a =>
    obtain ⟨v, hv, -⟩ := (judges_of_ok hr).1 h
    exact ⟨v, a, hv⟩
  | error refusal =>
    obtain ⟨before, tail, -, -, hf⟩ := (judges_of_error hr).1 h
    obtain ⟨us, a, ha⟩ := hf.begins
    exact ⟨before ++ us, a, ha⟩

/-- A word of one language and then a word of another, which may depend on how
the first was read. -/
def Then (L : List Terminal → α → Prop) (M : α → List Terminal → β → Prop)
    (ts : List Terminal) (b : β) : Prop :=
  ∃ u v a, L u a ∧ M a v b ∧ ts = u ++ v

section
variable {L : List Terminal → α → Prop} {M : α → List Terminal → β → Prop}
  {before : List Terminal} {next : Option Terminal} {cause : Cause}

theorem Fault.inFirst (h : Fault L before next cause) (hM : ∀ a, ∃ v b, M a v b) :
    Fault (Then L M) before next cause := by
  refine h.lift (u := []) ?_ ?_
  · rintro ts ⟨us, a, ha⟩
    obtain ⟨v, b, hb⟩ := hM a
    exact ⟨us ++ v, b, _, v, a, ha, hb, by simp⟩
  · rintro _ us b ⟨u, v, a, ha, -, rfl⟩ hp
    exact ⟨u, a, ha, (List.prefix_append u v).trans hp⟩

theorem Fault.inSecond {u : List Terminal} {a : α} (h : Fault (M a) before next cause)
    (hL : SelfDelimiting L) (hu : L u a) : Fault (Then L M) (u ++ before) next cause := by
  refine h.lift ?_ ?_
  · rintro ts ⟨us, b, hb⟩
    exact ⟨us, b, u, ts ++ us, a, hu, hb, by simp⟩
  · rintro _ us b ⟨u', v, a', hu', hv, rfl⟩ ⟨rest, hrest⟩
    rw [List.append_assoc] at hrest
    obtain ⟨rfl, rfl⟩ := hL hu' hu hrest
    exact ⟨v, b, hv, rest, List.append_cancel_left hrest⟩

/-- A sequence is judged rightly if its parts are. The second rule need only be
right on what the first can leave. -/
theorem Judges.andThen {ts : List Terminal} {r : Reading α}
    {next : α → List Terminal → Reading β} (hr : Judges L ts r) (hL : SelfDelimiting L)
    (hn : ∀ a rest, rest <:+ ts → Judges (M a) rest (next a rest)) :
    Judges (Then L M) ts (r.andThen next) := by
  cases ha : r.result with
  | ok a =>
    obtain ⟨u, hu, hts⟩ := (judges_of_ok ha).1 hr
    have hs := hn a r.rest ⟨u, hts.symm⟩
    cases hb : (next a r.rest).result with
    | ok b =>
      obtain ⟨v, hv, hrest⟩ := (judges_of_ok hb).1 hs
      rw [judges_of_ok (a := b) (by simp [Reading.andThen, ha, hb])]
      refine ⟨u ++ v, ⟨u, v, a, hu, hv, rfl⟩, ?_⟩
      simp [Reading.andThen, ha, ← hrest, hts]
    | error refusal =>
      obtain ⟨before, tail, hrest, hl, hf⟩ := (judges_of_error hb).1 hs
      rw [judges_of_error (f := refusal) (by simp [Reading.andThen, ha, hb])]
      refine ⟨u ++ before, tail, ?_, ?_, hf.inSecond hL hu⟩
      · rw [List.append_assoc, ← hrest, hts]
      · simpa [Reading.andThen, ha] using hl
  | error refusal =>
    obtain ⟨before, tail, hts, hl, hf⟩ := (judges_of_error ha).1 hr
    rw [judges_of_error (f := refusal) (by simp [Reading.andThen, ha])]
    -- A beginning in the first language is one of a sequence only if the second
    -- language has a word. Its verdict on the empty text shows one.
    have hM : ∀ a, ∃ v b, M a v b := by
      intro a
      exact (hn a [] List.nil_suffix).exists_word
    refine ⟨before, tail, hts, ?_, hf.inFirst hM⟩
    simpa [Reading.andThen, ha] using hl

end

end LetIf.Grammar
