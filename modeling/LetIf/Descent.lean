import LetIf.Parse

/-!
# Parsing by descent

The grammar rules as functions on a stream. A rule looks at the next token,
takes it if it is as asked, and goes on from the stream that is left. It sees
whole tokens, and a diagnostic is made where it arises.

No rule gives tokens back, which a `Descent` carries, and so rules that call
each other end.
-/

namespace LetIf

variable {α β : Type}

/-- What a rule gives on the stream `s`. -/
structure Descent (s : Stream) (α : Type) extends Outcome α where
  length_le : stream.word.length ≤ s.word.length

namespace Descent

variable {s rest : Stream}

def done (a : α) (s : Stream) : Descent s α :=
  ⟨⟨.ok a, s, []⟩, Nat.le_refl _⟩

/-- Leaves the stream as it is. A diagnostic is noted when it is made. -/
def fail (s : Stream) (cause : Cause) (t : Token) : Descent s α :=
  ⟨⟨.error (s.diagnosticAt cause t), s, [.refused cause t.span.start]⟩, Nat.le_refl _⟩

def note (event : Event) (d : Descent s α) : Descent s α :=
  ⟨⟨d.result, d.stream, event :: d.events⟩, d.length_le⟩

def map (f : α → β) (d : Descent s α) : Descent s β :=
  ⟨⟨d.result.map f, d.stream, d.events⟩, d.length_le⟩

def after (h : rest.word.length ≤ s.word.length) (d : Descent rest α) : Descent s α :=
  ⟨d.toOutcome, Nat.le_trans d.length_le h⟩

def andThen (d : Descent s α)
    (next : α → (rest : Stream) → rest.word.length ≤ s.word.length → Descent rest β) :
    Descent s β :=
  match d.result with
  | .error e => ⟨⟨.error e, d.stream, d.events⟩, d.length_le⟩
  | .ok a =>
    let later := next a d.stream d.length_le
    ⟨⟨later.result, later.stream, d.events ++ later.events⟩,
      Nat.le_trans later.length_le d.length_le⟩

def token (s : Stream) (expected : Expected) : Descent s Token where
  result := (s.expect expected).1
  stream := (s.expect expected).2
  events :=
    match (s.expect expected).1 with
    | .ok _ => []
    | .error d => [.refused d.cause d.position]
  length_le := s.snd_expect expected ▸ s.length_found_le expected

theorem le_of_found {expected : Expected} {t : Option Token} (h : s.found expected = (t, rest)) :
    rest.word.length ≤ s.word.length := by
  simpa [h] using s.length_found_le expected

/-- An expression that is one token. A literal is taken before its spelling is
looked at. -/
def leaf (s : Stream) : Descent s Expr :=
  match h : s.found (.kind .name) with
  | (some t, rest) => after (le_of_found h) ((done (.name t.text) rest).note (.name t.text))
  | (none, _) =>
    match h : s.found (.kind .number) with
    | (some t, rest) =>
      after (le_of_found h) <|
        match Numeral.read? t.text with
        | some n => done (.num n) rest
        | none => fail rest (.malformedNumber t.text) t
    | (none, _) =>
      match h : s.found (.kind .boolean) with
      | (some t, rest) =>
        after (le_of_found h) <|
          match t.bool? with
          | some b => done (.bool b) rest
          | none => fail rest (.malformedBoolean t.text) t
      | (none, _) => fail s (.unrecognisedExpression s.next.describe) s.next

theorem lt_of_found {expected : Expected} {t : Token}
    (h : s.found expected = (some t, rest)) (hk : expected.sort ≠ .eof) :
    rest.word.length < s.word.length := by
  refine Stream.length_found_lt h fun hadmits => hk ?_
  cases expected <;> simp_all [Expected.admits, Expected.sort, Terminal.is, s.kind_stop]

mutual
def expression (s : Stream) : Descent s Expr :=
  match h : s.found (.spelled .keyword "if") with
  | (some _, rest) => after (le_of_found h) (branches rest)
  | (none, _) => leaf s
termination_by 2 * s.word.length
decreasing_by
  have := lt_of_found h (by decide)
  omega

def branches (s : Stream) : Descent s Expr :=
  ((expression s).andThen fun condition s₁ _ =>
    (token s₁ (.spelled .keyword "then")).andThen fun _ s₂ _ =>
    (expression s₂).andThen fun yes s₃ _ =>
    (token s₃ (.spelled .keyword "else")).andThen fun _ s₄ _ =>
    (expression s₄).map (.ite condition yes)).note .conditional
termination_by 2 * s.word.length + 1
decreasing_by all_goals omega
end

def names (s : Stream) : Descent s (List String) :=
  match h : s.found (.kind .name) with
  | (some t, rest) => after (le_of_found h) ((names rest).map (t.text :: ·))
  | (none, _) => done [] s
termination_by s.word.length
decreasing_by exact lt_of_found h (by decide)

def binding (s : Stream) : Descent s Binding :=
  (token s (.spelled .keyword "let")).andThen fun _ s₁ _ =>
  (token s₁ (.kind .name)).andThen fun name s₂ _ =>
  note (.binding name.text) <|
  (names s₂).andThen fun args s₃ _ =>
  (token s₃ (.spelled .symbol "=")).andThen fun _ s₄ _ =>
  (expression s₄).map (.mk name.text args)

def bindings (s : Stream) : Descent s (List Binding) :=
  match h : s.found (.kind .newline) with
  | (some _, rest) =>
    after (le_of_found h) <|
      (binding rest).andThen fun first s₁ _ => (bindings s₁).map (first :: ·)
  | (none, _) => done [] s
termination_by s.word.length
decreasing_by
  have := lt_of_found h (by decide)
  omega

def program (s : Stream) : Descent s Program :=
  (bindings s).map .mk

def whole (s : Stream) : Descent s Program :=
  (program s).andThen fun p s₁ _ =>
  (token s₁ (.kind .eof)).andThen fun _ s₂ _ =>
  (done p s₂).note (.parsed p.bindings.length)

end Descent

def Stream.descend (s : Stream) : Outcome Program := (Descent.whole s).toOutcome

end LetIf
