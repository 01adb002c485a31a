import LetIf.Log

/-!
# Readings of a terminal string

A grammar rule reads terminals from the front of a list. Its reading holds the
result, the terminals left unread and the events on the way.

Rules that call each other are defined through `Reading.Of`, so that the
evidence for their termination is built along with their result.
-/

namespace LetIf

/-- The terminal a refusal is about: the next one, left unread, or the one
read last. -/
inductive Blame where
  | next
  | latest
  deriving DecidableEq, Repr

structure Refusal where
  cause : Cause
  blame : Blame
  deriving DecidableEq, Repr

structure Reading (α : Type) where
  result : Except Refusal α
  rest : List Terminal
  events : List Event

/-- How a diagnostic refers to the next terminal. After the last one comes the
end of input. -/
def describeNext : List Terminal → String
  | [] => Terminal.eof.describe
  | t :: _ => t.describe

namespace Reading

variable {α β : Type}

def done (a : α) (rest : List Terminal) : Reading α :=
  ⟨.ok a, rest, []⟩

def refuse (cause : Cause) (rest : List Terminal) : Reading α :=
  ⟨.error ⟨cause, .next⟩, rest, []⟩

/-- Leaves everything and refuses the terminal read last. -/
def reject (cause : Cause) (rest : List Terminal) : Reading α :=
  ⟨.error ⟨cause, .latest⟩, rest, []⟩

def note (event : Event) (r : Reading α) : Reading α :=
  { r with events := event :: r.events }

def map (f : α → β) (r : Reading α) : Reading β :=
  { r with result := r.result.map f }

def andThen (r : Reading α) (next : α → List Terminal → Reading β) : Reading β :=
  match r.result with
  | .error refusal => ⟨.error refusal, r.rest, r.events⟩
  | .ok a =>
    let s := next a r.rest
    ⟨s.result, s.rest, r.events ++ s.events⟩

theorem suffix_andThen {r : Reading α} {next : α → List Terminal → Reading β}
    {ts : List Terminal} (hr : r.rest <:+ ts) (hn : ∀ a rest, (next a rest).rest <:+ rest) :
    (r.andThen next).rest <:+ ts := by
  unfold andThen
  split
  · exact hr
  next a _ => exact (hn a r.rest).trans hr

abbrev Of (ts : List Terminal) (α : Type) := { r : Reading α // r.rest <:+ ts }

variable {ts : List Terminal}

def Of.andThen (r : Of ts α)
    (next : α → (rest : List Terminal) → rest <:+ ts → Of rest β) : Of ts β :=
  match r.1.result with
  | .error refusal => ⟨⟨.error refusal, r.1.rest, r.1.events⟩, r.2⟩
  | .ok a =>
    let s := next a r.1.rest r.2
    ⟨⟨s.1.result, s.1.rest, r.1.events ++ s.1.events⟩, s.2.trans r.2⟩

theorem Of.val_andThen (r : Of ts α)
    (next : α → (rest : List Terminal) → rest <:+ ts → Of rest β)
    (plain : α → List Terminal → Reading β)
    (h : ∀ a rest hr, (next a rest hr).val = plain a rest) :
    (r.andThen next).val = r.val.andThen plain := by
  unfold Of.andThen Reading.andThen
  cases r.1.result with
  | error e => rfl
  | ok a => simp [h]

end Reading

end LetIf
