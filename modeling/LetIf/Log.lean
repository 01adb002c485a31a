import LetIf.Diagnostic

/-!
# The log of a run

Reading a source leaves a list of events. An event has a level and a message,
and is recorded only if its level is within the chosen bound.
-/

namespace LetIf

inductive Level where
  | error
  | warn
  | info
  | debug
  | trace
  deriving DecidableEq, Repr

namespace Level

def all : List Level := [.error, .warn, .info, .debug, .trace]

def label : Level → String
  | .error => "ERROR"
  | .warn => "WARN"
  | .info => "INFO"
  | .debug => "DEBUG"
  | .trace => "TRACE"

/-- How detailed a level is, from one for the least detailed. -/
def detail : Level → Nat
  | .error => 1
  | .warn => 2
  | .info => 3
  | .debug => 4
  | .trace => 5

/-- Whether events of this level are recorded under a bound. Nothing is
recorded without one. -/
def within (level : Level) : Option Level → Bool
  | none => false
  | some bound => level.detail ≤ bound.detail

end Level

inductive Event where
  | token (token : Token)
  | tokenized (tokens rows : Nat)
  | binding (name : String)
  | conditional
  | name (text : String)
  | refused (cause : Cause) (position : Position)
  | parsed (bindings : Nat)
  deriving DecidableEq, Repr

namespace Event

def level : Event → Level
  | .token _ | .name _ => .trace
  | .tokenized .. | .parsed _ => .info
  | .binding _ | .conditional | .refused .. => .debug

def message : Event → String
  | .token t => "token " ++ t.listing
  | .tokenized tokens rows =>
    "tokenized " ++ tokens.repr ++ " tokens over " ++ rows.repr ++ " line(s)"
  | .binding text => "Entering let binding `" ++ text ++ "`"
  | .conditional => "Entering if expression"
  | .name text => "name `" ++ text ++ "`"
  | .refused cause p => cause.message ++ " at " ++ p.text
  | .parsed bindings => "parsed " ++ bindings.repr ++ " binding(s)"

def record (e : Event) : String :=
  "[" ++ e.level.label ++ "] " ++ e.message

end Event

def records (bound : Option Level) (events : List Event) : List String :=
  (events.filter (·.level.within bound)).map Event.record

end LetIf
