import LetIf.Lexeme
import LetIf.Log

/-!
# Tokens of a source

The lexemes of a source are read in order, keeping track of the place. The
first token of a row is preceded by a token for the start of that row, so a
row without tokens leaves none. Reading ends after the last lexeme, or at the
first lexeme or character that is refused.
-/

namespace LetIf

/-- Where reading stands: the position of the next character, and whether the
row has had no token yet. -/
structure Place where
  position : Position := .origin
  fresh : Bool := true
  deriving DecidableEq, Repr

namespace Place

def start : Place := {}

def after (p : Place) (l : Lexeme) : Place :=
  match l with
  | .newline => ⟨⟨p.position.row + 1, 1⟩, true⟩
  | l => ⟨⟨p.position.row, p.position.col + l.chars.length⟩, p.fresh && l.terminal?.isNone⟩

def tokens (p : Place) (l : Lexeme) : List Token :=
  match l.terminal? with
  | none => []
  | some t =>
    let token : Token := ⟨t, p.position, (p.after l).position⟩
    if p.fresh then [.newlineAt p.position.row, token] else [token]

end Place

inductive Ending where
  | complete (position : Position)
  | stuck (cause : Cause) (position : Position)
  deriving DecidableEq, Repr

/-- The tokens read, without one for the end, and how reading ended. -/
structure Scan where
  tokens : List Token
  ending : Ending
  deriving DecidableEq, Repr

namespace Scan

def run (p : Place) (unread : List Char) : List Lexeme → Scan
  | [] =>
    match unread with
    | [] => ⟨[], .complete p.position⟩
    | c :: _ => ⟨[], .stuck (.unrecognisedToken (.singleton c)) p.position⟩
  | l :: ls =>
    match l.cause? with
    | some cause => ⟨[], .stuck cause p.position⟩
    | none =>
      let rest := run (p.after l) unread ls
      ⟨p.tokens l ++ rest.tokens, rest.ending⟩

def ofChars (cs : List Char) : Scan :=
  let (lexemes, unread) := Lexeme.cut cs
  run .start unread lexemes

def ofSource (source : String) : Scan :=
  ofChars source.toList

/-- All tokens, closed by one for the end, or why there are none. -/
def result (source : String) (s : Scan) : Except Diagnostic (List Token) :=
  match s.ending with
  | .complete p => .ok (s.tokens ++ [.eofAt p])
  | .stuck cause p => .error (.locate source cause p)

/-- The tokens in the order they were read, and a summary if all were. -/
def events (s : Scan) : List Event :=
  s.tokens.map .token ++
    match s.ending with
    | .complete p => [.tokenized (s.tokens.length + 1) p.row]
    | .stuck .. => []

end Scan

def tokenize (source : String) : Except Diagnostic (List Token) :=
  (Scan.ofSource source).result source

end LetIf
