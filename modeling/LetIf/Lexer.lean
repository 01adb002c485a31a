import LetIf.Scan
import LetIf.Text.Cursor

/-!
# Scanning by byte offset

The scan of a source as a loop. In each round the patterns are tried in order on
the text that is left, and the lexer moves by the size of what the first of them
has found. A round that looks at the text from inside a character, or from past
the end, is undefined.
-/

namespace LetIf

open Text (byteSize)
open Lexeme (isBlank isWordStart isWordChar)

inductive Pattern where
  | newline
  | blanks
  | comment
  | word
  | digits
  | equals
  deriving DecidableEq, Repr

namespace Pattern

def all : List Pattern := [.newline, .blanks, .comment, .word, .digits, .equals]

/-- A character of one class and all of another class that follow it. -/
def leading (first later : Char → Bool) : List Char → Option (List Char)
  | [] => none
  | c :: cs => if first c then some (c :: cs.takeWhile later) else none

def find? (p : Pattern) (cs : List Char) : Option (List Char) :=
  match p with
  | .newline =>
    match cs with
    | '\n' :: _ => some ['\n']
    | '\r' :: '\n' :: _ => some ['\r', '\n']
    | _ => none
  | .blanks => leading isBlank isBlank cs
  | .comment =>
    match cs with
    | '/' :: '/' :: text => some ('/' :: '/' :: text.takeWhile (· ≠ '\n'))
    | _ => none
  | .word => leading isWordStart isWordChar cs
  | .digits => leading Char.isDigit Char.isDigit cs
  | .equals =>
    match cs with
    | '=' :: _ => some ['=']
    | _ => none

theorem leading_eq_some {first later : Char → Bool} {cs text : List Char}
    (h : leading first later cs = some text) :
    ∃ c ds, cs = c :: ds ∧ first c ∧ text = c :: ds.takeWhile later := by
  cases cs with
  | nil => cases h
  | cons c ds =>
    rw [leading] at h
    split at h
    next hc => exact ⟨c, ds, rfl, hc, (Option.some.inj h).symm⟩
    · cases h

theorem find?_ne_nil {p : Pattern} {cs text : List Char} (h : p.find? cs = some text) :
    text ≠ [] := by
  cases p with
  | newline | comment | equals =>
    simp only [find?] at h
    split at h <;> cases h <;> exact List.cons_ne_nil _ _
  | blanks | word | digits =>
    obtain ⟨c, ds, -, -, rfl⟩ := leading_eq_some h
    exact List.cons_ne_nil _ _

end Pattern

structure Lexer extends Text.Cursor where
  /-- Whether no token has been pushed on the current row. -/
  fresh : Bool := true
  tokens : List Token := []
  deriving DecidableEq, Repr

inductive Round where
  | ends (ending : Ending)
  | goesOn (next : Lexer)
  deriving DecidableEq, Repr

namespace Lexer

def start (source : String) : Lexer :=
  { source := source.toList }

/-- Moves by `n` bytes. A lexer moves over text that it has found, so it does not
leave its source. -/
def advance (s : Lexer) (n : Nat) : Lexer :=
  { s with offset := s.offset + n }

/-- Pushes a token, after one for the start of the row if it is the first there. -/
def push (s : Lexer) (t : Token) : Lexer :=
  { s with
    tokens := s.tokens ++ if s.fresh then [.newlineAt s.row, t] else [t]
    fresh := false }

def nextRow (s : Lexer) : Lexer :=
  { s with row := s.row + 1, rowStart := s.offset, fresh := true }

/-- The text that a pattern finds, empty if it finds none. -/
def matched? (s : Lexer) (p : Pattern) : Option (List Char) := do
  let rest ← s.rest?
  return (p.find? rest).getD []

def skip? (s : Lexer) (p : Pattern) : Option Round := do
  let text ← s.matched? p
  return .goesOn (s.advance (byteSize text))

def spell? (s : Lexer) (t : Terminal) : Option Round := do
  let first ← s.position?
  let moved := s.advance (byteSize t.text.toList)
  let stop ← moved.position?
  return .goesOn (moved.push ⟨t, first, stop⟩)

def refuse? (s : Lexer) (cause : Cause) : Option Round := do
  let position ← s.position?
  return .ends (.stuck cause position)

def handle? (s : Lexer) : Pattern → Option Round
  | .newline => do
    let text ← s.matched? .newline
    return .goesOn (s.advance (byteSize text)).nextRow
  | .blanks => s.skip? .blanks
  | .comment => s.skip? .comment
  | .word => do
    let text ← s.matched? .word
    s.spell? (.ofWord (.ofList text))
  | .digits => do
    let text ← s.matched? .digits
    -- Digits that are no integer of the language end the loop before they are read.
    if (Numeral.read? (.ofList text)).isSome then s.spell? ⟨.number, .ofList text⟩
    else s.refuse? (.numberOutOfRange (.ofList text))
  | .equals => s.spell? ⟨.symbol, "="⟩

def round? (s : Lexer) : Option Round :=
  if s.atEnd then do
    let position ← s.position?
    return .ends (.complete position)
  else do
    let rest ← s.rest?
    match Pattern.all.find? fun p => (p.find? rest).isSome with
    | some p => s.handle? p
    | none => s.refuse? (.unrecognisedToken (rest.head?.elim "" String.singleton))

theorem spell?_goesOn {s next : Lexer} {t : Terminal} (h : s.spell? t = some (.goesOn next)) :
    next.source = s.source ∧ next.offset = s.offset + byteSize t.text.toList := by
  obtain ⟨first, -, h⟩ := Option.bind_eq_some_iff.1 h
  obtain ⟨stop, -, h⟩ := Option.bind_eq_some_iff.1 h
  cases h
  exact ⟨rfl, rfl⟩

theorem refuse?_ne_goesOn (s : Lexer) (cause : Cause) (next : Lexer) :
    s.refuse? cause ≠ some (.goesOn next) := by
  intro h
  obtain ⟨position, -, h⟩ := Option.bind_eq_some_iff.1 h
  cases h

theorem matched?_of_find? {s : Lexer} {p : Pattern} {rest text : List Char}
    (hrest : s.rest? = some rest) (h : p.find? rest = some text) : s.matched? p = some text := by
  simp [matched?, hrest, h]

theorem handle?_goesOn {s next : Lexer} {p : Pattern} {rest text : List Char}
    (hrest : s.rest? = some rest) (hfind : p.find? rest = some text)
    (h : s.handle? p = some (.goesOn next)) :
    next.source = s.source ∧ next.offset = s.offset + byteSize text := by
  have hmatched := matched?_of_find? hrest hfind
  cases p with
  | newline | blanks | comment =>
    simp only [handle?, skip?, hmatched, Option.bind_eq_bind, Option.bind_some] at h
    cases h
    exact ⟨rfl, rfl⟩
  | word =>
    simp only [handle?, hmatched, Option.bind_eq_bind, Option.bind_some] at h
    simpa [Terminal.ofWord] using spell?_goesOn h
  | digits =>
    simp only [handle?, hmatched, Option.bind_eq_bind, Option.bind_some] at h
    split at h
    · simpa using spell?_goesOn h
    · exact absurd h (refuse?_ne_goesOn s _ next)
  | equals =>
    simp only [Pattern.find?] at hfind
    split at hfind <;> cases hfind
    exact spell?_goesOn h

theorem round?_goesOn {s next : Lexer} (h : s.round? = some (.goesOn next)) :
    next.source = s.source ∧ s.offset < next.offset ∧ s.offset < byteSize s.source := by
  unfold round? at h
  split at h
  · obtain ⟨position, -, h⟩ := Option.bind_eq_some_iff.1 h
    cases h
  next hend =>
    obtain ⟨rest, hrest, h⟩ := Option.bind_eq_some_iff.1 h
    split at h
    next p hp =>
      have hsome : (p.find? rest).isSome := by simpa using List.find?_some hp
      obtain ⟨text, htext⟩ := Option.isSome_iff_exists.1 hsome
      obtain ⟨hsource, hoffset⟩ := handle?_goesOn hrest htext h
      obtain ⟨c, cs, rfl⟩ := List.exists_cons_of_ne_nil (Pattern.find?_ne_nil htext)
      have hsize := Text.byteSize_cons_ne_zero c cs
      have hlt : s.offset < byteSize s.source := by simpa [Text.Cursor.atEnd] using hend
      exact ⟨hsource, by omega, hlt⟩
    · exact absurd h (refuse?_ne_goesOn s _ next)

def run (s : Lexer) : Option Scan :=
  match _h : s.round? with
  | none => none
  | some (.ends ending) => some ⟨s.tokens, ending⟩
  | some (.goesOn next) => next.run
termination_by byteSize s.source - s.offset
decreasing_by
  obtain ⟨hsource, hoffset, hsize⟩ := round?_goesOn _h
  rw [hsource]
  omega

/-- The tokens of a source by the loop. -/
def tokenize? (source : String) : Option (Except Diagnostic (List Token)) := do
  let scan ← (start source).run
  return scan.result source

end Lexer

end LetIf
