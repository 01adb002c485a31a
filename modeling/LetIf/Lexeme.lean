import LetIf.Diagnostic

/-!
# Lexemes

A source is cut from the left into the longest pieces that can be named. A
carriage return is a blank wherever it stands. Cutting stops at the first
character that starts no piece.
-/

namespace LetIf

inductive Lexeme where
  | newline
  | blank (c : Char)
  /-- Two slashes and the rest of the row, which is the text given here. -/
  | comment (text : List Char)
  | word (text : List Char)
  | digits (text : List Char)
  | equals
  deriving DecidableEq, Repr

namespace Lexeme

def isBlank (c : Char) : Bool := c = ' ' || c = '\t' || c = '\r'

def isWordStart (c : Char) : Bool := c.isAlpha || c = '_'

def isWordChar (c : Char) : Bool := c.isAlphanum || c = '_'

def chars : Lexeme → List Char
  | .newline => ['\n']
  | .blank c => [c]
  | .comment text => '/' :: '/' :: text
  | .word text => text
  | .digits text => text
  | .equals => ['=']

/-- The longest lexeme at the front of a text, and what follows it. -/
def read? : List Char → Option (Lexeme × List Char)
  | [] => none
  | '/' :: '/' :: cs => some (.comment (cs.takeWhile (· ≠ '\n')), cs.dropWhile (· ≠ '\n'))
  | c :: cs =>
    if c = '\n' then some (.newline, cs)
    else if isBlank c then some (.blank c, cs)
    else if isWordStart c then
      some (.word (c :: cs.takeWhile isWordChar), cs.dropWhile isWordChar)
    else if c.isDigit then
      some (.digits (c :: cs.takeWhile Char.isDigit), cs.dropWhile Char.isDigit)
    else if c = '=' then some (.equals, cs)
    else none

theorem chars_append_of_read? {cs rest : List Char} {l : Lexeme} (h : read? cs = some (l, rest)) :
    l.chars ++ rest = cs := by
  fun_cases read? cs <;> simp_all [read?]
  all_goals obtain ⟨rfl, rfl⟩ := h; simp [chars]

theorem chars_ne_nil_of_read? {cs rest : List Char} {l : Lexeme} (h : read? cs = some (l, rest)) :
    l.chars ≠ [] := by
  fun_cases read? cs <;> simp_all [read?]
  all_goals obtain ⟨rfl, rfl⟩ := h; simp [chars]

theorem length_lt_of_read? {cs rest : List Char} {l : Lexeme} (h : read? cs = some (l, rest)) :
    rest.length < cs.length := by
  have pos := List.length_pos_iff.2 (chars_ne_nil_of_read? h)
  have sum := congrArg List.length (chars_append_of_read? h)
  rw [List.length_append] at sum
  omega

/-- Cuts a text into lexemes. The second part is what could not be cut. -/
def cut (cs : List Char) : List Lexeme × List Char :=
  match _h : read? cs with
  | none => ([], cs)
  | some (l, rest) =>
    let (ls, unread) := cut rest
    (l :: ls, unread)
termination_by cs.length
decreasing_by exact length_lt_of_read? _h

def terminal? : Lexeme → Option Terminal
  | .newline | .blank _ | .comment _ => none
  | .word text => some (.ofWord (.ofList text))
  | .digits text => some ⟨.number, .ofList text⟩
  | .equals => some ⟨.symbol, "="⟩

/-- Why a lexeme is refused, if it is: a digit run must denote an integer of
the language. -/
def cause? : Lexeme → Option Cause
  | .digits text =>
    if (Numeral.read? (.ofList text)).isSome then none else some (.numberOutOfRange (.ofList text))
  | _ => none

end Lexeme

end LetIf
