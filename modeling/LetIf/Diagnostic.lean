import LetIf.Numeral
import LetIf.Text.Rows
import LetIf.Token

/-!
# Diagnostics

A diagnostic is a cause, the position it is reported at and the row of the
source that it shows. The wording of every cause is here, and so is the form
of a report: the shown row, a caret below the position, and the message.
-/

namespace LetIf

inductive Cause where
  /-- A character that starts no lexeme. -/
  | unrecognisedToken (text : String)
  /-- A run of digits whose value is no integer of the language. -/
  | numberOutOfRange (text : String)
  | unexpectedToken (expected : Expected) (found : String)
  | unrecognisedExpression (found : String)
  /-- A number token whose spelling is no numeral of the language. -/
  | malformedNumber (text : String)
  /-- A boolean token that is spelled neither way. -/
  | malformedBoolean (text : String)
  deriving DecidableEq, Repr

namespace Cause

def name : Cause → String
  | .unrecognisedToken _ => "UnrecognisedToken"
  | .numberOutOfRange _ => "NumberOutOfRange"
  | .unexpectedToken .. => "UnexpectedToken"
  | .unrecognisedExpression _ => "UnrecognisedExpression"
  | .malformedNumber _ => "NumberParseError"
  | .malformedBoolean _ => "BooleanParseError"

def message : Cause → String
  | .unrecognisedToken text => "unrecognised token: " ++ Text.quote text
  | .numberOutOfRange text => "number literal " ++ text ++ " does not fit in a 64-bit integer"
  | .unexpectedToken expected found => "expected " ++ expected.describe ++ ", found " ++ found
  | .unrecognisedExpression found => "unrecognised expression, found " ++ found
  | .malformedNumber text =>
    "internal error: NUM token " ++ Text.quote text
      ++ " is not a 64-bit integer, please report this as a lexer bug"
  | .malformedBoolean text =>
    "internal error: BOOL token " ++ Text.quote text
      ++ " is not `true` or `false`, please report this as a lexer bug"

/-- Whether the tokens, and not the source, are to blame. -/
def isInternal : Cause → Bool
  | .malformedNumber _ | .malformedBoolean _ => true
  | _ => false

def missingTip : Expected → Option String
  | .spelled .keyword "let" => some "every non-blank line must start with `let`"
  | .kind .name => some "a binding needs a name after `let`"
  | .spelled .symbol "=" => some "a binding's arguments must be followed by `=`"
  | .spelled .keyword "then" | .spelled .keyword "else" =>
    some "an `if` expression needs both a `then` and an `else` branch"
  | .kind .eof => some "only one binding is allowed per line"
  | _ => none

def tip : Cause → Option String
  | .unrecognisedToken _ => none
  | .numberOutOfRange _ => some ("the largest integer literal is " ++ Numeral.largest.toNat.repr)
  | .unexpectedToken expected _ => missingTip expected
  | .unrecognisedExpression _ => some "expected `if`, a name, a number, `true` or `false`"
  | .malformedNumber text =>
    some ("Invalid number: `" ++ text ++ "`, is it above the integer limit?")
  | .malformedBoolean text => some ("Invalid boolean: `" ++ text ++ "`")

end Cause

structure Diagnostic where
  cause : Cause
  position : Position
  line : String
  deriving DecidableEq, Repr

namespace Diagnostic

def locate (source : String) (cause : Cause) (p : Position) : Diagnostic :=
  ⟨cause, p, Text.lineAt source p.row⟩

/-- What stands before the caret: a tab below every tab of the row, so that
the two line up however wide a tab is shown, and a blank below all else. -/
def padding (line : List Char) (col : Nat) : List Char :=
  let width := col - 1
  (line.take width).map (fun c => if c = '\t' then '\t' else ' ')
    ++ List.replicate (width - line.length) ' '

def render (d : Diagnostic) : String :=
  d.line ++ "\n" ++ .ofList (padding d.line.toList d.position.col) ++ "^\n"
    ++ d.cause.message ++ " (@" ++ d.position.text ++ ")"

def header (d : Diagnostic) : String :=
  match d.cause.tip with
  | none => "Error: " ++ d.cause.name
  | some tip => "Error: " ++ d.cause.name ++ " (" ++ tip ++ ")"

def report (d : Diagnostic) (file : String) : String :=
  d.header ++ "\n-> " ++ file ++ "\n" ++ d.render

end Diagnostic

end LetIf
