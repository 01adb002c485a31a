import LetIf.Position
import LetIf.Text.Quoted

/-!
# Tokens

The grammar sees a terminal, which is a kind and a spelling. A token is a
terminal together with the place where it was read.
-/

namespace LetIf

inductive Kind where
  | eof
  | newline
  | keyword
  | name
  | number
  | boolean
  | symbol
  deriving DecidableEq, Repr

namespace Kind

def all : List Kind := [.eof, .newline, .keyword, .name, .number, .boolean, .symbol]

def label : Kind → String
  | .eof => "EOF"
  | .newline => "NEWLINE"
  | .keyword => "KEYWORD"
  | .name => "NAME"
  | .number => "NUM"
  | .boolean => "BOOL"
  | .symbol => "SYM"

def ofLabel? (text : String) : Option Kind :=
  all.find? (·.label = text)

def reserved? (word : String) : Option Kind :=
  if word ∈ ["let", "if", "then", "else"] then some keyword
  else if word ∈ ["true", "false"] then some boolean
  else none

theorem ofLabel?_label (kind : Kind) : ofLabel? kind.label = some kind := by
  cases kind <;> decide

end Kind

structure Terminal where
  kind : Kind
  text : String
  deriving DecidableEq, Repr

namespace Terminal

def eof : Terminal := ⟨.eof, "EOF"⟩

def newline : Terminal := ⟨.newline, "\n"⟩

def ofWord (word : String) : Terminal :=
  ⟨(Kind.reserved? word).getD .name, word⟩

def is (t : Terminal) (kind : Kind) (text : String) : Bool :=
  t.kind = kind && t.text = text

/-- How a diagnostic refers to the terminal. The spelling of a line start or
of the end says nothing and is left out. -/
def describe (t : Terminal) : String :=
  match t.kind with
  | .eof | .newline => t.kind.label
  | kind => kind.label ++ " `" ++ t.text ++ "`"

end Terminal

structure Token extends Terminal where
  span : Span
  deriving DecidableEq, Repr

namespace Token

def eofAt (p : Position) : Token := ⟨.eof, .at p⟩

def newlineAt (row : Nat) : Token := ⟨.newline, .at ⟨row, 1⟩⟩

def isEof (t : Token) : Bool := t.kind = .eof

def listing (t : Token) : String :=
  t.span.start.text ++ " " ++ t.kind.label ++ " " ++ Text.quote t.text

end Token

/-- What a rule asks of the next terminal: a kind, or a kind and a spelling. -/
inductive Expected where
  | kind (kind : Kind)
  | spelled (kind : Kind) (text : String)
  deriving DecidableEq, Repr

namespace Expected

def describe : Expected → String
  | .kind k => k.label
  | .spelled k text => k.label ++ " `" ++ text ++ "`"

def sort : Expected → Kind
  | .kind k | .spelled k _ => k

def admits : Expected → Terminal → Bool
  | .kind k, t => t.kind = k
  | .spelled k text, t => t.is k text

end Expected

end LetIf
