import LetIf.Numeral
import LetIf.Outline
import LetIf.Token

/-!
# Expressions

An expression is a name, a literal or a conditional. It is written as its
terminals with one blank between neighbours.
-/

namespace LetIf

inductive Expr where
  | ite (condition yes no : Expr)
  | name (text : String)
  | bool (value : Bool)
  | num (value : Int64)
  deriving DecidableEq, Repr

def spell (ts : List Terminal) : String :=
  " ".intercalate (ts.map Terminal.text)

namespace Terminal

def ofBool (value : Bool) : Terminal := ⟨.boolean, if value then "true" else "false"⟩

def ofInt (value : Int64) : Terminal := ⟨.number, Numeral.write value⟩

def bool? (t : Terminal) : Option Bool :=
  if t.text = "true" then some true else if t.text = "false" then some false else none

end Terminal

namespace Expr

def terminals : Expr → List Terminal
  | .ite c y n =>
    ⟨.keyword, "if"⟩ :: c.terminals ++ ⟨.keyword, "then"⟩ :: y.terminals
      ++ ⟨.keyword, "else"⟩ :: n.terminals
  | .name text => [⟨.name, text⟩]
  | .bool value => [.ofBool value]
  | .num value => [.ofInt value]

def text (e : Expr) : String :=
  spell e.terminals

def ifDepth : Expr → Nat
  | .ite c y n => 1 + max (max c.ifDepth y.ifDepth) n.ifDepth
  | .name _ | .bool _ | .num _ => 0

def outline : Expr → Outline
  | .ite c y n =>
    .record "If" [.field "cond" c.outline, .field "then_branch" y.outline,
      .field "else_branch" n.outline]
  | .name text => .call "Name" (.quoted text)
  | .bool value => .call "Bool" (.atom (if value then "true" else "false"))
  | .num value => .call "Num" (.atom (Numeral.write value))

end Expr

end LetIf
