import LetIf.Expr

/-!
# Programs

A program is a list of bindings in source order, each written on a row of its
own. A binding without arguments is a plain value. Names are kept as written:
nothing here asks that they be distinct, or even that they be words.
-/

namespace LetIf

structure Binding where
  name : String
  args : List String
  body : Expr
  deriving DecidableEq, Repr

structure Program where
  bindings : List Binding
  deriving DecidableEq, Repr

namespace Binding

/-- The terminals of a binding, in order. -/
def terminals (b : Binding) : List Terminal :=
  ⟨.keyword, "let"⟩ :: ⟨.name, b.name⟩ :: b.args.map (⟨.name, ·⟩)
    ++ ⟨.symbol, "="⟩ :: b.body.terminals

def text (b : Binding) : String :=
  spell b.terminals

def outline (b : Binding) : Outline :=
  .record "LetBinding"
    [.field "name" (.quoted b.name), .field "args" (.list (b.args.map .quoted)),
      .field "body" b.body.outline]

end Binding

namespace Program

/-- The terminals of a program: every binding opens a row. -/
def terminals (p : Program) : List Terminal :=
  p.bindings.flatMap fun b => .newline :: b.terminals

/-- The source text of a program, with a line feed after every binding. -/
def text (p : Program) : String :=
  .join (p.bindings.map fun b => b.text ++ "\n")

def outline (p : Program) : Outline :=
  .record "Program" [.field "bindings" (.list (p.bindings.map Binding.outline))]

end Program

end LetIf
