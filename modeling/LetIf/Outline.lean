import LetIf.Text.Quoted

/-!
# Outlines of a tree

A tree is shown with the names of its nodes and fields, either on one line or
with one member a line. In the second form every member stands four blanks
further in than the node that holds it and is followed by a comma.
-/

namespace LetIf

/-- The two forms of an outline. The indented form is given for the depth of
its first line, which is not itself indented. -/
structure Outline where
  inline : String
  indented : Nat → String

namespace Outline

def margin (depth : Nat) : String :=
  .ofList (List.replicate (4 * depth) ' ')

/-- Members on lines of their own, between two brackets. -/
def block (opening closing : String) (members : List (Nat → String)) (depth : Nat) : String :=
  opening ++ "\n"
    ++ .join (members.map fun member => margin (depth + 1) ++ member (depth + 1) ++ ",\n")
    ++ margin depth ++ closing

def atom (text : String) : Outline :=
  ⟨text, fun _ => text⟩

def quoted (text : String) : Outline :=
  atom (Text.quote text)

def call (name : String) (value : Outline) : Outline where
  inline := name ++ "(" ++ value.inline ++ ")"
  indented := block (name ++ "(") ")" [value.indented]

def field (name : String) (value : Outline) : Outline where
  inline := name ++ ": " ++ value.inline
  indented depth := name ++ ": " ++ value.indented depth

def record (name : String) (fields : List Outline) : Outline where
  inline := name ++ " \x7b " ++ ", ".intercalate (fields.map inline) ++ " \x7d"
  indented := block (name ++ " \x7b") "\x7d" (fields.map indented)

def list (items : List Outline) : Outline where
  inline := "[" ++ ", ".intercalate (items.map inline) ++ "]"
  indented := if items.isEmpty then fun _ => "[]" else block "[" "]" (items.map indented)

end Outline

end LetIf
