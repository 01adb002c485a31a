/-!
# Places in a source

Rows and columns are counted from one, and a column counts characters rather
than bytes. A span is half open: its stop is the column after its last
character.
-/

namespace LetIf

structure Position where
  row : Nat
  col : Nat
  deriving DecidableEq, Repr

structure Span where
  start : Position
  stop : Position
  deriving DecidableEq, Repr

def Position.origin : Position := ⟨1, 1⟩

def Position.text (p : Position) : String :=
  p.row.repr ++ ":" ++ p.col.repr

/-- The span of something that occupies no character. -/
def Span.at (p : Position) : Span := ⟨p, p⟩

end LetIf
