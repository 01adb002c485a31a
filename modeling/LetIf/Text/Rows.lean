/-!
# Rows of a text

A text is cut at every line feed, so it has one row more than it has line
feeds, and the last row is what follows the last line feed. A carriage return
belongs to the line ending only directly before a line feed, which is why it
is dropped from every row but the last.
-/

namespace LetIf.Text

def rows (cs : List Char) : List (List Char) :=
  cs.splitOn '\n'

def dropReturn (row : List Char) : List Char :=
  if row.getLast? = some '\r' then row.dropLast else row

/-- The shown text of a row counted from one. Row zero and the rows past the
end are empty, and so is the row after a final line feed. -/
def line (cs : List Char) : Nat → List Char
  | 0 => []
  | row + 1 =>
    match (rows cs).drop row with
    | [] => []
    | [last] => last
    | row :: _ => dropReturn row

def lineAt (source : String) (row : Nat) : String :=
  .ofList (line source.toList row)

theorem rows_ne_nil (cs : List Char) : rows cs ≠ [] :=
  List.splitOn_ne_nil '\n' cs

theorem rows_cons (c : Char) (cs : List Char) :
    rows (c :: cs) = if c = '\n' then [] :: rows cs else (rows cs).modifyHead (c :: ·) := by
  simp only [rows, List.splitOn, List.splitOnP_cons_eq_if_modifyHead, beq_iff_eq]

theorem length_rows (cs : List Char) : (rows cs).length = cs.count '\n' + 1 := by
  induction cs with
  | nil => rfl
  | cons c cs ih =>
    rw [rows_cons]
    split <;> simp_all

end LetIf.Text
