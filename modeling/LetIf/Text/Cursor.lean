import LetIf.Position

/-!
# Reading a text by byte offset

A cursor stands at an offset into the UTF-8 form of a source. It may be moved
by any number of bytes, so it can come to stand past the end or inside a
character; the views of such a cursor are undefined. Offsets are 64-bit words.
-/

namespace LetIf.Text

/-- The largest offset and the largest number of tokens that can be counted. -/
def maxWord : Nat := 0xffffffffffffffff

/-- The characters after the first `n` bytes of the UTF-8 form. There are none
to name past the end or inside a character. -/
def dropBytes? : List Char → Nat → Option (List Char)
  | cs, 0 => some cs
  | [], _ + 1 => none
  | c :: cs, n + 1 => if c.utf8Size ≤ n + 1 then dropBytes? cs (n + 1 - c.utf8Size) else none

def takeBytes? : List Char → Nat → Option (List Char)
  | _, 0 => some []
  | [], _ + 1 => none
  | c :: cs, n + 1 =>
    if c.utf8Size ≤ n + 1 then (takeBytes? cs (n + 1 - c.utf8Size)).map (c :: ·) else none

def byteSize : List Char → Nat
  | [] => 0
  | c :: cs => c.utf8Size + byteSize cs

theorem byteSize_cons_ne_zero (c : Char) (cs : List Char) : byteSize (c :: cs) ≠ 0 := by
  have := c.utf8Size_pos
  simp only [byteSize]
  omega

theorem dropBytes?_append (u v : List Char) : dropBytes? (u ++ v) (byteSize u) = some v := by
  induction u with
  | nil => cases v <;> rfl
  | cons c u ih =>
    obtain ⟨n, hn⟩ := Nat.exists_eq_succ_of_ne_zero (byteSize_cons_ne_zero c u)
    rw [hn, List.cons_append, dropBytes?, ← Nat.succ_eq_add_one, ← hn]
    simp [byteSize, ih]

theorem takeBytes?_append (u v : List Char) : takeBytes? (u ++ v) (byteSize u) = some u := by
  induction u with
  | nil => cases v <;> rfl
  | cons c u ih =>
    obtain ⟨n, hn⟩ := Nat.exists_eq_succ_of_ne_zero (byteSize_cons_ne_zero c u)
    rw [hn, List.cons_append, takeBytes?, ← Nat.succ_eq_add_one, ← hn]
    simp [byteSize, ih]

structure Cursor where
  source : List Char
  offset : Nat := 0
  row : Nat := 1
  /-- The offset at which the current row begins. -/
  rowStart : Nat := 0
  deriving DecidableEq, Repr

namespace Cursor

def start (source : List Char) : Cursor :=
  { source }

/-- Moves by `n` bytes. There is no cursor whose offset is not a word. -/
def advance? (c : Cursor) (n : Nat) : Option Cursor :=
  if c.offset + n ≤ maxWord then some { c with offset := c.offset + n } else none

def rest? (c : Cursor) : Option (List Char) :=
  dropBytes? c.source c.offset

def position? (c : Cursor) : Option Position := do
  let row ← dropBytes? c.source c.rowStart
  let read ← takeBytes? row (c.offset - c.rowStart)
  return ⟨c.row, read.length + 1⟩

def atEnd (c : Cursor) : Bool :=
  byteSize c.source ≤ c.offset

end Cursor

structure View where
  position : Position
  rest : List Char
  atEnd : Bool
  deriving DecidableEq, Repr

def Cursor.view? (c : Cursor) : Option View := do
  let position ← c.position?
  let rest ← c.rest?
  return ⟨position, rest, c.atEnd⟩

end LetIf.Text
