/-!
# Bytes as text

Arguments of a command are byte strings. For display they are decoded as
UTF-8, and bytes that are not part of a character are replaced: each maximal
piece that starts a character without completing it becomes one U+FFFD, and
so does every byte that cannot start a character.
-/

namespace LetIf.Text

/-- A string of bytes, such as an argument or a path. -/
abbrev Bytes := List UInt8

def encode (s : String) : Bytes :=
  s.toUTF8.data.toList

/-- A character begun and not completed: the bits read, the continuation
bytes that follow the next one, and the bounds of the next one. -/
structure Pending where
  bits : Nat
  owed : Nat
  low : Nat
  high : Nat
  deriving DecidableEq, Repr

def replacement : Char := '\uFFFD'

/-- Reads the first byte of a character. The bounds on the byte after it
exclude overlong forms, surrogates and values above U+10FFFF. -/
def Pending.start (b : Nat) : List Char × Option Pending :=
  if b ≤ 0x7f then ([Char.ofNat b], none)
  else if 0xc2 ≤ b ∧ b ≤ 0xdf then ([], some ⟨b - 0xc0, 0, 0x80, 0xbf⟩)
  else if b = 0xe0 then ([], some ⟨0, 1, 0xa0, 0xbf⟩)
  else if b = 0xed then ([], some ⟨0xd, 1, 0x80, 0x9f⟩)
  else if 0xe1 ≤ b ∧ b ≤ 0xef then ([], some ⟨b - 0xe0, 1, 0x80, 0xbf⟩)
  else if b = 0xf0 then ([], some ⟨0, 2, 0x90, 0xbf⟩)
  else if 0xf1 ≤ b ∧ b ≤ 0xf3 then ([], some ⟨b - 0xf0, 2, 0x80, 0xbf⟩)
  else if b = 0xf4 then ([], some ⟨4, 2, 0x80, 0x8f⟩)
  else ([replacement], none)

/-- Reads one byte: the characters it completes and what it leaves begun. -/
def Pending.step (pending : Option Pending) (b : Nat) : List Char × Option Pending :=
  match pending with
  | none => start b
  | some p =>
    if p.low ≤ b ∧ b ≤ p.high then
      let bits := p.bits * 64 + (b - 0x80)
      match p.owed with
      | 0 => ([Char.ofNat bits], none)
      | owed + 1 => ([], some ⟨bits, owed, 0x80, 0xbf⟩)
    else
      let (cs, next) := start b
      (replacement :: cs, next)

def decodeFrom : Option Pending → Bytes → List Char
  | none, [] => []
  | some _, [] => [replacement]
  | pending, b :: bs =>
    let (cs, next) := Pending.step pending b.toNat
    cs ++ decodeFrom next bs

/-- The text of a byte string, with replacement characters for what is not
UTF-8. -/
def display (bytes : Bytes) : String :=
  .ofList (decodeFrom none bytes)

end LetIf.Text
