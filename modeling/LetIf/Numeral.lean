/-!
# Integer numerals

Integers of the language are 64-bit two's complement. A numeral is an
optional sign and at least one decimal digit, with any number of leading
zeros, and it has a value only if that value fits. The canonical numeral of an
integer has no plus sign and no leading zero.
-/

namespace LetIf.Numeral

def largest : Int := 9223372036854775807

def smallest : Int := -9223372036854775808

def fit? (n : Int) : Option Int64 :=
  if smallest ≤ n ∧ n ≤ largest then some (.ofInt n) else none

def digits? (ds : List Char) : Option Nat :=
  if ds ≠ [] ∧ ds.all Char.isDigit then some (Nat.ofDigitChars 10 ds 0) else none

/-- The value of a numeral as an unbounded integer. -/
def value? : List Char → Option Int
  | '-' :: ds => (digits? ds).map fun n => -(n : Int)
  | '+' :: ds => (digits? ds).map fun n => (n : Int)
  | ds => (digits? ds).map fun n => (n : Int)

def read? (text : String) : Option Int64 :=
  (value? text.toList).bind fit?

def write (n : Int64) : String :=
  match n.toInt with
  | .ofNat m => m.repr
  | .negSucc m => "-" ++ (m + 1).repr

theorem digits?_toDigits (n : Nat) : digits? (Nat.toDigits 10 n) = some n := by
  have digit : ∀ c ∈ Nat.toDigits 10 n, c.isDigit :=
    fun c hc => Nat.isDigit_of_mem_toDigits (by decide) (by decide) hc
  simpa [digits?, Nat.toDigits_ne_nil, Nat.ofDigitChars_ten_toDigits] using digit

theorem value?_toDigits (n : Nat) : value? (Nat.toDigits 10 n) = some (n : Int) := by
  have digit : ∀ c ∈ Nat.toDigits 10 n, c.isDigit :=
    fun c hc => Nat.isDigit_of_mem_toDigits (by decide) (by decide) hc
  unfold value?
  split
  next h => exact absurd (digit '-' (by simp [h])) (by decide)
  next h => exact absurd (digit '+' (by simp [h])) (by decide)
  next => simp [digits?_toDigits]

theorem fit?_toInt (n : Int64) : fit? n.toInt = some n := by
  have low := n.le_toInt
  have high := n.toInt_lt
  unfold fit? smallest largest
  rw [if_pos (by omega), Int64.ofInt_toInt]

theorem read?_write (n : Int64) : read? (write n) = some n := by
  unfold write read?
  split
  next m h =>
    rw [Nat.toList_repr, value?_toDigits, Option.bind_some, ← Int.ofNat_eq_natCast, ← h,
      fit?_toInt]
  next m h =>
    have minus : value? ('-' :: Nat.toDigits 10 (m + 1)) = some (Int.negSucc m) := by
      simp [value?, digits?_toDigits, Int.negSucc_eq]
    rw [String.toList_append, Nat.toList_repr]
    rw [show "-".toList = ['-'] from rfl, List.singleton_append, minus]
    rw [Option.bind_some, ← h, fit?_toInt]
end LetIf.Numeral
