/-!
# Measured durations

A duration is shown in the largest unit of which it has at least one, with the
fraction written out as far as it is known.
-/

namespace LetIf.Duration

/-- The decimals of a fraction that has a number of places, without trailing
zeros. -/
def fraction (places n : Nat) : String :=
  let digits := Nat.toDigits 10 n
  let padded := List.replicate (places - digits.length) '0' ++ digits
  let kept := (padded.reverse.dropWhile (· = '0')).reverse
  if kept.isEmpty then "" else "." ++ .ofList kept

def inUnit (size places : Nat) (unit : String) (nanos : Nat) : String :=
  (nanos / size).repr ++ fraction places (nanos % size) ++ unit

def text (nanos : Nat) : String :=
  if nanos < 1000 then nanos.repr ++ "ns"
  else if nanos < 1000000 then inUnit 1000 3 "µs" nanos
  else if nanos < 1000000000 then inUnit 1000000 6 "ms" nanos
  else inUnit 1000000000 9 "s" nanos

end LetIf.Duration
