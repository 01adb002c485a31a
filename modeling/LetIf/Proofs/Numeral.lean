import LetIf.Proofs.Scan
import Mathlib.Data.List.Induction
import Mathlib.Data.Nat.Digits.Defs

/-!
# What numerals denote

A numeral is a digit run, with a sign before it or not, and is read as an integer
of the language exactly if the decimal number it is written as is one
(`read?_eq_some_iff`).
-/

namespace LetIf.Numeral

open Lexeme (IsDigits)

/-- The number that digits stand for, in positional notation to the base ten. -/
def decimal (ds : List Char) : Nat :=
  Nat.ofDigits 10 (ds.reverse.map fun c => c.toNat - '0'.toNat)

theorem ofDigitChars_eq_decimal (ds : List Char) : Nat.ofDigitChars 10 ds 0 = decimal ds := by
  induction ds using List.reverseRecOn with
  | nil => rfl
  | append_singleton ds d ih =>
    have hlast : decimal (ds ++ [d]) = (d.toNat - '0'.toNat) + 10 * decimal ds := by
      rw [decimal, List.reverse_append, List.reverse_singleton, List.singleton_append,
        List.map_cons, Nat.ofDigits_cons]
      rfl
    rw [hlast, Nat.ofDigitChars_append, ih, Nat.ofDigitChars_cons, Nat.ofDigitChars_nil,
      Nat.add_comm]

inductive Denotes : List Char → Int → Prop
  | unsigned {ds : List Char} : IsDigits ds → Denotes ds (decimal ds)
  | positive {ds : List Char} : IsDigits ds → Denotes ('+' :: ds) (decimal ds)
  | negative {ds : List Char} : IsDigits ds → Denotes ('-' :: ds) (-decimal ds)

theorem digits?_eq_some_iff {ds : List Char} {m : Nat} :
    digits? ds = some m ↔ IsDigits ds ∧ decimal ds = m := by
  unfold digits?
  rw [ofDigitChars_eq_decimal]
  split <;> simp_all [IsDigits]

theorem value?_eq_some_iff {cs : List Char} {n : Int} : value? cs = some n ↔ Denotes cs n := by
  constructor
  · intro h
    unfold value? at h
    split at h
    all_goals
      simp only [Option.map_eq_some_iff, Option.bind_eq_bind, Option.bind_eq_some_iff,
        Option.pure_def, Option.some.injEq, digits?_eq_some_iff] at h
      obtain ⟨_, ⟨m, ⟨hd, rfl⟩, rfl⟩, rfl⟩ := h
    · exact .negative hd
    · exact .positive hd
    · exact .unsigned hd
  · intro h
    cases h with
    | unsigned hd => rw [value?_of_isDigits hd, ofDigitChars_eq_decimal]
    | positive hd => simp [value?, digits?_eq_some_iff.2 ⟨hd, rfl⟩]
    | negative hd => simp [value?, digits?_eq_some_iff.2 ⟨hd, rfl⟩]

theorem fit?_eq_some_iff {m : Int} {n : Int64} : fit? m = some n ↔ m = n.toInt := by
  constructor
  · intro h
    unfold fit? smallest largest at h
    split at h
    next hm =>
      cases h
      rw [Int64.toInt_ofInt_of_le (by omega) (by omega)]
    · cases h
  · rintro rfl
    exact fit?_toInt n

theorem read?_eq_some_iff {text : String} {n : Int64} :
    read? text = some n ↔ Denotes text.toList n.toInt := by
  simp only [read?, Option.bind_eq_some_iff, value?_eq_some_iff, fit?_eq_some_iff]
  constructor
  · rintro ⟨m, hm, rfl⟩
    exact hm
  · intro h
    exact ⟨_, h, rfl⟩

theorem exists_toInt_eq {m : Int} (hl : smallest ≤ m) (hu : m ≤ largest) :
    ∃ n : Int64, n.toInt = m := by
  unfold smallest largest at *
  exact ⟨.ofInt m, Int64.toInt_ofInt_of_le (by omega) (by omega)⟩

theorem read?_eq_none_iff {text : String} :
    read? text = none ↔ ¬∃ m, Denotes text.toList m ∧ smallest ≤ m ∧ m ≤ largest := by
  constructor
  · rintro h ⟨m, hm, hl, hu⟩
    obtain ⟨n, rfl⟩ := exists_toInt_eq hl hu
    rw [read?_eq_some_iff.2 hm] at h
    cases h
  · intro h
    refine Option.eq_none_iff_forall_not_mem.2 fun n hn => h ⟨n.toInt, read?_eq_some_iff.1 hn, ?_⟩
    have hl := n.le_toInt
    have hu := n.toInt_lt
    unfold smallest largest
    omega

/-- The digits of a number, with no zero in front unless it is the only one. -/
structure Canonical (cs : List Char) (n : Nat) : Prop where
  digits : IsDigits cs
  decimal_eq : decimal cs = n
  head_ne_zero : cs.head? = some '0' → cs = ['0']

theorem isDigits_toDigits (n : Nat) : IsDigits (Nat.toDigits 10 n) :=
  ⟨Nat.toDigits_ne_nil, fun _ hc => Nat.isDigit_of_mem_toDigits (by decide) (by decide) hc⟩

theorem decimal_toDigits (n : Nat) : decimal (Nat.toDigits 10 n) = n := by
  rw [← ofDigitChars_eq_decimal, Nat.ofDigitChars_ten_toDigits]

theorem toDigits_of_head? {n : Nat} (h : (Nat.toDigits 10 n).head? = some '0') :
    Nat.toDigits 10 n = ['0'] := by
  induction n using Nat.strongRecOn with
  | ind n ih =>
    rw [Nat.toDigits_eq_if (by decide)] at h ⊢
    split at h
    next hn =>
      rw [if_pos hn]
      simpa using h
    next hn =>
      -- The number without its last digit would be zero, and then it has one digit.
      rw [List.head?_append, Option.or_of_isSome (by simp [Nat.toDigits_ne_nil])] at h
      have hq := congrArg decimal (ih (n / 10) (by omega) h)
      rw [decimal_toDigits, show decimal ['0'] = 0 from rfl] at hq
      omega

theorem canonical_toDigits (n : Nat) : Canonical (Nat.toDigits 10 n) n :=
  ⟨isDigits_toDigits n, decimal_toDigits n, toDigits_of_head?⟩

theorem toList_write {n : Int64} {m : Nat} (h : n.toInt = m) :
    (write n).toList = Nat.toDigits 10 m := by
  unfold write
  rw [h]
  exact Nat.toList_repr

end LetIf.Numeral
