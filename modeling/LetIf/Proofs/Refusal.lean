import LetIf.Proofs.Scan

/-!
# Where a source is refused

A source without tokens is cut into accepted lexemes up to a place at which no
lexeme starts, or at which the digit run that starts denotes no integer of the
language. The diagnostic is about that place.
-/

namespace LetIf

open Lexeme (IsDigits Settled)

/-- No token is read at the front of the text, and why. -/
inductive Unfit : List Char → Cause → Prop
  | character {c : Char} {rest : List Char} :
      Lexeme.read? (c :: rest) = none → Unfit (c :: rest) (.unrecognisedToken (.singleton c))
  | number {text rest : List Char} :
      IsDigits text → (Lexeme.digits text).Ends rest →
      Numeral.largest < Nat.ofDigitChars 10 text 0 →
      Unfit (text ++ rest) (.numberOutOfRange (.ofList text))

structure Stuck (cs : List Char) (ls : List Lexeme) (rest : List Char) (cause : Cause) : Prop where
  settled : Settled rest ls
  chars_eq : ls.flatMap Lexeme.chars ++ rest = cs
  accepted : ∀ l ∈ ls, l.cause? = none
  unfit : Unfit rest cause

theorem settled_append {rest : List Char} {ms ns : List Lexeme} :
    Settled rest (ms ++ ns) ↔ Settled (ns.flatMap Lexeme.chars ++ rest) ms ∧ Settled rest ns := by
  induction ms with
  | nil => simp [Settled]
  | cons l ms ih => simp [Settled, ih, and_assoc]

theorem cause?_eq_some {l : Lexeme} {cause : Cause} (hl : l.WellFormed)
    (h : l.cause? = some cause) :
    ∃ text, l = .digits text ∧ Numeral.largest < Nat.ofDigitChars 10 text 0 ∧
      cause = .numberOutOfRange (.ofList text) := by
  cases l with
  | digits text =>
    have hd : IsDigits (String.ofList text).toList := by
      rw [String.toList_ofList]
      exact hl
    simp only [Lexeme.cause?, read?_of_isDigits hd, String.toList_ofList] at h
    by_cases hv : (Nat.ofDigitChars 10 text 0 : Int) ≤ Numeral.largest
    · simp [hv] at h
    · simp only [hv, if_false, Option.isSome_none, Bool.false_eq_true, Option.some.injEq] at h
      exact ⟨text, rfl, by omega, h.symm⟩
  | _ => cases h

theorem run_stuck {ls : List Lexeme} {p : Place} {unread : List Char} {cause : Cause}
    {q : Position} (h : (Scan.run p unread ls).ending = .stuck cause q) :
    ∃ ms ns, ls = ms ++ ns ∧ (∀ l ∈ ms, l.cause? = none) ∧ q = (p.through ms).position ∧
      ((ns = [] ∧ ∃ c rest, unread = c :: rest ∧ cause = .unrecognisedToken (.singleton c)) ∨
        ∃ l ks, ns = l :: ks ∧ l.cause? = some cause) := by
  induction ls generalizing p with
  | nil =>
    cases unread with
    | nil => cases h
    | cons c rest =>
      cases h
      exact ⟨[], [], rfl, by simp, rfl, .inl ⟨rfl, c, rest, rfl, rfl⟩⟩
  | cons l ls ih =>
    cases hc : l.cause? with
    | some cause' =>
      simp only [Scan.run, hc] at h
      cases h
      exact ⟨[], l :: ls, rfl, by simp, rfl, .inr ⟨l, ls, rfl, hc⟩⟩
    | none =>
      simp only [Scan.run, hc] at h
      obtain ⟨ms, ns, rfl, ha, hq, hns⟩ := ih h
      exact ⟨l :: ms, ns, rfl, List.forall_mem_cons.2 ⟨hc, ha⟩, hq, hns⟩

theorem exists_stuck {source : String} {d : Diagnostic} (h : tokenize source = .error d) :
    ∃ ls rest, Stuck source.toList ls rest d.cause ∧
      d = .locate source d.cause (Place.start.through ls).position := by
  unfold tokenize Scan.result Scan.ofSource Scan.ofChars at h
  cases hcut : Lexeme.cut source.toList with
  | mk ls unread =>
    obtain ⟨hs, htext, hnone⟩ := Lexeme.cut_eq_iff.1 hcut
    rw [hcut] at h
    split at h
    · cases h
    next cause q hq =>
      cases h
      obtain ⟨ms, ns, rfl, ha, rfl, hns⟩ := run_stuck hq
      obtain ⟨hms, hs⟩ := settled_append.1 hs
      rw [List.flatMap_append, List.append_assoc] at htext
      refine ⟨ms, _, ⟨hms, htext.symm, ha, ?_⟩, rfl⟩
      obtain ⟨rfl, c, rest, rfl, rfl⟩ | ⟨l, ks, rfl, hc⟩ := hns
      · exact .character hnone
      · obtain ⟨hl, he, -⟩ := hs
        obtain ⟨text, rfl, hv, rfl⟩ := cause?_eq_some hl hc
        rw [List.flatMap_cons, List.append_assoc]
        exact .number hl he hv

end LetIf
