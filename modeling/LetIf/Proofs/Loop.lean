import LetIf.Proofs.Lexer
import Mathlib.Logic.Relation

/-!
# The invariant of the loop

At the head of every round the lexer stands between two characters, counts its
row by the line feeds read, and knows where the row began and whether anything
was pushed since.
-/

namespace LetIf

open Text (byteSize lastRow)

namespace Lexer

def Next (s next : Lexer) : Prop := s.round? = some (.goesOn next)

instance (s next : Lexer) : Decidable (s.Next next) :=
  inferInstanceAs (Decidable (s.round? = some (.goesOn next)))

def Heads (source : String) (s : Lexer) : Prop := Relation.ReflTransGen Next (start source) s

structure Invariant (source : String) (s : Lexer) : Prop where
  rowStart_le : s.rowStart ≤ s.offset
  offset_le : s.offset ≤ source.utf8ByteSize
  rowStart_valid : String.Pos.Raw.IsValid source ⟨s.rowStart⟩
  offset_valid : String.Pos.Raw.IsValid source ⟨s.offset⟩
  /-- The row is counted by the line feeds of the text read, and it begins after
  the last of them. -/
  row : ∃ read rest, source.toList = read ++ rest ∧ s.offset = byteSize read ∧
    s.row = read.count '\n' + 1 ∧ s.rowStart + byteSize (lastRow read) = s.offset
  /-- The row is fresh if nothing was pushed since the loop was at its start. -/
  fresh : ∃ begun pushed, Heads source begun ∧ Relation.ReflTransGen Next begun s ∧
    begun.offset = s.rowStart ∧ s.tokens = begun.tokens ++ pushed ∧ (s.fresh ↔ pushed = [])

/-- A round stays on its row, where it may push tokens, or it begins a row. -/
theorem Follows.next {s next : Lexer} {u v : List Char} {p : Place} {ts : List Token}
    (h : s.Follows u v p ts) (hn : s.Next next) :
    (∃ text rest p', v = text ++ rest ∧ next.Follows (u ++ text) rest p' next.tokens) ∧
    ((next.rowStart = s.rowStart ∧ ∃ pushed, next.tokens = s.tokens ++ pushed ∧
        next.fresh = (s.fresh && pushed.isEmpty)) ∨
      (next.rowStart = next.offset ∧ next.fresh = true)) := by
  obtain ⟨ending, he, -⟩ | ⟨pat, text, rest, rfl, hs, hchars, -, next', hn', hnext⟩ :=
    h.round?_cases
  · simp [Next, he] at hn
  obtain rfl : next' = next := by
    rw [Next, hn'] at hn
    cases hn
    rfl
  have htokens := hnext.tokens_eq
  have hfresh := hnext.fresh_eq
  have hstart := hnext.rowStart_add
  refine ⟨⟨text, rest, _, rfl, htokens ▸ hnext⟩, ?_⟩
  rcases pat.newline_lexemes text with hnewline | ⟨blanks, hms⟩
  · have hfeed : '\n' ∉ text := hchars ▸ not_mem_flatMap_chars hs.wellFormed hnewline
    refine .inl ⟨?_, p.read (pat.lexemes text), ?_, ?_⟩
    · have hrow := h.rowStart_add
      rw [Text.lastRow_append u hfeed, Text.byteSize_append, Text.byteSize_append] at hstart
      omega
    · rw [htokens, h.tokens_eq]
    · rw [hfresh, p.fresh_through hnewline, h.fresh_eq]
  · have hlast : lastRow (u ++ text) = [] := by
      rw [← hchars, hms, List.flatMap_append, ← List.append_assoc]
      exact Text.lastRow_append_newline _ []
    refine .inr ⟨?_, ?_⟩
    · rw [hlast] at hstart
      rw [hnext.offset_eq, ← hstart]
      rfl
    · rw [hfresh, hms]
      simp [Place.through, Place.after]

theorem Heads.follows {source : String} {s : Lexer} (h : Heads source s) :
    ∃ u v p, source.toList = u ++ v ∧ s.Follows u v p s.tokens := by
  induction h with
  | refl => exact ⟨[], source.toList, .start, rfl, follows_start source⟩
  | tail _ hn ih =>
    obtain ⟨u, v, p, hsource, hs⟩ := ih
    obtain ⟨⟨text, rest, p', rfl, hnext⟩, -⟩ := hs.next hn
    exact ⟨u ++ text, rest, p', by rw [hsource, List.append_assoc], hnext⟩

theorem Heads.begun {source : String} {s : Lexer} (h : Heads source s) :
    ∃ begun pushed, Heads source begun ∧ Relation.ReflTransGen Next begun s ∧
      begun.offset = s.rowStart ∧ s.tokens = begun.tokens ++ pushed ∧ (s.fresh ↔ pushed = []) := by
  induction h with
  | refl => exact ⟨_, [], .refl, .refl, rfl, rfl, by simp [start]⟩
  | @tail s next hs hn ih =>
    obtain ⟨u, v, p, -, hfollows⟩ := Heads.follows hs
    obtain ⟨-, ⟨hrow, added, htokens, hfresh⟩ | ⟨hrow, hfresh⟩⟩ := hfollows.next hn
    · obtain ⟨begun, pushed, hbegun, hsteps, hoffset, hpushed, hiff⟩ := ih
      refine ⟨begun, pushed ++ added, hbegun, hsteps.tail hn, by rw [hoffset, hrow], ?_, ?_⟩
      · rw [htokens, hpushed, List.append_assoc]
      · rw [hfresh, Bool.and_eq_true, hiff, List.isEmpty_iff, List.append_eq_nil_iff]
    · exact ⟨next, [], hs.tail hn, .refl, hrow.symm, by simp, by simp [hfresh]⟩

theorem Heads.invariant {source : String} {s : Lexer} (h : Heads source s) :
    s.Invariant source := by
  obtain ⟨u, v, p, hsource, hs⟩ := h.follows
  obtain ⟨above, habove, hrow⟩ := hs.exists_above
  have hrowSource : source.toList = above ++ (lastRow u ++ v) := by
    rw [hsource, ← List.append_assoc, habove]
  have hsize : source.utf8ByteSize = byteSize u + byteSize v := by
    rw [← Text.byteSize_append, ← hsource, ← Text.utf8ByteSize_ofList, String.ofList_toList]
  have hstart := hs.rowStart_add
  have hoffset := hs.offset_eq
  exact {
    rowStart_le := by omega
    offset_le := by omega
    rowStart_valid := hrow ▸ Text.isValid_of_append hrowSource
    offset_valid := hoffset ▸ Text.isValid_of_append hsource
    row := ⟨u, v, hsource, hoffset, hs.row_eq, hstart.trans hoffset.symm⟩
    fresh := h.begun }

theorem Heads.round {source : String} {s : Lexer} (h : Heads source s) :
    ∃ round, s.round? = some round ∧ ∀ next, round = .goesOn next → s.offset < next.offset := by
  obtain ⟨u, v, p, -, hs⟩ := h.follows
  have hdefined : ∃ round, s.round? = some round := by
    obtain ⟨ending, he, -⟩ | ⟨pat, text, rest, -, -, -, -, next, hn, -⟩ := hs.round?_cases
    · exact ⟨_, he⟩
    · exact ⟨_, hn⟩
  obtain ⟨round, hround⟩ := hdefined
  refine ⟨round, hround, ?_⟩
  rintro next rfl
  exact (round?_goesOn hround).2.1

end Lexer

open Lexer (Heads)

/-- At the head of every round the invariant holds and what the lexer looks at is
defined, and a round that does not end the loop moves on. So the loop comes to an
end on every source, with the tokens of the source or the diagnostic for it. -/
theorem tokenize_loop_invariant (source : String) :
    (∀ s, Heads source s → s.Invariant source ∧ s.view?.isSome ∧
      ∃ round, s.round? = some round ∧ ∀ next, round = .goesOn next → s.offset < next.offset) ∧
    Lexer.tokenize? source = some (tokenize source) := by
  refine ⟨fun s hs => ⟨hs.invariant, ?_, hs.round⟩, ?_⟩
  · obtain ⟨u, v, p, -, hfollows⟩ := hs.follows
    simp [Text.Cursor.view?, hfollows.toBetween.position?_eq, hfollows.toBetween.rest?_eq]
  · simp [Lexer.tokenize?, Lexer.run_start, tokenize]

def wideComment : String := "//é∀\n\tx\r\n"

/-- The loop stands before the token, where the row is still fresh. -/
theorem tokenize_loop_invariant_wideComment :
    ∃ s next, Heads wideComment s ∧ s.offset = 9 ∧ s.rowStart = 8 ∧ s.fresh ∧
      s.Invariant wideComment ∧ s.round? = some (.goesOn next) ∧ next.fresh = false ∧
      s.offset < next.offset := by
  let commented := (Lexer.start wideComment).advance 7
  let begun := (commented.advance 1).nextRow
  let s := begun.advance 1
  let next := (s.advance 1).push ⟨⟨.name, "x"⟩, ⟨2, 2⟩, ⟨2, 3⟩⟩
  have hcomment : (Lexer.start wideComment).Next commented := by decide +kernel
  have hfeed : commented.Next begun := by decide +kernel
  have hblank : begun.Next s := by decide +kernel
  have htoken : s.Next next := by decide +kernel
  have hs : Heads wideComment s := .tail (.tail (.tail .refl hcomment) hfeed) hblank
  obtain ⟨hinvariant, -, round, hround, hmoves⟩ := (tokenize_loop_invariant wideComment).1 s hs
  have hnext : round = .goesOn next := Option.some.inj (hround.symm.trans htoken)
  exact ⟨s, next, hs, rfl, rfl, rfl, hinvariant, htoken, rfl, hmoves next hnext⟩

end LetIf
