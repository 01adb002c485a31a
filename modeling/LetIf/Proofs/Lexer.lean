import LetIf.Lexer
import LetIf.Proofs.Places
import LetIf.Proofs.RowGroups
import LetIf.Proofs.Text.Cursor

/-!
# The loop of the scan

Every round of the loop reads what one pattern finds, which is one lexeme or a
run of blanks with perhaps a line feed. So the loop follows the scan by lexemes,
and no round is undefined.
-/

namespace LetIf

open Text (byteSize lastRow)
open Lexeme (Settled isBlank isWordStart isWordChar)

-- ---------------------------------------------------------------------------
-- What patterns find
-- ---------------------------------------------------------------------------

def Pattern.lexemes : Pattern → List Char → List Lexeme
  | .newline, text => text.dropLast.map .blank ++ [.newline]
  | .blanks, text => text.map .blank
  | .comment, text => [.comment (text.drop 2)]
  | .word, text => [.word text]
  | .digits, text => [.digits text]
  | .equals, _ => [.equals]

theorem settled_blanks {text : List Char} (h : ∀ c ∈ text, isBlank c) (rest : List Char) :
    Settled rest (text.map .blank) := by
  induction text with
  | nil => trivial
  | cons c text ih =>
    obtain ⟨hc, htext⟩ := List.forall_mem_cons.1 h
    exact ⟨hc, by simp [Lexeme.Ends, Lexeme.takes], ih htext⟩

theorem flatMap_blanks (text : List Char) :
    (text.map Lexeme.blank).flatMap Lexeme.chars = text := by
  induction text with
  | nil => rfl
  | cons c text ih => simpa [Lexeme.chars] using ih

theorem settled_newline {blanks : List Char} (h : ∀ c ∈ blanks, isBlank c) (rest : List Char) :
    Settled rest (blanks.map .blank ++ [.newline]) :=
  settled_append.2 ⟨settled_blanks h _, trivial, by simp [Lexeme.Ends, Lexeme.takes], trivial⟩

theorem Pattern.settled_lexemes {p : Pattern} {cs text : List Char} (h : p.find? cs = some text) :
    ∃ rest, cs = text ++ rest ∧ Settled rest (p.lexemes text) ∧
      (p.lexemes text).flatMap Lexeme.chars = text := by
  have taken : ∀ {is : Char → Bool} {ds : List Char}, ∀ c ∈ ds.takeWhile is, is c := fun c hc =>
    List.all_eq_true.1 List.all_takeWhile c hc
  cases p with
  | newline =>
    simp only [find?] at h
    split at h
    next rest =>
      cases h
      exact ⟨rest, rfl, settled_newline (by simp) rest, rfl⟩
    next rest =>
      cases h
      exact ⟨rest, rfl, settled_newline (by simp [isBlank]) rest, rfl⟩
    · cases h
  | blanks =>
    obtain ⟨c, ds, rfl, hc, rfl⟩ := leading_eq_some h
    refine ⟨ds.dropWhile isBlank, by simp, settled_blanks ?_ _, flatMap_blanks _⟩
    exact List.forall_mem_cons.2 ⟨hc, taken⟩
  | comment =>
    simp only [find?] at h
    split at h
    next ds =>
      cases h
      have hfeed : '\n' ∉ ds.takeWhile (· ≠ '\n') := fun hm => by simpa using taken _ hm
      exact ⟨ds.dropWhile (· ≠ '\n'), by simp, ⟨hfeed, Lexeme.ends_dropWhile ds, trivial⟩,
        by simp [lexemes, Lexeme.chars]⟩
    · cases h
  | word =>
    obtain ⟨c, ds, rfl, hc, rfl⟩ := leading_eq_some h
    exact ⟨ds.dropWhile isWordChar, by simp, ⟨⟨hc, taken⟩, Lexeme.ends_dropWhile ds, trivial⟩,
      by simp [lexemes, Lexeme.chars]⟩
  | digits =>
    obtain ⟨c, ds, rfl, hc, rfl⟩ := leading_eq_some h
    have hds : ∀ d ∈ c :: ds.takeWhile Char.isDigit, d.isDigit :=
      List.forall_mem_cons.2 ⟨hc, taken⟩
    exact ⟨ds.dropWhile Char.isDigit, by simp,
      ⟨⟨List.cons_ne_nil _ _, hds⟩, Lexeme.ends_dropWhile ds, trivial⟩,
      by simp [lexemes, Lexeme.chars]⟩
  | equals =>
    simp only [find?] at h
    split at h
    next rest =>
      cases h
      exact ⟨rest, rfl, ⟨trivial, by simp [Lexeme.Ends, Lexeme.takes], trivial⟩, rfl⟩
    · cases h

theorem Pattern.read?_eq_none {cs : List Char} (h : ∀ p : Pattern, p.find? cs = none) :
    Lexeme.read? cs = none := by
  refine Option.eq_none_iff_forall_ne_some.2 fun ⟨l, rest⟩ hr => ?_
  obtain ⟨hl, -, rfl⟩ := Lexeme.read?_eq_some_iff.1 hr
  cases l with
  | newline => simpa [find?, Lexeme.chars] using h .newline
  | blank c =>
    have hc : isBlank c = true := hl
    simpa [find?, leading, Lexeme.chars, hc] using h .blanks
  | comment text => simpa [find?, Lexeme.chars] using h .comment
  | word text =>
    cases text with
    | nil => exact hl
    | cons c text => simpa [find?, leading, Lexeme.chars, hl.1] using h .word
  | digits text =>
    obtain ⟨c, ds, rfl⟩ := List.exists_cons_of_ne_nil hl.1
    simpa [find?, leading, Lexeme.chars, hl.2 c List.mem_cons_self] using h .digits
  | equals => simpa [find?, Lexeme.chars] using h .equals

theorem Pattern.newline_lexemes (p : Pattern) (text : List Char) :
    .newline ∉ p.lexemes text ∨
      ∃ blanks : List Char, p.lexemes text = blanks.map .blank ++ [.newline] := by
  cases p with
  | newline => exact .inr ⟨_, rfl⟩
  | blanks | comment | word | digits | equals => simp [lexemes]

theorem cut_append_of_settled {ms : List Lexeme} {text rest : List Char} (h : Settled rest ms)
    (hchars : ms.flatMap Lexeme.chars = text) :
    Lexeme.cut (text ++ rest) = (ms ++ (Lexeme.cut rest).1, (Lexeme.cut rest).2) := by
  obtain ⟨hs, hrest, hnone⟩ := Lexeme.cut_eq_iff.1 (rfl : Lexeme.cut rest = (_, _))
  refine Lexeme.cut_eq_iff.2 ⟨settled_append.2 ⟨hrest ▸ h, hs⟩, ?_, hnone⟩
  rw [List.flatMap_append, hchars, List.append_assoc, ← hrest]

-- ---------------------------------------------------------------------------
-- Rounds
-- ---------------------------------------------------------------------------

theorem not_mem_flatMap_chars {ms : List Lexeme} (hms : ∀ l ∈ ms, l.WellFormed)
    (h : .newline ∉ ms) : '\n' ∉ ms.flatMap Lexeme.chars := by
  rw [List.mem_flatMap]
  rintro ⟨l, hl, hm⟩
  exact l.not_mem_chars (hms l hl) (fun hn => h (hn ▸ hl)) hm

/-- Between two line feeds, a row is fresh as long as nothing is pushed. -/
theorem Place.fresh_through {ms : List Lexeme} (p : Place) (h : .newline ∉ ms) :
    (p.through ms).fresh = (p.fresh && (p.read ms).isEmpty) := by
  induction ms generalizing p with
  | nil => simp [through, read]
  | cons l ms ih =>
    rw [List.mem_cons, not_or] at h
    have hthrough : (p.through (l :: ms)).fresh = ((p.after l).through ms).fresh := rfl
    rw [hthrough, ih _ h.2, fresh_after, read]
    cases hl : l.terminal? with
    | none => simp [Ne.symm h.1, tokens, hl]
    | some t => cases hf : p.fresh <;> simp [tokens, hl, hf]

theorem Lexeme.cause?_of_terminal? {l : Lexeme} (h : l.terminal? = none) : l.cause? = none := by
  cases l with
  | newline | blank | comment | word | equals => rfl
  | digits => cases h

namespace Lexer

/-- The lexer has read `u` and has `v` left. Reading by lexemes has come to the
place `p` and to the tokens `ts`. -/
structure Follows (s : Lexer) (u v : List Char) (p : Place) (ts : List Token) : Prop
    extends s.toCursor.Between u v where
  fresh_eq : s.fresh = p.fresh
  tokens_eq : s.tokens = ts
  position_eq : p.position = .after u

/-- The round reads lexemes of which none is refused, and the loop goes on after
them. -/
def Reads (round : Option Round) (u v : List Char) (p : Place) (ts : List Token)
    (ms : List Lexeme) : Prop :=
  (∀ l ∈ ms, l.cause? = none) ∧
    ∃ next, round = some (.goesOn next) ∧ next.Follows u v (p.through ms) (ts ++ p.read ms)

theorem follows_start (source : String) : (start source).Follows [] source.toList .start [] :=
  ⟨Text.Cursor.between_start _, rfl, rfl, rfl⟩

section
variable {s : Lexer} {u v text : List Char} {p : Place} {ts : List Token}

theorem Follows.position?_eq (h : s.Follows u v p ts) : s.position? = some p.position := by
  rw [h.toBetween.position?_eq, h.position_eq]

theorem Follows.refuse?_eq (h : s.Follows u v p ts) (cause : Cause) :
    s.refuse? cause = some (.ends (.stuck cause p.position)) := by
  simp [Lexer.refuse?, h.position?_eq]

theorem Follows.spell?_reads {l : Lexeme} {t : Terminal} (h : s.Follows u (l.chars ++ v) p ts)
    (hl : l.Spells t) : Reads (s.spell? t) (u ++ l.chars) v p ts [l] := by
  have hfeed : '\n' ∉ l.chars := l.not_mem_chars hl.wellFormed fun hn => by
    simpa [hn, Lexeme.terminal?] using hl.terminal?_eq
  have hmoved : (s.advance (byteSize l.chars)).toCursor.Between (u ++ l.chars) v :=
    h.toBetween.advance hfeed
  have hposition := position_after h.position_eq hl.wellFormed
  have hrow : s.row = p.position.row := by
    rw [h.row_eq, h.position_eq]
    rfl
  have hread : p.read [l] = p.tokens l := List.append_nil _
  refine ⟨by simp [hl.cause?_eq],
    (s.advance (byteSize l.chars)).push ⟨t, p.position, (p.after l).position⟩, ?_, ?_⟩
  · simp [Lexer.spell?, h.position?_eq, ← hl.chars_eq, hmoved.position?_eq, hposition]
  · refine ⟨⟨hmoved.1, hmoved.2, hmoved.3, hmoved.4⟩, ?_, ?_, hposition⟩
    · simp [Place.through, fresh_after, hl.terminal?_eq, push]
    · simp [hread, push, advance, Place.tokens, hl.terminal?_eq, h.fresh_eq, h.tokens_eq, hrow]

/-- Layout leaves no tokens, so that the lexer only has to come to its end. -/
theorem Follows.reads_layout {next : Lexer} {ms : List Lexeme}
    (h : s.Follows u (text ++ v) p ts) (hs : Settled v ms)
    (hchars : ms.flatMap Lexeme.chars = text) (hms : ∀ l ∈ ms, l.terminal? = none)
    (hnext : next.toCursor.Between (u ++ text) v) (hfresh : next.fresh = (p.through ms).fresh)
    (htokens : next.tokens = s.tokens) :
    Reads (some (.goesOn next)) (u ++ text) v p ts ms := by
  have hread : p.read ms = [] := p.read_blank (List.filterMap_eq_nil_iff.2 hms)
  have hposition := position_through h.position_eq hs.wellFormed
  rw [hchars] at hposition
  refine ⟨fun l hl => Lexeme.cause?_of_terminal? (hms l hl), next, rfl, hnext, hfresh, ?_,
    hposition⟩
  rw [hread, List.append_nil, htokens, h.tokens_eq]

theorem Follows.advance_reads {ms : List Lexeme} (h : s.Follows u (text ++ v) p ts)
    (hs : Settled v ms) (hchars : ms.flatMap Lexeme.chars = text)
    (hms : ∀ l ∈ ms, l.terminal? = none) (hn : .newline ∉ ms) :
    Reads (some (.goesOn (s.advance (byteSize text)))) (u ++ text) v p ts ms := by
  have hfeed : '\n' ∉ text := hchars ▸ not_mem_flatMap_chars hs.wellFormed hn
  have hread : p.read ms = [] := p.read_blank (List.filterMap_eq_nil_iff.2 hms)
  refine h.reads_layout hs hchars hms (h.toBetween.advance hfeed) ?_ rfl
  rw [p.fresh_through hn, hread]
  simpa [Lexer.advance] using h.fresh_eq

theorem Follows.nextRow_reads {blanks : List Char} (h : s.Follows u (text ++ v) p ts)
    (hs : Settled v (blanks.map .blank ++ [.newline])) (hchars : blanks ++ ['\n'] = text) :
    Reads (some (.goesOn (s.advance (byteSize text)).nextRow)) (u ++ text) v p ts
      (blanks.map .blank ++ [.newline]) := by
  have hfeed : '\n' ∉ blanks := fun hm => by
    have hblank := hs.wellFormed (.blank '\n') (List.mem_append_left _ (List.mem_map_of_mem hm))
    simp [Lexeme.WellFormed, isBlank] at hblank
  have hms : ∀ l ∈ blanks.map Lexeme.blank ++ [.newline], l.terminal? = none := by
    intro l hl
    rcases List.mem_append.1 hl with hl | hl
    · obtain ⟨c, -, rfl⟩ := List.mem_map.1 hl
      rfl
    · rw [List.mem_singleton.1 hl]
      rfl
  refine h.reads_layout hs ?_ hms (h.toBetween.nextRow ⟨blanks, hfeed, hchars.symm⟩) ?_ rfl
  · rw [List.flatMap_append, flatMap_blanks]
    exact hchars
  · simp [Lexer.nextRow, Place.through, Place.after]

theorem Follows.handle?_cases {pat : Pattern} (h : s.Follows u (text ++ v) p ts)
    (hf : pat.find? (text ++ v) = some text) (hs : Settled v (pat.lexemes text))
    (hchars : (pat.lexemes text).flatMap Lexeme.chars = text) :
    (∃ l cause, pat.lexemes text = [l] ∧ l.cause? = some cause ∧
      s.handle? pat = some (.ends (.stuck cause p.position))) ∨
    Reads (s.handle? pat) (u ++ text) v p ts (pat.lexemes text) := by
  have hmatched := matched?_of_find? h.toBetween.rest?_eq hf
  cases pat with
  | newline =>
    have hfeed : text.dropLast ++ ['\n'] = text := by
      rwa [Pattern.lexemes, List.flatMap_append, flatMap_blanks] at hchars
    simp only [Lexer.handle?, hmatched, Option.bind_eq_bind, Option.bind_some]
    exact .inr (h.nextRow_reads hs hfeed)
  | blanks =>
    have hms : ∀ l ∈ text.map Lexeme.blank, l.terminal? = none := by
      intro l hl
      obtain ⟨c, -, rfl⟩ := List.mem_map.1 hl
      rfl
    simp only [Lexer.handle?, skip?, hmatched, Option.bind_eq_bind, Option.bind_some]
    exact .inr (h.advance_reads hs hchars hms (by simp [Pattern.lexemes]))
  | comment =>
    have hms : ∀ l ∈ [Lexeme.comment (text.drop 2)], l.terminal? = none := by
      simp [Lexeme.terminal?]
    simp only [Lexer.handle?, skip?, hmatched, Option.bind_eq_bind, Option.bind_some]
    exact .inr (h.advance_reads hs hchars hms (by simp [Pattern.lexemes]))
  | word =>
    simp only [Lexer.handle?, hmatched, Option.bind_eq_bind, Option.bind_some]
    exact .inr (h.spell?_reads (Lexeme.exists_spelled hs.1 rfl rfl).2)
  | digits =>
    simp only [Lexer.handle?, hmatched, Option.bind_eq_bind, Option.bind_some]
    split
    next hread =>
      have hc : (Lexeme.digits text).cause? = none := if_pos hread
      exact .inr (h.spell?_reads (Lexeme.exists_spelled hs.1 hc rfl).2)
    next hread => exact .inl ⟨_, _, rfl, if_neg hread, h.refuse?_eq _⟩
  | equals =>
    obtain rfl : ['='] = text := hchars
    exact .inr (h.spell?_reads (Lexeme.exists_spelled hs.1 rfl rfl).2)

/-- What a round does to a lexer that follows the scan. It ends the loop where the
scan ends, or it reads the lexemes that a pattern finds. -/
theorem Follows.round?_cases (h : s.Follows u v p ts) :
    (∃ ending, s.round? = some (.ends ending) ∧
      Scan.run p (Lexeme.cut v).2 (Lexeme.cut v).1 = ⟨[], ending⟩) ∨
    ∃ pat text rest, v = text ++ rest ∧ Settled rest (Pattern.lexemes pat text) ∧
      (pat.lexemes text).flatMap Lexeme.chars = text ∧
      Reads s.round? (u ++ text) rest p ts (pat.lexemes text) := by
  cases v with
  | nil =>
    have hend : s.atEnd = true := h.toBetween.atEnd_iff.2 rfl
    refine .inl ⟨.complete p.position, by simp [Lexer.round?, hend, h.position?_eq], ?_⟩
    rw [Lexeme.cut_of_read?_eq_none rfl]
    rfl
  | cons c cs =>
    have hend : s.atEnd = false :=
      Bool.eq_false_iff.2 fun hend => List.cons_ne_nil c cs (h.toBetween.atEnd_iff.1 hend)
    simp only [Lexer.round?, hend, h.toBetween.rest?_eq, Option.bind_eq_bind, Option.bind_some]
    cases hfind : Pattern.all.find? fun p => (p.find? (c :: cs)).isSome with
    | none =>
      have hnone : ∀ pat : Pattern, pat.find? (c :: cs) = none := by
        intro pat
        simpa using List.find?_eq_none.1 hfind pat (by cases pat <;> simp [Pattern.all])
      refine .inl ⟨_, h.refuse?_eq _, ?_⟩
      rw [Lexeme.cut_of_read?_eq_none (Pattern.read?_eq_none hnone)]
      rfl
    | some pat =>
      have hsome : (pat.find? (c :: cs)).isSome := by simpa using List.find?_some hfind
      obtain ⟨text, htext⟩ := Option.isSome_iff_exists.1 hsome
      obtain ⟨rest, hrest, hs, hchars⟩ := pat.settled_lexemes htext
      rw [hrest] at h htext
      obtain ⟨l, cause, hl, hc, hround⟩ | hreads := h.handle?_cases htext hs hchars
      · refine .inl ⟨_, hround, ?_⟩
        rw [hrest, cut_append_of_settled hs hchars, hl]
        simp [Scan.run, hc]
      · exact .inr ⟨pat, text, rest, hrest, hs, hchars, hreads⟩

theorem Follows.run_eq (h : s.Follows u v p ts) :
    s.run = some ⟨ts ++ (Scan.run p (Lexeme.cut v).2 (Lexeme.cut v).1).tokens,
      (Scan.run p (Lexeme.cut v).2 (Lexeme.cut v).1).ending⟩ := by
  fun_induction Lexer.run s generalizing u v p ts with
  | case1 s hround =>
    obtain ⟨ending, he, -⟩ | ⟨pat, text, rest, -, -, -, -, next, hn, -⟩ := h.round?_cases
    · simp [he] at hround
    · simp [hn] at hround
  | case2 s ending hround =>
    obtain ⟨ending', he, hscan⟩ | ⟨pat, text, rest, -, -, -, -, next, hn, -⟩ := h.round?_cases
    · rw [hround] at he
      cases he
      simp [hscan, h.tokens_eq]
    · simp [hn] at hround
  | case3 s next hround ih =>
    obtain ⟨ending, he, -⟩ | ⟨pat, text, rest, rfl, hs, hchars, haccepted, next', hn, hnext⟩ :=
      h.round?_cases
    · simp [he] at hround
    · rw [hround] at hn
      cases hn
      rw [ih hnext, cut_append_of_settled hs hchars, run_append haccepted]
      simp

end

theorem run_start (source : String) : (start source).run = some (Scan.ofSource source) :=
  (follows_start source).run_eq

end Lexer

end LetIf
