import LetIf.Proofs.Places
import Mathlib.Data.List.Induction

/-!
# The first refusal of a source

A source has no tokens exactly if it has a break: a text with tokens up to a
place where no comment is open, and from there on a character that starts no
lexeme, or a digit run that is out of range and does not go on a word or
another digit run.
-/

namespace LetIf

open Lexeme (IsDigits Settled isWordChar)
open Text (lastRow)

/-- What follows the text `u` has no token at its front, and why. -/
inductive RefusedAt (u : List Char) : List Char → Cause → Prop
  | character {c : Char} {rest : List Char} :
      ¬isWordChar c → c ∉ ['=', ' ', '\t', '\r', '\n'] → (c = '/' → rest.head? ≠ some '/') →
      RefusedAt u (c :: rest) (.unrecognisedToken (.singleton c))
  | number {text rest : List Char} :
      IsDigits text → (∀ c ∈ rest.head?, ¬c.isDigit) →
      Numeral.largest < Nat.ofDigitChars 10 text 0 → (∀ c ∈ u.getLast?, ¬isWordChar c) →
      RefusedAt u (text ++ rest) (.numberOutOfRange (.ofList text))

/-- The source is `u` and `v`, of which `u` has tokens and `v` does not go on. -/
structure Breaks (source u v : String) (cause : Cause) : Prop where
  source_eq : source = u ++ v
  tokens : ∃ tokens, tokenize u = .ok tokens
  uncommented : ¬['/', '/'] <:+: lastRow u.toList
  refused : RefusedAt u.toList v.toList cause

-- ---------------------------------------------------------------------------
-- The last lexeme of a text
-- ---------------------------------------------------------------------------

namespace Lexeme

theorem ends_congr {l : Lexeme} {u v : List Char} (h : u.head? = v.head?) :
    l.Ends u ↔ l.Ends v := by
  simp only [Ends, h]

theorem settled_congr {u v : List Char} (h : u.head? = v.head?) (ls : List Lexeme) :
    Settled u ls ↔ Settled v ls := by
  induction ls with
  | nil => simp [Settled]
  | cons l ls ih =>
    have hh : (ls.flatMap chars ++ u).head? = (ls.flatMap chars ++ v).head? := by
      simp [List.head?_append, h]
    simp only [Settled, ih, ends_congr hh]

theorem settled_concat {rest : List Char} {ls : List Lexeme} {l : Lexeme} :
    Settled rest (ls ++ [l]) ↔ Settled l.chars ls ∧ l.WellFormed ∧ l.Ends rest := by
  rw [settled_append]
  have hlast : Settled rest [l] ↔ l.WellFormed ∧ l.Ends rest := by simp [Settled]
  rw [hlast]
  refine and_congr_left fun hl => settled_congr ?_ ls
  obtain ⟨c, cs, hc⟩ := List.exists_cons_of_ne_nil hl.1.chars_ne_nil
  simp [hc]

theorem settled_iff {rest : List Char} {ls : List Lexeme} :
    Settled rest ls ↔ Settled [] ls ∧ ∀ l ∈ ls.getLast?, l.Ends rest := by
  induction ls using List.reverseRecOn with
  | nil => simp [Settled]
  | append_singleton ls l =>
    have he : l.Ends [] := by simp [Ends]
    simp [settled_concat, he, and_assoc]

theorem slash_not_mem_chars {l : Lexeme} (hl : l.WellFormed) (hc : ¬l.IsComment) :
    '/' ∉ l.chars := by
  cases l with
  | newline | equals => decide
  | blank c => rcases isBlank_iff.1 hl with rfl | rfl | rfl <;> decide
  | comment text => exact absurd ⟨text, rfl⟩ hc
  | word text => exact fun hm => (not_layout_of_isWordChar (IsWord.isWordChar hl _ hm)).1 rfl
  | digits text => exact fun hm => (not_layout_of_isWordChar (IsDigits.isWordChar hl _ hm)).1 rfl

theorem IsComment.not_ends {l : Lexeme} {c : Char} {rest : List Char} (h : l.IsComment)
    (hc : c ≠ '\n') : ¬l.Ends (c :: rest) := by
  obtain ⟨text, rfl⟩ := h
  simp [Ends, takes, hc]

/-- No lexeme but a comment has a slash, and a comment that is not the last
lexeme has a line feed after it. -/
theorem slash_not_mem_lastRow {ls : List Lexeme} (h : Settled [] ls)
    (hlast : ∀ l ∈ ls.getLast?, ¬l.IsComment) : '/' ∉ lastRow (ls.flatMap chars) := by
  induction ls using List.reverseRecOn with
  | nil => simp [Text.lastRow_of_not_mem]
  | append_singleton ls l ih =>
    obtain ⟨hs, hl, -⟩ := settled_concat.1 h
    rw [List.flatMap_append, List.flatMap_singleton]
    by_cases hn : l = .newline
    · subst hn
      rw [chars, Text.lastRow_append_newline, Text.lastRow_of_not_mem] <;> simp
    · have hfeed := not_mem_chars hl hn
      have hbefore : ∀ m ∈ ls.getLast?, ¬m.IsComment := by
        intro m hm hcomment
        obtain ⟨c, cs, hc⟩ := List.exists_cons_of_ne_nil hl.chars_ne_nil
        rw [hc] at hs hfeed
        exact hcomment.not_ends (fun hcn => hfeed (by simp [hcn])) ((settled_iff.1 hs).2 m hm)
      have hslash := slash_not_mem_chars hl (hlast l (by simp))
      rw [Text.lastRow_append _ hfeed, List.mem_append, not_or]
      exact ⟨ih (settled_iff.1 hs).1 hbefore, hslash⟩

theorem slashes_lastRow_iff {ls : List Lexeme} (h : Settled [] ls) :
    ['/', '/'] <:+: lastRow (ls.flatMap chars) ↔ ∃ l ∈ ls.getLast?, l.IsComment := by
  constructor
  · intro hslashes
    by_contra hlast
    refine slash_not_mem_lastRow h (fun l hl hc => hlast ⟨l, hl, hc⟩) ?_
    exact hslashes.subset List.mem_cons_self
  · rintro ⟨_, hl, text, rfl⟩
    obtain ⟨ls, rfl⟩ := List.getLast?_eq_some_iff.1 hl
    have hn := not_mem_chars (settled_concat.1 h).2.1 (by simp)
    rw [List.flatMap_append, List.flatMap_singleton, Text.lastRow_append _ hn]
    exact ⟨_, text, List.append_assoc ..⟩

theorem isWordChar_iff {c : Char} : isWordChar c ↔ isWordStart c ∨ c.isDigit := by
  simp only [isWordChar, isWordStart, Char.isAlphanum, Bool.or_eq_true]
  exact or_right_comm

theorem read?_slash_eq_none_iff {rest : List Char} :
    read? ('/' :: rest) = none ↔ rest.head? ≠ some '/' := by
  cases rest with
  | nil => decide
  | cons d ds =>
    by_cases hd : d = '/'
    · simp [hd, read?]
    · rw [read?.eq_3 _ _ (by simpa using hd)]
      simp [hd, isBlank, isWordStart]

theorem read?_eq_none_iff {c : Char} {rest : List Char} :
    read? (c :: rest) = none ↔
      ¬isWordChar c ∧ c ∉ ['=', ' ', '\t', '\r', '\n'] ∧ (c = '/' → rest.head? ≠ some '/') := by
  by_cases hs : c = '/'
  · subst hs
    simp [read?_slash_eq_none_iff, isWordChar]
  · rw [read?_cons rest hs]
    grind [isWordChar_iff, isBlank_iff]

theorem takes_digit_iff {l : Lexeme} {c : Char} (hl : l.WellFormed) (hn : ¬l.IsComment)
    (hc : c.isDigit) : l.takes c ↔ ∃ d ∈ l.chars.getLast?, isWordChar d := by
  cases l with
  | newline | equals => simp [takes, chars, isWordChar]
  | blank b =>
    rcases isBlank_iff.1 hl with rfl | rfl | rfl <;> simp [takes, chars, isWordChar]
  | comment text => exact absurd ⟨text, rfl⟩ hn
  | word text =>
    refine iff_of_true (isWordChar_of_isDigit hc) ⟨text.getLast hl.chars_ne_nil, ?_⟩
    exact ⟨List.getLast?_eq_some_getLast _, IsWord.isWordChar hl _ (List.getLast_mem _)⟩
  | digits text =>
    refine iff_of_true hc ⟨text.getLast hl.chars_ne_nil, ?_⟩
    exact ⟨List.getLast?_eq_some_getLast _, IsDigits.isWordChar hl _ (List.getLast_mem _)⟩

end Lexeme

-- ---------------------------------------------------------------------------
-- Breaks and stuck lexemes
-- ---------------------------------------------------------------------------

theorem Unfit.exists_cons {rest : List Char} {cause : Cause} (h : Unfit rest cause) :
    ∃ c cs, rest = c :: cs ∧ c ≠ '\n' := by
  cases h with
  | @character c cs hc => exact ⟨c, cs, rfl, ((solid_of_read?_eq_none hc).2 c (by simp)).1⟩
  | @number text cs hd =>
    obtain ⟨c, ds, rfl⟩ := List.exists_cons_of_ne_nil hd.1
    exact ⟨c, ds ++ cs, rfl, ((solid_of_isDigits hd).2 c (by simp)).1⟩

section
variable {ls : List Lexeme} {rest : List Char} {cause : Cause}

theorem getLast?_flatMap_chars {l : Lexeme} (hl : l.WellFormed) (h : l ∈ ls.getLast?) :
    (ls.flatMap Lexeme.chars).getLast? = l.chars.getLast? := by
  obtain ⟨ms, rfl⟩ := List.getLast?_eq_some_iff.1 h
  rw [List.flatMap_append, List.flatMap_singleton, List.getLast?_append]
  rw [List.getLast?_eq_some_getLast hl.chars_ne_nil, Option.some_or]

theorem ends_digit_iff {c : Char} (h : Settled [] ls)
    (hlast : ∀ l ∈ ls.getLast?, ¬l.IsComment) (hc : c.isDigit) :
    (∀ l ∈ ls.getLast?, l.Ends (c :: rest)) ↔
      ∀ d ∈ (ls.flatMap Lexeme.chars).getLast?, ¬isWordChar d := by
  cases hl : ls.getLast? with
  | none => simp [List.getLast?_eq_none_iff.1 hl]
  | some l =>
    have hw : l.WellFormed := h.wellFormed l (List.mem_of_getLast? hl)
    have htakes := Lexeme.takes_digit_iff hw (hlast l hl) hc
    have hends : l.Ends (c :: rest) ↔ ¬l.takes c := by simp [Lexeme.Ends]
    rw [getLast?_flatMap_chars hw hl]
    simp only [Option.mem_def, Option.some.injEq, forall_eq', hends, htakes, not_exists, not_and]

/-- Where no comment is open, what is refused after a text is what is refused
at its front, unless the last lexeme of the text takes it in. -/
theorem refusedAt_iff (h : Settled [] ls) (hlast : ∀ l ∈ ls.getLast?, ¬l.IsComment) :
    RefusedAt (ls.flatMap Lexeme.chars) rest cause ↔
      Unfit rest cause ∧ ∀ l ∈ ls.getLast?, l.Ends rest := by
  have digit : ∀ {text : List Char}, IsDigits text → ∃ c cs, text = c :: cs ∧ c.isDigit := by
    intro text hd
    obtain ⟨c, cs, rfl⟩ := List.exists_cons_of_ne_nil hd.1
    exact ⟨c, cs, rfl, hd.2 c List.mem_cons_self⟩
  constructor
  · rintro (⟨hw, hc, hs⟩ | ⟨hd, he, hv, hu⟩)
    · refine ⟨.character (Lexeme.read?_eq_none_iff.2 ⟨hw, hc, hs⟩), ?_⟩
      rintro l hl c ⟨⟩ htakes
      exact hw (Lexeme.isWordChar_of_takes (hlast l hl) htakes)
    · refine ⟨.number hd he hv, ?_⟩
      obtain ⟨c, cs, rfl, hc⟩ := digit hd
      exact (ends_digit_iff h hlast hc).2 hu
  · rintro ⟨hunfit | ⟨hd, he, hv⟩, hends⟩
    · obtain ⟨hw, hc, hs⟩ := Lexeme.read?_eq_none_iff.1 hunfit
      exact .character hw hc hs
    · refine .number hd he hv ?_
      obtain ⟨c, cs, rfl, hc⟩ := digit hd
      exact (ends_digit_iff h hlast hc).1 hends

end

theorem Stuck.uncommented {cs rest : List Char} {ls : List Lexeme} {cause : Cause}
    (h : Stuck cs ls rest cause) : ∀ l ∈ ls.getLast?, ¬l.IsComment := by
  intro l hl hcomment
  obtain ⟨c, ds, rfl, hc⟩ := h.unfit.exists_cons
  exact hcomment.not_ends hc ((Lexeme.settled_iff.1 h.settled).2 l hl)

theorem breaks_iff_stuck {source u v : String} {cause : Cause} :
    Breaks source u v cause ↔
      ∃ ls, Stuck source.toList ls v.toList cause ∧ ls.flatMap Lexeme.chars = u.toList := by
  constructor
  · rintro ⟨rfl, ⟨tokens, ht⟩, hopen, hrefused⟩
    obtain ⟨ls, hl, -⟩ := tokenize_eq_ok_iff.1 ht
    rw [← hl.chars_eq] at hopen hrefused
    have hlast : ∀ l ∈ ls.getLast?, ¬l.IsComment := fun l hl' hc =>
      hopen ((Lexeme.slashes_lastRow_iff hl.settled).2 ⟨l, hl', hc⟩)
    obtain ⟨hunfit, hends⟩ := (refusedAt_iff hl.settled hlast).1 hrefused
    refine ⟨ls, ⟨Lexeme.settled_iff.2 ⟨hl.settled, hends⟩, ?_, hl.accepted, hunfit⟩, hl.chars_eq⟩
    rw [hl.chars_eq, String.toList_append]
  · rintro ⟨ls, h, hu⟩
    obtain ⟨hs, hends⟩ := Lexeme.settled_iff.1 h.settled
    have hlexed : Lexed u.toList ls := ⟨hs, hu, h.accepted⟩
    refine ⟨?_, ⟨_, tokenize_eq_ok_iff.2 ⟨ls, hlexed, rfl⟩⟩, ?_, ?_⟩
    · rw [← String.toList_inj, String.toList_append, ← hu, h.chars_eq]
    · rw [← hu, Lexeme.slashes_lastRow_iff hs]
      rintro ⟨l, hl, hc⟩
      exact h.uncommented l hl hc
    · rw [← hu]
      exact (refusedAt_iff hs h.uncommented).2 ⟨h.unfit, hends⟩

-- ---------------------------------------------------------------------------
-- Stuck lexemes and the scan
-- ---------------------------------------------------------------------------

theorem cause?_digits {text : List Char} (h : IsDigits text)
    (hv : Numeral.largest < Nat.ofDigitChars 10 text 0) :
    (Lexeme.digits text).cause? = some (.numberOutOfRange (.ofList text)) := by
  have hd : IsDigits (String.ofList text).toList := by rwa [String.toList_ofList]
  have hr : Numeral.read? (.ofList text) = none := by
    rw [read?_of_isDigits hd, String.toList_ofList, if_neg (by omega)]
  simp [Lexeme.cause?, hr]

/-- Cutting goes on after a digit run that is refused, so the lexemes before a
refusal are the first of those that are cut. -/
theorem Stuck.exists_cut {cs rest : List Char} {ls : List Lexeme} {cause : Cause}
    (h : Stuck cs ls rest cause) :
    ∃ ns unread, Lexeme.cut cs = (ls ++ ns, unread) ∧ (∀ l ∈ ns.head?, l.cause? ≠ none) ∧
      ∀ p, (Scan.run p unread ns).ending = .stuck cause p.position := by
  obtain ⟨hs, rfl, -, hunfit⟩ := h
  cases hunfit with
  | @character c rest hc =>
    exact ⟨[], c :: rest, by simpa using Lexeme.cut_eq_iff.2 ⟨hs, rfl, hc⟩, by simp, fun p => rfl⟩
  | @number text rest hd he hv =>
    cases hcut : Lexeme.cut rest with
    | mk ms unread =>
      obtain ⟨hms, hrest, hnone⟩ := Lexeme.cut_eq_iff.1 hcut
      have hchars : (Lexeme.digits text :: ms).flatMap Lexeme.chars ++ unread = text ++ rest := by
        rw [List.flatMap_cons, List.append_assoc, ← hrest, Lexeme.chars]
      have hsettled : Settled unread (.digits text :: ms) := ⟨hd, hrest ▸ he, hms⟩
      have hrefused := cause?_digits hd hv
      refine ⟨.digits text :: ms, unread, Lexeme.cut_eq_iff.2 ⟨?_, ?_, hnone⟩, ?_, fun p => ?_⟩
      · exact settled_append.2 ⟨hchars ▸ hs, hsettled⟩
      · rw [List.flatMap_append, List.append_assoc, hchars]
      · simp [hrefused]
      · simp [Scan.run, hrefused]

theorem Stuck.tokenize_eq {source : String} {rest : List Char} {ls : List Lexeme} {cause : Cause}
    (h : Stuck source.toList ls rest cause) :
    tokenize source = .error (.locate source cause (Place.start.through ls).position) := by
  obtain ⟨ns, unread, hcut, -, hrun⟩ := h.exists_cut
  have hending := hrun (Place.start.through ls)
  simp [tokenize, Scan.ofSource, Scan.ofChars, Scan.result, hcut, run_append h.accepted, hending]

theorem Stuck.lexemes_eq {cs rest rest' : List Char} {ls ls' : List Lexeme} {cause cause' : Cause}
    (h : Stuck cs ls rest cause) (h' : Stuck cs ls' rest' cause') : ls = ls' := by
  obtain ⟨ns, unread, hcut, hns, -⟩ := h.exists_cut
  obtain ⟨ns', unread', hcut', hns', -⟩ := h'.exists_cut
  obtain ⟨hls, -⟩ := Prod.mk.inj (hcut.symm.trans hcut')
  rcases List.append_eq_append_iff.1 hls with ⟨as, rfl, rfl⟩ | ⟨as, rfl, rfl⟩
  all_goals cases as with
  | nil => simp
  | cons l as => ?_
  · exact absurd (h'.accepted l (by simp)) (hns l rfl)
  · exact absurd (h.accepted l (by simp)) (hns' l rfl)

theorem Breaks.unique {source u v u' v' : String} {cause cause' : Cause}
    (h : Breaks source u v cause) (h' : Breaks source u' v' cause') : u = u' ∧ v = v' := by
  obtain ⟨ls, hstuck, hu⟩ := breaks_iff_stuck.1 h
  obtain ⟨ls', hstuck', hu'⟩ := breaks_iff_stuck.1 h'
  obtain rfl := hstuck.lexemes_eq hstuck'
  obtain rfl : u = u' := String.toList_inj.1 (hu.symm.trans hu')
  have happ := h.source_eq.symm.trans h'.source_eq
  exact ⟨rfl, by simpa using happ⟩

/-- A source has no tokens exactly if it breaks, it breaks in one place at most,
and the diagnostic names what follows the break. It stands where the tokens of
the text before the break end, and shows that row of the source. -/
theorem tokenize_eq_error_iff_breaks (source : String) :
    ((∃ d, tokenize source = .error d) ↔ ∃ u v cause, Breaks source u v cause) ∧
    (∀ u v u' v' cause cause', Breaks source u v cause → Breaks source u' v' cause' →
      u = u' ∧ v = v') ∧
    ∀ u v cause, Breaks source u v cause →
      ∃ tokens q, tokenize u = .ok (tokens ++ [.eofAt q]) ∧
        tokenize source = .error ⟨cause, q, Text.lineAt source q.row⟩ := by
  have refused : ∀ u v cause, Breaks source u v cause →
      ∃ tokens q, tokenize u = .ok (tokens ++ [.eofAt q]) ∧
        tokenize source = .error ⟨cause, q, Text.lineAt source q.row⟩ := by
    intro u v cause h
    obtain ⟨ls, hstuck, hu⟩ := breaks_iff_stuck.1 h
    have hsettled := (Lexeme.settled_iff.1 hstuck.settled).1
    have hlexed : Lexed u.toList ls := ⟨hsettled, hu, hstuck.accepted⟩
    exact ⟨_, _, tokenize_eq_ok_iff.2 ⟨ls, hlexed, rfl⟩, hstuck.tokenize_eq⟩
  refine ⟨⟨?_, ?_⟩, fun u v u' v' cause cause' => Breaks.unique, refused⟩
  · rintro ⟨d, hd⟩
    obtain ⟨ls, rest, hstuck, -⟩ := exists_stuck hd
    refine ⟨.ofList (ls.flatMap Lexeme.chars), .ofList rest, d.cause, ?_⟩
    exact breaks_iff_stuck.2 ⟨ls, by simpa using hstuck, by simp⟩
  · rintro ⟨u, v, cause, h⟩
    obtain ⟨tokens, q, -, hd⟩ := refused u v cause h
    exact ⟨_, hd⟩

/-- A number that is too large, below a comment that holds what would be refused
elsewhere. -/
def largeNumber : String := "x1//∀ 1/\nlet 09223372036854775808a"

theorem tokenize_largeNumber :
    Breaks largeNumber "x1//∀ 1/\nlet " "09223372036854775808a"
      (.numberOutOfRange "09223372036854775808") ∧
    ∃ tokens q, tokenize "x1//∀ 1/\nlet " = .ok (tokens ++ [.eofAt q]) ∧
      tokenize largeNumber =
        .error ⟨.numberOutOfRange "09223372036854775808", q, Text.lineAt largeNumber q.row⟩ := by
  have hdigits : IsDigits "09223372036854775808".toList :=
    ⟨by decide +kernel, List.all_eq_true.1 (by decide +kernel)⟩
  have hlast : ∀ c ∈ "x1//∀ 1/\nlet ".toList.getLast?, ¬isWordChar c := by
    intro c hc
    obtain rfl : ' ' = c := Option.some.inj (.trans (by decide +kernel) hc)
    decide
  have hrefused : RefusedAt "x1//∀ 1/\nlet ".toList ("09223372036854775808".toList ++ ['a'])
      (.numberOutOfRange (.ofList "09223372036854775808".toList)) :=
    .number hdigits (by simp) (by decide +kernel) hlast
  have hbreaks : Breaks largeNumber "x1//∀ 1/\nlet " "09223372036854775808a"
      (.numberOutOfRange "09223372036854775808") :=
    ⟨by decide +kernel, exists_eq_ok (by decide +kernel), by decide +kernel, hrefused⟩
  exact ⟨hbreaks, (tokenize_eq_error_iff_breaks largeNumber).2.2 _ _ _ hbreaks⟩

end LetIf
