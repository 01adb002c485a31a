import LetIf.Proofs.Grammar.Vocabulary
import LetIf.Proofs.Parse
import LetIf.Proofs.Places
import LetIf.Proofs.Text.OneRow

/-!
# Diagnostics point at the text

A diagnostic of a source has a position of that source, and what it is about is
found there. Its report has three rows: the line, the caret below that position,
and the message.
-/

namespace LetIf

open Grammar
open Text (rows lastRow OneRow)

def Cause.OneRow : Cause → Prop
  | .numberOutOfRange text => Text.OneRow text
  | .unexpectedToken expected found => expected ∈ vocabulary ∧ Text.OneRow found
  | .unrecognisedExpression found => Text.OneRow found
  | .unrecognisedToken _ | .malformedNumber _ | .malformedBoolean _ => True

theorem oneRow_vocabulary : ∀ expected ∈ vocabulary, OneRow expected.describe := by
  decide +kernel

theorem Cause.OneRow.message {cause : Cause} (h : cause.OneRow) : Text.OneRow cause.message := by
  cases cause with
  | unrecognisedToken text => exact .append (by decide +kernel) (Text.oneRow_quote text)
  | numberOutOfRange text => exact .append (.append (by decide +kernel) h) (by decide +kernel)
  | unexpectedToken expected found =>
    have he := oneRow_vocabulary expected h.1
    exact .append (.append (.append (by decide +kernel) he) (by decide +kernel)) h.2
  | unrecognisedExpression found => exact .append (by decide +kernel) h
  | malformedNumber text | malformedBoolean text =>
    exact .append (.append (by decide +kernel) (Text.oneRow_quote text)) (by decide +kernel)

theorem oneRow_label (kind : Kind) : OneRow kind.label := by
  cases kind <;> decide +kernel

theorem Stands.oneRow_describe {cs : List Char} {t : Token} (h : Stands cs t) :
    OneRow t.describe := by
  cases h with
  | lineStart | ending => exact oneRow_label _
  | @spelled u v t _ hs =>
    have ht : OneRow t.text := fun hm => (hs.solid.2 _ hm).1 rfl
    unfold Terminal.describe
    split
    · exact oneRow_label _
    · exact oneRow_label _
    · exact .append (.append (.append (oneRow_label _) (by decide +kernel)) ht) (by decide +kernel)

-- ---------------------------------------------------------------------------
-- Positions of a source
-- ---------------------------------------------------------------------------

structure Position.Within (source : String) (p : Position) : Prop where
  one_le_row : 1 ≤ p.row
  row_le : p.row ≤ source.toList.count '\n' + 1
  one_le_col : 1 ≤ p.col
  col_le : p.col ≤ (Text.lineAt source p.row).length + 1

theorem length_lineAt (source : String) (row : Nat) :
    (Text.lineAt source row).length = (Text.line source.toList row).length := by
  rw [← String.length_toList, toList_lineAt]

theorem row_after_le {u v cs : List Char} (h : u ++ v = cs) :
    (Position.after u).row ≤ cs.count '\n' + 1 := by
  simp only [← h, Position.after, List.count_append]
  omega

theorem within_after {source : String} {u w v : List Char} (h : u ++ (w ++ v) = source.toList)
    (hw : Solid w) : (Position.after u).Within source where
  one_le_row := Nat.le_add_left 1 _
  row_le := row_after_le h
  one_le_col := Nat.le_add_left 1 _
  col_le := by
    have hle := (readsAt_lineAt h hw).col_le hw
    rw [String.length_toList] at hle
    omega

theorem within_end (source : String) : (Position.after source.toList).Within source where
  one_le_row := Nat.le_add_left 1 _
  row_le := Nat.le_refl _
  one_le_col := Nat.le_add_left 1 _
  col_le := by
    rw [length_lineAt]
    simp [Position.after, Text.line_last]

theorem Stands.within {source : String} {t : Token} (h : Stands source.toList t) :
    t.span.start.Within source := by
  cases h with
  | lineStart hu =>
    exact ⟨Nat.le_add_left 1 _, row_after_le hu, Nat.le_refl 1, Nat.le_add_left 1 _⟩
  | spelled hu hs => exact within_after hu hs.solid
  | ending => exact within_end source

/-- The token is where it begins. A line start is at the first column, the end
is after the last row, and any other token is spelled on its line. -/
def Token.ShownIn (source : String) (t : Token) : Prop :=
  match t.kind with
  | .newline => t.span.start.col = 1
  | .eof => t.span.start = ⟨source.toList.count '\n' + 1, (lastRow source.toList).length + 1⟩
  | _ => ReadsAt (Text.lineAt source t.span.start.row).toList t.span.start.col t.text.toList

theorem Stands.shownIn {source : String} {t : Token} (h : Stands source.toList t) :
    t.ShownIn source := by
  cases h with
  | lineStart => rfl
  | ending => rfl
  | @spelled u v t hu hs =>
    have hr := readsAt_lineAt hu hs.solid
    cases hs <;> exact hr

-- ---------------------------------------------------------------------------
-- What a diagnostic is about
-- ---------------------------------------------------------------------------

/-- The character or the digit run that was refused, or the token at which the
tokens begin no program any more, is found at the position. -/
def Diagnostic.PointsAt (source : String) (d : Diagnostic) : Prop :=
  match d.cause with
  | .unrecognisedToken text =>
    d.line.toList[d.position.col - 1]?.map String.singleton = some text
  | .numberOutOfRange text => ReadsAt d.line.toList d.position.col text.toList
  | cause =>
    ∃ tokens i t, tokenize source = .ok tokens ∧ FirstImpossible tokens i t ∧
      Justified ((tokens.take i).map Token.toTerminal) t.toTerminal cause ∧
      d.position = t.span.start ∧ t.ShownIn source

theorem complete_of_tokenize {source : String} {tokens : List Token}
    (h : tokenize source = .ok tokens) : Stream.complete tokens = tokens := by
  obtain ⟨ls, -, rfl⟩ := tokenize_eq_ok_iff.1 h
  simp [Stream.complete]

theorem exists_firstImpossible {source : String} {tokens : List Token} {d : Diagnostic}
    (ht : tokenize source = .ok tokens)
    (h : (Stream.ofTokens tokens source).parse.result = .error d) :
    ∃ i t, FirstImpossible tokens i t ∧
      Justified ((tokens.take i).map Token.toTerminal) t.toTerminal d.cause ∧
      d = .locate source d.cause t.span.start ∧ Asked d.cause := by
  obtain ⟨f, hf, rfl⟩ := run_error h
  obtain ⟨before, tail, hs, hl, hm⟩ := whole_error hf
  have hblamed := getElem?_ahead_blamed hs hl
  have hfirst := hm.firstImpossible hs hblamed
  have htake := (take_ahead hs).1
  rw [Stream.ahead_ofTokens, complete_of_tokenize ht] at hfirst htake
  refine ⟨_, _, hfirst, ?_, ?_, asks_whole _ f hf⟩
  · rw [htake]
    exact hm.justified (ahead_cases hs hblamed)
  · simp [Stream.diagnosticAt, Diagnostic.locate]

structure Diagnostic.Fits (source : String) (d : Diagnostic) : Prop where
  within : d.position.Within source
  line_eq : d.line = Text.lineAt source d.position.row
  pointsAt : d.PointsAt source
  oneRow : d.cause.OneRow

theorem Unfit.fits {source : String} {u rest : List Char} {cause : Cause} (h : Unfit rest cause)
    (hu : u ++ rest = source.toList) : (Diagnostic.locate source cause (.after u)).Fits source := by
  cases h with
  | @character c rest hc =>
    have hw := solid_of_read?_eq_none hc
    refine ⟨within_after hu hw, rfl, ?_, trivial⟩
    obtain ⟨tail, htail⟩ := readsAt_lineAt hu hw
    have hget : (Text.lineAt source (Position.after u).row).toList[(Position.after u).col - 1]?
        = some c := by
      rw [← Nat.add_zero ((Position.after u).col - 1), ← List.getElem?_drop, ← htail]
      rfl
    simp [Diagnostic.PointsAt, Diagnostic.locate, hget]
  | @number text rest hd =>
    have hw := solid_of_isDigits hd
    refine ⟨within_after hu hw, rfl, ?_, ?_⟩
    · simpa [Diagnostic.PointsAt, Diagnostic.locate] using readsAt_lineAt hu hw
    · exact fun hm => (hw.2 _ (by simpa using hm)).1 rfl

theorem Grammar.Justified.oneRow {before : List Terminal} {t : Terminal} {cause : Cause}
    (h : Justified before t cause) (ha : Asked cause) (ht : OneRow t.describe) :
    cause.OneRow := by
  cases cause with
  | unexpectedToken expected found => exact ⟨ha, h.1 ▸ ht⟩
  | unrecognisedExpression found => exact h.1 ▸ ht
  | malformedNumber | malformedBoolean => trivial
  | unrecognisedToken | numberOutOfRange => exact h.elim

theorem parseSource_error_fits {source : String} {d : Diagnostic}
    (h : parseSource source = .error d) : d.Fits source := by
  unfold parseSource at h
  split at h
  next e ht =>
    cases h
    obtain ⟨ls, rest, hstuck, hd⟩ := exists_stuck ht
    rw [hd, position_through_start hstuck.settled.wellFormed]
    exact hstuck.unfit.fits hstuck.chars_eq
  next tokens ht =>
    obtain ⟨i, t, hfirst, hj, hd, ha⟩ := exists_firstImpossible ht h
    have hstands := stands_of_tokenize ht t (List.mem_of_getElem? hfirst.getElem?)
    have hpos : d.position = t.span.start := by rw [hd]; rfl
    refine ⟨hpos ▸ hstands.within, by rw [hd]; rfl, ?_, hj.oneRow ha hstands.oneRow_describe⟩
    unfold Diagnostic.PointsAt
    split
    next text hc => exact (hc ▸ hj : Justified _ _ (.unrecognisedToken text)).elim
    next text hc => exact (hc ▸ hj : Justified _ _ (.numberOutOfRange text)).elim
    next => exact ⟨tokens, i, t, ht, hfirst, hj, hpos, hstands.shownIn⟩

-- ---------------------------------------------------------------------------
-- The report
-- ---------------------------------------------------------------------------

/-- Blanks below the characters before the column, and tabs below tabs. -/
def Diagnostic.margin (d : Diagnostic) : List Char :=
  (d.line.toList.take (d.position.col - 1)).map fun c => if c = '\t' then '\t' else ' '

theorem Diagnostic.padding_eq_margin {d : Diagnostic} (h : d.position.col ≤ d.line.length + 1) :
    Diagnostic.padding d.line.toList d.position.col = d.margin := by
  have hz : d.position.col - 1 - d.line.toList.length = 0 := by
    rw [String.length_toList]
    omega
  simp [Diagnostic.padding, Diagnostic.margin, hz]

theorem Diagnostic.length_margin {d : Diagnostic} (h : d.position.col ≤ d.line.length + 1) :
    d.margin.length = d.position.col - 1 := by
  rw [Diagnostic.margin, List.length_map, List.length_take, String.length_toList]
  omega

theorem Diagnostic.not_mem_margin (d : Diagnostic) : '\n' ∉ d.margin := by
  intro hm
  obtain ⟨c, -, hc⟩ := List.mem_map.1 hm
  split at hc <;> simp at hc

def Diagnostic.verdict (d : Diagnostic) : String :=
  d.cause.message ++ " (@" ++ d.position.row.repr ++ ":" ++ d.position.col.repr ++ ")"

theorem Cause.OneRow.verdict {d : Diagnostic} (h : d.cause.OneRow) : Text.OneRow d.verdict := by
  have hrow : Text.OneRow (d.cause.message ++ " (@" ++ d.position.row.repr) :=
    (h.message.append (by decide +kernel)).append (Text.oneRow_repr _)
  exact ((hrow.append (by decide +kernel)).append (Text.oneRow_repr _)).append (by decide +kernel)

theorem Diagnostic.Fits.rows_render {source : String} {d : Diagnostic} (h : d.Fits source) :
    rows d.render.toList = [d.line.toList, d.margin ++ ['^'], d.verdict.toList] := by
  have hcol : d.position.col ≤ d.line.length + 1 := h.line_eq ▸ h.within.col_le
  have hline : '\n' ∉ d.line.toList := by
    rw [h.line_eq, toList_lineAt]
    exact Text.not_mem_line _ _
  have hcaret : '\n' ∉ d.margin ++ ['^'] := by simp [d.not_mem_margin]
  have hrender : d.render.toList
      = d.line.toList ++ '\n' :: ((d.margin ++ ['^']) ++ '\n' :: d.verdict.toList) := by
    simp [Diagnostic.render, Diagnostic.verdict, Position.text, Diagnostic.padding_eq_margin hcol]
  rw [hrender, Text.rows_append_newline, Text.rows_append_newline, Text.rows_of_not_mem hline,
    Text.rows_of_not_mem hcaret, Text.rows_of_not_mem h.oneRow.verdict]
  rfl

/-- A diagnostic of a source has a row of the source and shows the line of that
row, its column is one of that line or the one after, and what it is about is
found there. The report is the line, a caret below the column, and the message
with the position. -/
theorem parseSource_error_points_at_text {source : String} {d : Diagnostic}
    (h : parseSource source = .error d) :
    (1 ≤ d.position.row ∧ d.position.row ≤ source.toList.count '\n' + 1) ∧
    d.line = Text.lineAt source d.position.row ∧
    (1 ≤ d.position.col ∧ d.position.col ≤ d.line.length + 1) ∧
    d.PointsAt source ∧
    d.margin.length = d.position.col - 1 ∧
    d.render.toList.count '\n' = 2 ∧
    rows d.render.toList = [d.line.toList, d.margin ++ ['^'], d.verdict.toList] := by
  have hfits := parseSource_error_fits h
  have hcol : d.position.col ≤ d.line.length + 1 := hfits.line_eq ▸ hfits.within.col_le
  have hrows := hfits.rows_render
  refine ⟨⟨hfits.within.one_le_row, hfits.within.row_le⟩, hfits.line_eq,
    ⟨hfits.within.one_le_col, hcol⟩, hfits.pointsAt, Diagnostic.length_margin hcol, ?_, hrows⟩
  have hcount := Text.length_rows d.render.toList
  rw [hrows] at hcount
  exact (Nat.succ.inj hcount).symm

def strayNumber : String := "//∀\r\n\tlet x = y 1\r\n"

theorem parseSource_strayNumber :
    ∃ d, parseSource strayNumber = .error d ∧ d.PointsAt strayNumber ∧
      d.render.toList.count '\n' = 2 ∧
      rows d.render.toList = [d.line.toList, d.margin ++ ['^'], d.verdict.toList] := by
  obtain ⟨d, hd⟩ : ∃ d, parseSource strayNumber = .error d := exists_eq_error (by decide +kernel)
  obtain ⟨-, -, -, hpoints, -, hcount, hrows⟩ := parseSource_error_points_at_text hd
  exact ⟨d, hd, hpoints, hcount, hrows⟩

end LetIf
