import LetIf.Proofs.Indifference
import LetIf.Proofs.Joining
import LetIf.Proofs.RowGroups
import Mathlib.Data.List.TakeWhile

/-!
# Line endings

What stands at the end of a row after its last token is blank: blanks and a
comment may be added there, and every token stays where it is. A carriage
return before a line feed is such a blank.
-/

namespace LetIf

open Lexeme (isBlank isWordChar)

theorem isBlankRow_of_blank {w : List Char} (h : ∀ c ∈ w, isBlank c) : IsBlankRow w :=
  .inl (List.dropWhile_eq_nil_iff.2 h)

theorem IsBlankRow.head_not_isWordChar {row : List Char} (h : IsBlankRow row) :
    ∀ c ∈ row.head?, ¬isWordChar c := by
  intro c hc hw
  obtain ⟨cs, rfl⟩ := List.head?_eq_some_iff.1 hc
  obtain ⟨hs, -, hb⟩ := Lexeme.not_layout_of_isWordChar hw
  exact not_isBlankRow_cons hb hs cs h

theorem lexed_comment {text : List Char} (h : '\n' ∉ text) :
    Lexed ('/' :: '/' :: text) [.comment text] :=
  lexed_cons.2 ⟨[], by simp [Lexeme.chars], h, by simp [Lexeme.Ends], rfl, .nil⟩

theorem exists_lexed_blankRow {row : List Char} (hn : '\n' ∉ row) (hb : IsBlankRow row) :
    ∃ ks, Lexed row ks ∧ ks.filterMap Lexeme.terminal? = [] := by
  induction row with
  | nil => exact ⟨[], .nil, rfl⟩
  | cons c cs ih =>
    by_cases hc : isBlank c
    · have hcs : '\n' ∉ cs := fun hm => hn (List.mem_cons_of_mem c hm)
      obtain ⟨ks, hk, hnil⟩ := ih hcs ((isBlankRow_cons hc cs).1 hb)
      have hblank : Lexed (c :: cs) (.blank c :: ks) :=
        lexed_cons.2 ⟨cs, rfl, hc, fun _ _ => Bool.false_ne_true, rfl, hk⟩
      exact ⟨_, hblank, hnil⟩
    · -- What follows the blanks is a comment, which goes on to the end.
      obtain ⟨text, htext⟩ : ['/', '/'] <+: c :: cs := by
        simpa [IsBlankRow, List.dropWhile_cons_of_neg hc] using hb
      rw [← htext] at hn ⊢
      exact ⟨_, lexed_comment fun hm => hn (List.mem_append_right _ hm), rfl⟩

/-- At the end of a text, what is blank adds no token and moves none. -/
theorem Lexed.exists_append_blankRow {u tail : List Char} {ls : List Lexeme} (h : Lexed u ls)
    (hn : '\n' ∉ tail) (hb : IsBlankRow tail) :
    ∃ ms, Lexed (u ++ tail) ms ∧ ∀ p : Place, p.read ms = p.read ls := by
  induction ls generalizing u with
  | nil =>
    obtain rfl := h.chars_eq
    obtain ⟨ks, hk, hnil⟩ := exists_lexed_blankRow hn hb
    exact ⟨ks, hk, fun p => p.read_blank hnil⟩
  | cons l ls ih =>
    obtain ⟨rest, rfl, hl, he, hc, hr⟩ := lexed_cons.1 h
    by_cases hopen : l.IsComment ∧ rest = []
    · -- An open comment takes in all of it.
      obtain ⟨⟨text, rfl⟩, rfl⟩ := hopen
      obtain rfl := hr.eq_nil
      have htext : '\n' ∉ text ++ tail := by
        rw [List.mem_append, not_or]
        exact ⟨hl, hn⟩
      refine ⟨[.comment (text ++ tail)], ?_, fun p => rfl⟩
      simpa [Lexeme.chars] using lexed_comment htext
    · obtain ⟨ms, hm, hread⟩ := ih hr
      have hends : l.Ends (rest ++ tail) := by
        cases rest with
        | nil =>
          intro c hhead htakes
          exact hb.head_not_isWordChar c hhead
            (Lexeme.isWordChar_of_takes (fun hcomment => hopen ⟨hcomment, rfl⟩) htakes)
        | cons d rest => exact he
      refine ⟨l :: ms, lexed_cons.2 ⟨_, List.append_assoc .., hl, hends, hc, hm⟩, fun p => ?_⟩
      rw [Place.read, Place.read, hread]

theorem ofChars_append_blanks {w : List Char} (hw : ∀ c ∈ w, isBlank c) (u : List Char) (t : Scan) :
    (Scan.ofChars (u ++ w)).followedBy t = (Scan.ofChars u).followedBy t := by
  obtain ⟨ls, hl⟩ | ⟨ls, rest, cause, hstuck⟩ := lexed_or_stuck u
  · have hn : '\n' ∉ w := fun hm => absurd (hw _ hm) (by decide)
    obtain ⟨ms, hm, hread⟩ := hl.exists_append_blankRow hn (isBlankRow_of_blank hw)
    rw [hm.ofChars_eq, hl.ofChars_eq, hread]
    rfl
  · have hx : ∀ c ∈ w.head?, ¬isWordChar c ∧ c ≠ '/' := by
      intro c hc
      rcases Lexeme.isBlank_iff.1 (hw c (List.mem_of_head? hc)) with rfl | rfl | rfl <;> decide
    rw [(hstuck.append hx).ofChars_eq, hstuck.ofChars_eq]

namespace Text

def crlf (cs : List Char) : List Char :=
  cs.flatMap fun c => if c = '\n' then ['\r', '\n'] else [c]

theorem crlf_of_not_mem {u : List Char} (h : '\n' ∉ u) : crlf u = u := by
  induction u with
  | nil => rfl
  | cons c u ih =>
    rw [List.mem_cons, not_or] at h
    rw [crlf, List.flatMap_cons, if_neg (Ne.symm h.1)]
    exact congrArg (c :: ·) (ih h.2)

theorem crlf_append_newline {u : List Char} (h : '\n' ∉ u) (v : List Char) :
    crlf (u ++ '\n' :: v) = (u ++ ['\r']) ++ '\n' :: crlf v := by
  have hu := crlf_of_not_mem h
  rw [crlf] at hu
  simp [crlf, hu]

theorem line_below_row {u : List Char} (h : '\n' ∉ u) (v : List Char) (n : Nat) :
    line (u ++ '\n' :: v) (n + 2) = line v (n + 1) := by
  have hline := line_append_newline_below u v (Nat.le_add_left 1 n)
  rwa [List.count_eq_zero_of_not_mem h] at hline

theorem line_crlf {cs : List Char} (h : '\r' ∉ cs) (row : Nat) :
    line (crlf cs) row = line cs row := by
  induction cs using rows_induction generalizing row with
  | row u hu => rw [crlf_of_not_mem hu]
  | cons u v hu ih =>
    rw [List.mem_append, List.mem_cons, not_or, not_or] at h
    obtain ⟨hru, -, hrv⟩ := h
    have hret : '\n' ∉ u ++ ['\r'] := by simp [hu]
    rw [crlf_append_newline hu]
    match row with
    | 0 => rfl
    | 1 =>
      rw [line_one_append_newline hret, line_one_append_newline hu, dropReturn_of_not_mem hru]
      simp [dropReturn]
    | n + 2 => rw [line_below_row hret, line_below_row hu, ih hrv]

end Text

theorem ofChars_crlf (cs : List Char) : Scan.ofChars (Text.crlf cs) = Scan.ofChars cs := by
  induction cs using Text.rows_induction with
  | row u hu => rw [Text.crlf_of_not_mem hu]
  | cons u v hu ih =>
    have hcount : (u ++ ['\r']).count '\n' = u.count '\n' := by simp
    rw [Text.crlf_append_newline hu, ofChars_append_newline, ofChars_append_newline, ih, hcount]
    exact ofChars_append_blanks (by simp [isBlank]) u _

section
variable {source source' : String} (h : Scan.ofSource source = Scan.ofSource source')
include h

theorem tokenize_congr :
    (∃ tokens, tokenize source = .ok tokens ∧ tokenize source' = .ok tokens) ∨
    ∃ cause p, tokenize source = .error (.locate source cause p) ∧
      tokenize source' = .error (.locate source' cause p) := by
  rw [tokenize, tokenize, ← h]
  cases hending : (Scan.ofSource source).ending with
  | complete p =>
    simp only [Scan.result, hending]
    exact .inl ⟨_, rfl, rfl⟩
  | stuck cause p =>
    simp only [Scan.result, hending]
    exact .inr ⟨cause, p, rfl, rfl⟩

theorem parseSource_congr (hline : ∀ row, Text.lineAt source row = Text.lineAt source' row) :
    parseSource source = parseSource source' := by
  have hlocate : ∀ cause p, Diagnostic.locate source cause p = .locate source' cause p := by
    intro cause p
    rw [Diagnostic.locate, hline, Diagnostic.locate]
  obtain ⟨tokens, ht, ht'⟩ | ⟨cause, p, ht, ht'⟩ := tokenize_congr h
  · have hterminals : (Stream.ofTokens tokens source).terminals
        = (Stream.ofTokens tokens source').terminals := by
      rw [Stream.terminals_ofTokens, Stream.terminals_ofTokens]
    rw [parseSource_of_tokenize ht, parseSource_of_tokenize ht']
    obtain ⟨p, hp, hp'⟩ | ⟨cause, i, t, t', hi, hi', hd, hd'⟩ := readLike_of_terminals_eq hterminals
    · rw [hp, hp']
    · -- The tokens are the same, so the diagnostics are about the same token.
      rw [Stream.ahead_ofTokens] at hi hi'
      obtain rfl : t = t' := Option.some.inj (hi.symm.trans hi')
      rw [hd, hd', Stream.source_ofTokens, Stream.source_ofTokens, hlocate]
  · rw [parseSource, ht, parseSource, ht', hlocate]

end

/-- A source has the same tokens with either line ending, or the same refusal in
the same place. Where it has no carriage return of its own, it is read with the
same result, the line that a diagnostic shows included. -/
theorem tokenize_crlf (source : String) :
    ((∃ tokens, tokenize source = .ok tokens ∧
        tokenize (.ofList (Text.crlf source.toList)) = .ok tokens) ∨
      ∃ d d', tokenize source = .error d ∧
        tokenize (.ofList (Text.crlf source.toList)) = .error d' ∧
        d.cause = d'.cause ∧ d.position = d'.position) ∧
    ('\r' ∉ source.toList →
      parseSource (.ofList (Text.crlf source.toList)) = parseSource source) := by
  have hscan : Scan.ofSource source = Scan.ofSource (.ofList (Text.crlf source.toList)) := by
    rw [Scan.ofSource, Scan.ofSource, String.toList_ofList, ofChars_crlf]
  constructor
  · obtain ⟨tokens, ht, ht'⟩ | ⟨cause, p, ht, ht'⟩ := tokenize_congr hscan
    · exact .inl ⟨tokens, ht, ht'⟩
    · exact .inr ⟨_, _, ht, ht', rfl, rfl⟩
  · intro hreturn
    refine (parseSource_congr hscan fun row => ?_).symm
    rw [Text.lineAt, Text.lineAt, String.toList_ofList, Text.line_crlf hreturn]

/-- A word, a blank and a comment before line feeds, and a name that is not due. -/
def plainRows : String := "let x =\n\t// y\n 1 z\n"

theorem parseSource_plainRows :
    ∃ d, parseSource plainRows = .error d ∧
      parseSource (.ofList (Text.crlf plainRows.toList)) = .error d := by
  obtain ⟨d, hd⟩ : ∃ d, parseSource plainRows = .error d := exists_eq_error (by decide +kernel)
  exact ⟨d, hd, ((tokenize_crlf plainRows).2 (by decide +kernel)).trans hd⟩

end LetIf
