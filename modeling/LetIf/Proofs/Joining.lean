import LetIf.Proofs.FirstRefusal
import LetIf.Proofs.RowByRow

/-!
# Reading joined texts

A line feed leaves nothing open. Up to it a text is read as if it ended there,
and below it reading starts anew, only that many rows further down
(`ofChars_append_newline`).
-/

namespace LetIf

open Lexeme (isWordChar)
open Text (dropReturn)

theorem Lexed.cut_eq {cs : List Char} {ls : List Lexeme} (h : Lexed cs ls) :
    Lexeme.cut cs = (ls, []) :=
  Lexeme.cut_eq_iff.2 ⟨h.settled, by simp [h.chars_eq], rfl⟩

theorem Lexed.ofChars_eq {cs : List Char} {ls : List Lexeme} (h : Lexed cs ls) :
    Scan.ofChars cs = ⟨Place.start.read ls, .complete (Place.start.through ls).position⟩ := by
  simp [Scan.ofChars, h.cut_eq, run_of_accepted h.accepted]

theorem tokens_run_of_refused {ns : List Lexeme} (h : ∀ l ∈ ns.head?, l.cause? ≠ none) (p : Place)
    (unread : List Char) : (Scan.run p unread ns).tokens = [] := by
  cases ns with
  | nil => cases unread <;> rfl
  | cons l ns =>
    obtain ⟨cause, hc⟩ := Option.ne_none_iff_exists'.1 (h l rfl)
    simp [Scan.run, hc]

theorem Stuck.ofChars_eq {cs rest : List Char} {ls : List Lexeme} {cause : Cause}
    (h : Stuck cs ls rest cause) :
    Scan.ofChars cs = ⟨Place.start.read ls, .stuck cause (Place.start.through ls).position⟩ := by
  obtain ⟨ns, unread, hcut, hns, hrun⟩ := h.exists_cut
  simp [Scan.ofChars, hcut, run_append h.accepted, tokens_run_of_refused hns, hrun]

theorem lexed_or_stuck (cs : List Char) :
    (∃ ls, Lexed cs ls) ∨ ∃ ls rest cause, Stuck cs ls rest cause := by
  cases h : tokenize (.ofList cs) with
  | ok tokens =>
    obtain ⟨ls, hl, -⟩ := tokenize_eq_ok_iff.1 h
    exact .inl ⟨ls, by simpa using hl⟩
  | error d =>
    obtain ⟨ls, rest, hstuck, -⟩ := exists_stuck h
    exact .inr ⟨ls, rest, d.cause, by simpa using hstuck⟩

theorem kind_ne_eof_of_mem_ofChars {cs : List Char} {t : Token}
    (h : t ∈ (Scan.ofChars cs).tokens) : t.kind ≠ .eof := by
  obtain ⟨ls, hl⟩ | ⟨ls, rest, cause, hstuck⟩ := lexed_or_stuck cs
  · rw [hl.ofChars_eq] at h
    exact kind_ne_eof_of_mem_read h
  · rw [hstuck.ofChars_eq] at h
    exact kind_ne_eof_of_mem_read h

theorem row_of_stuck {cs : List Char} {cause : Cause} {q : Position}
    (h : (Scan.ofChars cs).ending = .stuck cause q) : 1 ≤ q.row ∧ q.row ≤ cs.count '\n' + 1 := by
  obtain ⟨ls, hl⟩ | ⟨ls, rest, cause', hstuck⟩ := lexed_or_stuck cs
  · simp [hl.ofChars_eq] at h
  · rw [hstuck.ofChars_eq] at h
    cases h
    rw [position_through_start hstuck.settled.wellFormed, ← hstuck.chars_eq]
    simp only [Position.after, List.count_append]
    omega

-- ---------------------------------------------------------------------------
-- Moving down
-- ---------------------------------------------------------------------------

def Position.down (k : Nat) (p : Position) : Position := ⟨p.row + k, p.col⟩

def Token.down (k : Nat) (t : Token) : Token :=
  { t with span := ⟨t.span.start.down k, t.span.stop.down k⟩ }

theorem Token.down_eofAt (k : Nat) (p : Position) : (eofAt p).down k = eofAt (p.down k) := rfl

def Place.down (k : Nat) (p : Place) : Place := { p with position := p.position.down k }

def Ending.down (k : Nat) : Ending → Ending
  | .complete p => .complete (p.down k)
  | .stuck cause p => .stuck cause (p.down k)

def Scan.down (k : Nat) (s : Scan) : Scan := ⟨s.tokens.map (Token.down k), s.ending.down k⟩

section
variable (k : Nat) (p : Place)

theorem Place.after_down (l : Lexeme) : (p.down k).after l = (p.after l).down k := by
  cases l with
  | newline => simp [after, down, Position.down, Nat.add_right_comm]
  | _ => rfl

theorem Place.tokens_down (l : Lexeme) :
    (p.down k).tokens l = (p.tokens l).map (Token.down k) := by
  unfold tokens
  rw [after_down]
  cases l.terminal? with
  | none => rfl
  | some t =>
    cases hf : p.fresh <;>
      simp [down, hf, Token.down, Token.newlineAt, Position.down, Span.at]

theorem Place.read_down (ls : List Lexeme) :
    (p.down k).read ls = (p.read ls).map (Token.down k) := by
  induction ls generalizing p with
  | nil => rfl
  | cons l ls ih => rw [read, read, tokens_down, after_down, ih, List.map_append]

theorem Place.through_down (ls : List Lexeme) :
    (p.down k).through ls = (p.through ls).down k := by
  induction ls generalizing p with
  | nil => rfl
  | cons l ls ih =>
    have h := ih (p.after l)
    rwa [← after_down] at h

end

theorem Lexed.after_newline {u : List Char} {ms : List Lexeme} (h : Lexed u ms) :
    (Place.start.through ms).after .newline = Place.start.down (u.count '\n' + 1) := by
  have hrow : (Place.start.through ms).position.row = u.count '\n' + 1 := by
    rw [position_through_start h.settled.wellFormed, h.chars_eq]
    rfl
  rw [Place.after, hrow, Nat.add_comm]
  rfl

section
variable {u : List Char} {ms : List Lexeme} (h : Lexed u ms) (ns : List Lexeme)
include h

theorem Lexed.read_append_newline :
    Place.start.read (ms ++ .newline :: ns) =
      Place.start.read ms ++ (Place.start.read ns).map (Token.down (u.count '\n' + 1)) := by
  rw [Place.read_append, Place.read, h.after_newline, Place.read_down]
  rfl

theorem Lexed.position_append_newline :
    (Place.start.through (ms ++ .newline :: ns)).position =
      (Place.start.through ns).position.down (u.count '\n' + 1) := by
  have hthrough : Place.start.through (ms ++ .newline :: ns)
      = ((Place.start.through ms).after .newline).through ns := List.foldl_append ..
  rw [hthrough, h.after_newline, Place.through_down]
  rfl

end

-- ---------------------------------------------------------------------------
-- Going on after a text
-- ---------------------------------------------------------------------------

/-- What is refused stays refused when more text follows that neither lengthens
a digit run nor makes a comment of a slash. -/
theorem Unfit.append {rest x : List Char} {cause : Cause} (h : Unfit rest cause)
    (hx : ∀ c ∈ x.head?, ¬isWordChar c ∧ c ≠ '/') : Unfit (rest ++ x) cause := by
  cases h with
  | @character c rest hc =>
    obtain ⟨hw, hl, hs⟩ := Lexeme.read?_eq_none_iff.1 hc
    refine .character (Lexeme.read?_eq_none_iff.2 ⟨hw, hl, fun hslash => ?_⟩)
    cases rest with
    | nil => exact fun hhead => (hx _ hhead).2 rfl
    | cons d rest => exact hs hslash
  | @number text rest hd he hv =>
    rw [List.append_assoc]
    refine .number hd ?_ hv
    cases rest with
    | nil => exact fun c hc htakes => (hx c hc).1 (Lexeme.isWordChar_of_isDigit htakes)
    | cons d rest => exact he

theorem Stuck.append {cs rest x : List Char} {ls : List Lexeme} {cause : Cause}
    (h : Stuck cs ls rest cause) (hx : ∀ c ∈ x.head?, ¬isWordChar c ∧ c ≠ '/') :
    Stuck (cs ++ x) ls (rest ++ x) cause where
  settled := by
    obtain ⟨c, ds, rfl, -⟩ := h.unfit.exists_cons
    exact (Lexeme.settled_congr (by rfl) ls).1 h.settled
  chars_eq := by rw [← List.append_assoc, h.chars_eq]
  accepted := h.accepted
  unfit := h.unfit.append hx

theorem Stuck.append_newline {u : List Char} {ls : List Lexeme} {rest : List Char} {cause : Cause}
    (h : Stuck u ls rest cause) (v : List Char) :
    Stuck (u ++ '\n' :: v) ls (rest ++ '\n' :: v) cause := by
  refine h.append ?_
  rintro c ⟨⟩
  decide

theorem Stuck.below {u v rest : List Char} {ms ns : List Lexeme} {cause : Cause}
    (h : Stuck v ns rest cause) (hm : Lexed u ms) :
    Stuck (u ++ '\n' :: v) (ms ++ .newline :: ns) rest cause where
  settled := by
    refine settled_append.2 ⟨?_, trivial, fun _ _ => Bool.false_ne_true, h.settled⟩
    refine Lexeme.settled_iff.2 ⟨hm.settled, fun l _ => ?_⟩
    exact Lexeme.ends_append_newline (u := []).2 (by simp [Lexeme.Ends])
  chars_eq := by simp [hm.chars_eq, Lexeme.chars, h.chars_eq]
  accepted := by
    intro l hl
    rcases List.mem_append.1 hl with hl | hl
    · exact hm.accepted l hl
    · rcases List.mem_cons.1 hl with rfl | hl
      · rfl
      · exact h.accepted l hl
  unfit := h.unfit

def Scan.followedBy (s t : Scan) : Scan :=
  match s.ending with
  | .complete _ => ⟨s.tokens ++ t.tokens, t.ending⟩
  | .stuck .. => s

theorem ofChars_append_newline (u v : List Char) :
    Scan.ofChars (u ++ '\n' :: v) =
      (Scan.ofChars u).followedBy ((Scan.ofChars v).down (u.count '\n' + 1)) := by
  obtain ⟨ms, hm⟩ | ⟨ms, rest, cause, hm⟩ := lexed_or_stuck u
  · obtain ⟨ns, hn⟩ | ⟨ns, rest, cause, hn⟩ := lexed_or_stuck v
    · have h := lexed_append_newline.2 ⟨ms, ns, rfl, hm, hn⟩
      rw [h.ofChars_eq, hm.ofChars_eq, hn.ofChars_eq, hm.read_append_newline,
        hm.position_append_newline]
      rfl
    · rw [(hn.below hm).ofChars_eq, hm.ofChars_eq, hn.ofChars_eq, hm.read_append_newline,
        hm.position_append_newline]
      rfl
  · rw [(hm.append_newline v).ofChars_eq, hm.ofChars_eq]
    rfl

theorem lineAt_below (s₁ s₂ : String) {row : Nat} (h : 1 ≤ row) :
    Text.lineAt (s₁ ++ "\n" ++ s₂) (row + (s₁.toList.count '\n' + 1)) = Text.lineAt s₂ row := by
  simp only [Text.lineAt, String.toList_append, List.append_assoc]
  exact congrArg _ (Text.line_append_newline_below _ _ h)

theorem lineAt_above (s₁ s₂ : String) {row : Nat} (h : row ≤ s₁.toList.count '\n' + 1) :
    Text.lineAt (s₁ ++ "\n" ++ s₂) row =
      if row = s₁.toList.count '\n' + 1 then .ofList (dropReturn (Text.lineAt s₁ row).toList)
      else Text.lineAt s₁ row := by
  rw [toList_lineAt]
  simp only [Text.lineAt, String.toList_append, List.append_assoc]
  rw [← apply_ite]
  exact congrArg _ (Text.line_append_newline_above _ _ h)

/-- Two sources joined by a line feed have the tokens of the first without its
end, and below them those of the second. A refusal of the first is reported in
its place, and otherwise one of the second below. The line shown is the same,
only that a carriage return before the line feed is no part of it. -/
theorem tokenize_append_newline (s₁ s₂ : String) :
    tokenize (s₁ ++ "\n" ++ s₂) =
      match tokenize s₁, tokenize s₂ with
      | .ok ts, .ok us =>
        .ok (ts.filter (!·.isEof) ++ us.map (Token.down (s₁.toList.count '\n' + 1)))
      | .ok _, .error d =>
        .error ⟨d.cause, d.position.down (s₁.toList.count '\n' + 1), d.line⟩
      | .error d, _ =>
        .error ⟨d.cause, d.position,
          if d.position.row = s₁.toList.count '\n' + 1 then .ofList (dropReturn d.line.toList)
          else d.line⟩ := by
  have hscan : Scan.ofSource (s₁ ++ "\n" ++ s₂)
      = (Scan.ofSource s₁).followedBy ((Scan.ofSource s₂).down (s₁.toList.count '\n' + 1)) := by
    simp only [Scan.ofSource, String.toList_append, List.append_assoc]
    exact ofChars_append_newline s₁.toList s₂.toList
  rw [tokenize, tokenize, tokenize, hscan]
  cases h₁ : (Scan.ofSource s₁).ending with
  | complete q₁ =>
    cases h₂ : (Scan.ofSource s₂).ending with
    | complete q₂ =>
      have hfilter : (Scan.ofSource s₁).tokens.filter (!·.isEof) = (Scan.ofSource s₁).tokens := by
        refine List.filter_eq_self.2 fun t ht => ?_
        simpa [Token.isEof] using kind_ne_eof_of_mem_ofChars ht
      simp [Scan.result, Scan.followedBy, Scan.down, Ending.down, h₁, h₂, hfilter,
        Token.down_eofAt]
    | stuck cause q =>
      have hline := lineAt_below s₁ s₂ (row_of_stuck h₂).1
      simp [Scan.result, Scan.followedBy, Scan.down, Ending.down, h₁, h₂, Diagnostic.locate,
        Position.down, hline]
  | stuck cause q =>
    have hline := lineAt_above s₁ s₂ (row_of_stuck h₁).2
    simp [Scan.result, Scan.followedBy, h₁, Diagnostic.locate, hline]

end LetIf
