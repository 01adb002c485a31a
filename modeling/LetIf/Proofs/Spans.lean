import LetIf.Proofs.Places

/-!
# Spans of tokens

The characters of a token are those of its line from its start to its stop, and
tokens come in reading order.
-/

namespace LetIf

open Text (lastRow)

namespace Position

/-- By row, and by column on the same row. -/
instance : LE Position := ⟨fun p q => p.row < q.row ∨ p.row = q.row ∧ p.col ≤ q.col⟩

theorem le_iff {p q : Position} : p ≤ q ↔ p.row < q.row ∨ p.row = q.row ∧ p.col ≤ q.col :=
  Iff.rfl

theorem le_refl (p : Position) : p ≤ p := .inr ⟨rfl, Nat.le_refl _⟩

theorem le_trans {p q r : Position} (hpq : p ≤ q) (hqr : q ≤ r) : p ≤ r := by
  rw [le_iff] at *
  omega

end Position

namespace Place

/-- Where the next token begins at the earliest. On a row without tokens that is
the first column, since the row has yet to be opened. -/
def floor (p : Place) : Position := if p.fresh then ⟨p.position.row, 1⟩ else p.position

theorem after_of_terminal? (p : Place) {l : Lexeme} {t : Terminal} (h : l.terminal? = some t) :
    p.after l = ⟨⟨p.position.row, p.position.col + l.chars.length⟩, false⟩ := by
  cases l with
  | newline | blank | comment => cases h
  | word | digits | equals => simp [after, Lexeme.terminal?]

section
variable {p : Place}

theorem one_le_col_after (h : 1 ≤ p.position.col) (l : Lexeme) :
    1 ≤ (p.after l).position.col := by
  cases l with
  | newline => exact Nat.le_refl 1
  | _ => exact Nat.le_add_right_of_le h

theorem floor_le_position (h : 1 ≤ p.position.col) : p.floor ≤ p.position := by
  unfold floor
  split
  · exact .inr ⟨rfl, h⟩
  · exact Position.le_refl _

theorem floor_le_after (h : 1 ≤ p.position.col) (l : Lexeme) : p.floor ≤ (p.after l).floor := by
  cases ht : l.terminal? with
  | some t =>
    refine Position.le_trans (floor_le_position h) ?_
    rw [after_of_terminal? p ht]
    exact .inr ⟨rfl, Nat.le_add_right _ _⟩
  | none =>
    cases l with
    | newline =>
      refine Position.le_trans (floor_le_position h) ?_
      exact .inl (Nat.lt_succ_self _)
    | blank | comment =>
      -- The row is opened or not, as before, and the column can only grow.
      simp only [floor, after, ht, Option.isNone_none, Bool.and_true, Position.le_iff]
      split <;> simp
    | word | digits | equals => cases ht

theorem tokens_between (h : 1 ≤ p.position.col) (l : Lexeme) :
    ∀ t ∈ p.tokens l, p.floor ≤ t.span.start ∧ t.span.stop ≤ (p.after l).floor := by
  intro t ht
  obtain ⟨w, hl, hcases⟩ := mem_tokens ht
  have hfloor : (p.after l).floor = (p.after l).position := by simp [floor, after_of_terminal? p hl]
  rw [hfloor]
  obtain ⟨hf, rfl⟩ | rfl := hcases
  · refine ⟨by simp [floor, hf, Token.newlineAt, Span.at, Position.le_refl], ?_⟩
    rw [after_of_terminal? p hl]
    exact .inr ⟨rfl, Nat.le_add_right_of_le h⟩
  · exact ⟨floor_le_position h, Position.le_refl _⟩

theorem tokens_ordered (h : 1 ≤ p.position.col) (l : Lexeme) :
    (p.tokens l).Pairwise fun t u => t.span.stop ≤ u.span.start := by
  unfold tokens
  split
  · exact .nil
  · simp only
    split
    · have hfirst : (⟨p.position.row, 1⟩ : Position) ≤ p.position := .inr ⟨rfl, h⟩
      simpa [Token.newlineAt, Span.at] using hfirst
    · exact List.pairwise_singleton _ _

theorem read_between (h : 1 ≤ p.position.col) (ls : List Lexeme) :
    p.floor ≤ (p.through ls).floor ∧
      ∀ t ∈ p.read ls, p.floor ≤ t.span.start ∧ t.span.stop ≤ (p.through ls).floor := by
  induction ls generalizing p with
  | nil => exact ⟨Position.le_refl _, by simp [read]⟩
  | cons l ls ih =>
    obtain ⟨hrest, hread⟩ := ih (one_le_col_after h l)
    have hl := floor_le_after h l
    refine ⟨Position.le_trans hl hrest, fun t ht => ?_⟩
    rcases List.mem_append.1 ht with ht | ht
    · obtain ⟨hstart, hstop⟩ := tokens_between h l t ht
      exact ⟨hstart, Position.le_trans hstop hrest⟩
    · obtain ⟨hstart, hstop⟩ := hread t ht
      exact ⟨Position.le_trans hl hstart, hstop⟩

theorem read_ordered (h : 1 ≤ p.position.col) (ls : List Lexeme) :
    (p.read ls).Pairwise fun t u => t.span.stop ≤ u.span.start := by
  induction ls generalizing p with
  | nil => exact .nil
  | cons l ls ih =>
    have hafter := one_le_col_after h l
    refine List.pairwise_append.2 ⟨tokens_ordered h l, ih hafter, fun t ht u hu => ?_⟩
    have hstop := (tokens_between h l t ht).2
    have hstart := ((read_between hafter ls).2 u hu).1
    exact Position.le_trans hstop hstart

end

end Place

/-- The span is on one row, and holds the spelling of the token. -/
structure Token.Faithful (source : String) (t : Token) : Prop where
  row_eq : t.span.stop.row = t.span.start.row
  one_le_col : 1 ≤ t.span.start.col
  col_eq : t.span.stop.col = t.span.start.col + t.text.length
  chars_eq : ((Text.lineAt source t.span.start.row).toList.drop (t.span.start.col - 1)).take
    (t.span.stop.col - t.span.start.col) = t.text.toList

theorem faithful_of_spelled {source : String} {t : Terminal} {u v : List Char}
    (h : u ++ (t.text.toList ++ v) = source.toList) (ht : Spelled t) :
    Token.Faithful source ⟨t, .after u, .after (u ++ t.text.toList)⟩ := by
  have hsolid := ht.solid
  have hfeed : '\n' ∉ t.text.toList := fun hm => (hsolid.2 _ hm).1 rfl
  have hstop := Position.after_append u hfeed
  have hread := List.prefix_iff_eq_take.1 (readsAt_lineAt h hsolid)
  rw [hstop, String.length_toList]
  rw [String.length_toList] at hread
  refine ⟨rfl, Nat.le_add_left 1 _, rfl, ?_⟩
  simpa using hread.symm

theorem Stands.span {source : String} {t : Token} (h : Stands source.toList t) :
    if t.kind = .newline ∨ t.kind = .eof then t.span.stop = t.span.start
    else t.Faithful source := by
  cases h with
  | lineStart | ending => rfl
  | spelled hu hs =>
    split
    next hk => cases hs <;> simp at hk
    next => exact faithful_of_spelled hu hs

/-- The tokens of a source end with the only token for its end, which stands
after the last character. Line starts and the end are empty, every other token
is spelled by the characters of its span, and no token begins before the ones
in front of it have stopped. -/
theorem tokenize_spans_faithful {source : String} {tokens : List Token}
    (h : tokenize source = .ok tokens) :
    (∀ t ∈ tokens, if t.kind = .newline ∨ t.kind = .eof then t.span.stop = t.span.start
      else t.Faithful source) ∧
    (∃ before, tokens = before ++
        [.eofAt ⟨source.toList.count '\n' + 1, (lastRow source.toList).length + 1⟩] ∧
      ∀ t ∈ before, t.kind ≠ .eof) ∧
    tokens.Pairwise fun t u => t.span.stop ≤ u.span.start := by
  refine ⟨fun t ht => (stands_of_tokenize h t ht).span, ?_⟩
  obtain ⟨ls, hl, rfl⟩ := tokenize_eq_ok_iff.1 h
  have hend := position_through_start hl.settled.wellFormed
  rw [hl.chars_eq] at hend
  rw [hend]
  have hcol : 1 ≤ Place.start.position.col := Nat.le_refl 1
  refine ⟨⟨_, rfl, fun t ht => kind_ne_eof_of_mem_read ht⟩, ?_⟩
  refine List.pairwise_append.2
    ⟨Place.read_ordered hcol ls, List.pairwise_singleton _ _, fun t ht u hu => ?_⟩
  obtain rfl := List.mem_singleton.1 hu
  have hstop := ((Place.read_between hcol ls).2 t ht).2
  have hfloor : (Place.start.through ls).floor ≤ (Place.start.through ls).position :=
    Place.floor_le_position (by simp [hend, Position.after])
  rw [hend] at hfloor
  exact Position.le_trans hstop hfloor

/-- Tokens after a tab and after wide characters, before a carriage return, and
next to each other. -/
def crowded : String := "//é∀\n\tlet x=1\r\n"

theorem tokenize_crowded :
    ∃ tokens, tokenize crowded = .ok tokens ∧
      ⟨⟨.symbol, "="⟩, ⟨2, 7⟩, ⟨2, 8⟩⟩ ∈ tokens ∧
      Token.Faithful crowded ⟨⟨.symbol, "="⟩, ⟨2, 7⟩, ⟨2, 8⟩⟩ ∧
      tokens.Pairwise fun t u => t.span.stop ≤ u.span.start := by
  obtain ⟨tokens, ht⟩ : ∃ tokens, tokenize crowded = .ok tokens := exists_eq_ok (by decide +kernel)
  obtain ⟨hspan, -, hordered⟩ := tokenize_spans_faithful ht
  have hmem : ((tokenize crowded).toOption.getD []).contains
      ⟨⟨.symbol, "="⟩, ⟨2, 7⟩, ⟨2, 8⟩⟩ := by decide +kernel
  rw [ht] at hmem
  have hsign := List.contains_iff_mem.1 hmem
  exact ⟨tokens, ht, hsign, by simpa using hspan _ hsign, hordered⟩

end LetIf
