import LetIf.Proofs.RowByRow

/-!
# Tokens row by row

A group is the start of a row and then the tokens that stand on it, of which
there is at least one. Blank rows leave nothing.
-/

namespace LetIf

open Text (rows)

/-- The tokens that stand on one row, without the token that opens it. -/
structure Group where
  row : Nat
  tokens : List Token
  ne_nil : tokens ≠ []
  on_row : ∀ t ∈ tokens, t.kind ≠ .newline ∧ t.kind ≠ .eof ∧ t.span.start.row = row

def Group.opened (g : Group) : List Token := .newlineAt g.row :: g.tokens

section
variable {p : Place} {ls : List Lexeme}

theorem Place.row_after {l : Lexeme} (p : Place) (h : l ≠ .newline) :
    (p.after l).position.row = p.position.row := by
  cases l with
  | newline => exact absurd rfl h
  | _ => rfl

theorem Place.row_through (p : Place) (h : .newline ∉ ls) :
    (p.through ls).position.row = p.position.row := by
  induction ls generalizing p with
  | nil => rfl
  | cons l ls ih =>
    rw [List.mem_cons, not_or] at h
    exact (ih _ h.2).trans (p.row_after (Ne.symm h.1))

theorem Place.read_blank (p : Place) (h : ls.filterMap Lexeme.terminal? = []) :
    p.read ls = [] := by
  induction ls generalizing p with
  | nil => rfl
  | cons l ls ih =>
    have hl : l.terminal? = none := List.filterMap_eq_nil_iff.1 h l List.mem_cons_self
    rw [List.filterMap_cons_none hl] at h
    simp [Place.read, Place.tokens, hl, ih _ h]

theorem Place.read_on_row (hf : p.fresh = false) (h : .newline ∉ ls) :
    ∀ t ∈ p.read ls, t.kind ≠ .newline ∧ t.kind ≠ .eof ∧ t.span.start.row = p.position.row := by
  induction ls generalizing p with
  | nil => simp [Place.read]
  | cons l ls ih =>
    rw [List.mem_cons, not_or] at h
    intro t ht
    rcases List.mem_append.1 ht with ht | ht
    · obtain ⟨w, hl, ⟨hfresh, -⟩ | rfl⟩ := Place.mem_tokens ht
      · simp [hf] at hfresh
      · exact ⟨(kind_of_terminal? hl).1, (kind_of_terminal? hl).2, rfl⟩
    · have hafter : (p.after l).fresh = false := by simp [fresh_after, hf, Ne.symm h.1]
      rw [← p.row_after (Ne.symm h.1)]
      exact ih hafter h.2 t ht

/-- The first token of a row opens it, and blanks and comments before that leave
it as it is. -/
theorem Place.read_row (hf : p.fresh = true) (h : .newline ∉ ls)
    (hne : ls.filterMap Lexeme.terminal? ≠ []) :
    ∃ g : Group, g.row = p.position.row ∧ p.read ls = g.opened := by
  induction ls generalizing p with
  | nil => exact absurd rfl hne
  | cons l ls ih =>
    rw [List.mem_cons, not_or] at h
    have hrow := p.row_after (Ne.symm h.1)
    cases hl : l.terminal? with
    | none =>
      rw [List.filterMap_cons_none hl] at hne
      have hafter : (p.after l).fresh = true := by simp [fresh_after, hl, hf]
      obtain ⟨g, hg, hread⟩ := ih hafter h.2 hne
      exact ⟨g, hg.trans hrow, by simp [Place.read, Place.tokens, hl, hread]⟩
    | some w =>
      have hafter : (p.after l).fresh = false := by simp [fresh_after, hl]
      have hrest := Place.read_on_row hafter h.2
      rw [hrow] at hrest
      have hfirst := kind_of_terminal? hl
      let t : Token := ⟨w, p.position, (p.after l).position⟩
      refine ⟨⟨p.position.row, t :: (p.after l).read ls, List.cons_ne_nil _ _,
        List.forall_mem_cons.2 ⟨⟨hfirst.1, hfirst.2, rfl⟩, hrest⟩⟩, rfl, ?_⟩
      simp [Place.read, Place.tokens, hl, hf, Group.opened, t]

end

def filledRows (cs : List Char) (first : Nat) : List Nat :=
  (((rows cs).zipIdx first).filter fun r => ¬IsBlankRow r.1).map Prod.snd

theorem filledRows_of_not_mem {u : List Char} (h : '\n' ∉ u) (first : Nat) :
    filledRows u first = if IsBlankRow u then [] else [first] := by
  by_cases hb : IsBlankRow u <;> simp [filledRows, Text.rows_of_not_mem h, hb]

theorem filledRows_append_newline {u : List Char} (h : '\n' ∉ u) (v : List Char) (first : Nat) :
    filledRows (u ++ '\n' :: v) first = filledRows u first ++ filledRows v (first + 1) := by
  by_cases hb : IsBlankRow u <;>
    simp [filledRows, Text.rows_append_newline, Text.rows_of_not_mem h, hb]

theorem mem_filledRows {cs : List Char} {first row : Nat} :
    row ∈ filledRows cs first ↔
      ∃ i r, row = first + i ∧ (rows cs)[i]? = some r ∧ ¬IsBlankRow r := by
  simp only [filledRows, List.mem_map, List.mem_filter, Prod.exists,
    List.mk_mem_zipIdx_iff_le_and_getElem?_sub, decide_eq_true_eq]
  constructor
  · rintro ⟨r, n, ⟨⟨hle, hr⟩, hb⟩, rfl⟩
    exact ⟨n - first, r, (Nat.add_sub_of_le hle).symm, hr, hb⟩
  · rintro ⟨i, r, rfl, hr, hb⟩
    exact ⟨r, first + i, ⟨⟨Nat.le_add_right _ _, by simpa using hr⟩, hb⟩, rfl⟩

theorem pairwise_filledRows (cs : List Char) (first : Nat) :
    (filledRows cs first).Pairwise (· < ·) := by
  have hsub : (filledRows cs first).Sublist (((rows cs).zipIdx first).map Prod.snd) :=
    List.filter_sublist.map Prod.snd
  rw [List.zipIdx_map_snd] at hsub
  exact List.Pairwise.sublist hsub List.pairwise_lt_range'

section
variable {cs : List Char} {ls : List Lexeme} {p : Place}

theorem Lexed.exists_groups_row (h : Lexed cs ls) (hn : '\n' ∉ cs) (hf : p.fresh = true) :
    ∃ groups : List Group, p.read ls = groups.flatMap Group.opened ∧
      groups.map Group.row = filledRows cs p.position.row := by
  have hblank := h.filterMap_eq_nil_iff hn
  have hls := h.not_mem_newline hn
  rw [filledRows_of_not_mem hn]
  split
  next hb => exact ⟨[], p.read_blank (hblank.2 hb), rfl⟩
  next hb =>
    obtain ⟨g, hg, hread⟩ := Place.read_row hf hls (mt hblank.1 hb)
    exact ⟨[g], by simp [hread], by simp [hg]⟩

theorem Lexed.exists_groups (h : Lexed cs ls) (hf : p.fresh = true) :
    ∃ groups : List Group, p.read ls = groups.flatMap Group.opened ∧
      groups.map Group.row = filledRows cs p.position.row := by
  induction cs using Text.rows_induction generalizing ls p with
  | row u hu => exact h.exists_groups_row hu hf
  | cons u v hu ih =>
    obtain ⟨ms, ns, rfl, hm, hn⟩ := lexed_append_newline.1 h
    obtain ⟨gs, hgs, hrows⟩ := hm.exists_groups_row hu hf
    obtain ⟨gs', hgs', hrows'⟩ := ih (p := (p.through ms).after .newline) hn rfl
    have hrow : ((p.through ms).after .newline).position.row = p.position.row + 1 := by
      rw [← p.row_through (hm.not_mem_newline hu)]
      rfl
    refine ⟨gs ++ gs', ?_, ?_⟩
    · rw [p.read_append, hgs, List.flatMap_append, ← hgs']
      rfl
    · rw [List.map_append, hrows, hrows', hrow, filledRows_append_newline hu]

end

/-- The tokens of a source are one group for each row that is not blank, in the
order of the rows, and a token for the end. -/
theorem tokenize_groups_rows {source : String} {tokens : List Token}
    (h : tokenize source = .ok tokens) :
    ∃ (groups : List Group) (q : Position),
      tokens = groups.flatMap Group.opened ++ [.eofAt q] ∧
      (groups.map Group.row).Pairwise (· < ·) ∧
      ∀ row, row ∈ groups.map Group.row ↔
        ∃ i r, row = i + 1 ∧ (rows source.toList)[i]? = some r ∧ ¬IsBlankRow r := by
  obtain ⟨ls, hl, rfl⟩ := tokenize_eq_ok_iff.1 h
  obtain ⟨groups, hread, hrows⟩ := hl.exists_groups (p := Place.start) rfl
  refine ⟨groups, _, by rw [hread], ?_, fun row => ?_⟩
  · rw [hrows]
    exact pairwise_filledRows _ _
  · rw [hrows, mem_filledRows]
    simp only [Place.start, Position.origin, Nat.add_comm 1]

def sparse : String := "\r\n \t// 1\n\tx = // y\n\n1"

theorem tokenize_sparse :
    ∃ tokens, tokenize sparse = .ok tokens ∧
      ∃ (groups : List Group) (q : Position),
        tokens = groups.flatMap Group.opened ++ [.eofAt q] ∧
        (groups.map Group.row).Pairwise (· < ·) ∧
        3 ∈ groups.map Group.row ∧ 2 ∉ groups.map Group.row := by
  obtain ⟨tokens, ht⟩ : ∃ tokens, tokenize sparse = .ok tokens := exists_eq_ok (by decide +kernel)
  obtain ⟨groups, q, htokens, hordered, hrows⟩ := tokenize_groups_rows ht
  refine ⟨tokens, ht, groups, q, htokens, hordered, ?_, ?_⟩
  · exact (hrows 3).2 ⟨2, "\tx = // y".toList, rfl, by decide +kernel, by decide +kernel⟩
  · rw [hrows]
    rintro ⟨i, r, hi, hr, hb⟩
    obtain rfl : i = 1 := by omega
    obtain rfl : " \t// 1".toList = r := Option.some.inj (.trans (by decide +kernel) hr)
    exact hb (by decide +kernel)

end LetIf
