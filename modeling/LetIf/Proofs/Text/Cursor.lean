import LetIf.Proofs.Text.Rows
import LetIf.Text.Cursor

/-!
# Cursors between two characters

A cursor that stands between two parts of its source sees the second part, and
its position is the one that follows the first.
-/

namespace LetIf.Text

@[simp]
theorem byteSize_append (u v : List Char) : byteSize (u ++ v) = byteSize u + byteSize v := by
  induction u with
  | nil => simp [byteSize]
  | cons c u ih => simp [byteSize, ih, Nat.add_assoc]

theorem byteSize_eq_zero_iff {u : List Char} : byteSize u = 0 ↔ u = [] := by
  cases u with
  | nil => simp [byteSize]
  | cons c u => simp [byteSize_cons_ne_zero]

theorem utf8ByteSize_ofList (u : List Char) : (String.ofList u).utf8ByteSize = byteSize u := by
  induction u with
  | nil => rfl
  | cons c u ih => simp [String.ofList_cons, byteSize, ih]

/-- Between two parts of a text there is a boundary of its UTF-8 form. -/
theorem isValid_of_append {s : String} {u v : List Char} (h : s.toList = u ++ v) :
    String.Pos.Raw.IsValid s ⟨byteSize u⟩ := by
  refine String.Pos.Raw.isValid_iff_exists_append.2 ⟨.ofList u, .ofList v, ?_, ?_⟩
  · rw [← String.ofList_append, ← h, String.ofList_toList]
  · rw [String.rawEndPos, utf8ByteSize_ofList]

theorem exists_append_lastRow (u : List Char) : ∃ above, above ++ lastRow u = u := by
  induction u using rows_induction with
  | row u hu => exact ⟨[], by rw [lastRow_of_not_mem hu, List.nil_append]⟩
  | cons u v _ ih =>
    obtain ⟨above, h⟩ := ih
    refine ⟨u ++ '\n' :: above, ?_⟩
    rw [lastRow_append_newline, List.append_assoc, List.cons_append, h]

namespace Cursor

structure Between (c : Cursor) (u v : List Char) : Prop where
  source_eq : c.source = u ++ v
  offset_eq : c.offset = byteSize u
  row_eq : c.row = u.count '\n' + 1
  rowStart_add : c.rowStart + byteSize (lastRow u) = byteSize u

theorem between_start (source : List Char) : (start source).Between [] source :=
  ⟨rfl, rfl, rfl, rfl⟩

variable {c : Cursor} {u v w : List Char}

theorem Between.rest?_eq (h : c.Between u v) : c.rest? = some v := by
  rw [rest?, h.source_eq, h.offset_eq, dropBytes?_append]

theorem Between.exists_above (h : c.Between u v) :
    ∃ above, above ++ lastRow u = u ∧ c.rowStart = byteSize above := by
  obtain ⟨above, habove⟩ := exists_append_lastRow u
  have hsize := congrArg byteSize habove
  have hrow := h.rowStart_add
  rw [byteSize_append] at hsize
  exact ⟨above, habove, by omega⟩

theorem Between.position?_eq (h : c.Between u v) : c.position? = some (.after u) := by
  obtain ⟨above, habove, hrow⟩ := h.exists_above
  have hsource : c.source = above ++ (lastRow u ++ v) := by
    rw [h.source_eq, ← List.append_assoc, habove]
  have hcol : c.offset - byteSize above = byteSize (lastRow u) := by
    rw [h.offset_eq, ← h.rowStart_add, hrow, Nat.add_sub_cancel_left]
  rw [position?, hsource, hrow, hcol, dropBytes?_append]
  simp [takeBytes?_append, h.row_eq, Position.after]

theorem Between.atEnd_iff (h : c.Between u v) : c.atEnd ↔ v = [] := by
  rw [atEnd, h.source_eq, h.offset_eq, byteSize_append, ← byteSize_eq_zero_iff, decide_eq_true_iff]
  omega

theorem Between.advance (h : c.Between u (w ++ v)) (hw : '\n' ∉ w) :
    { c with offset := c.offset + byteSize w }.Between (u ++ w) v where
  source_eq := by simp [h.source_eq]
  offset_eq := by simp [h.offset_eq]
  row_eq := by simp [h.row_eq, List.count_eq_zero_of_not_mem hw]
  rowStart_add := by
    have := h.rowStart_add
    simp only [lastRow_append u hw, byteSize_append]
    omega

theorem Between.nextRow (h : c.Between u (w ++ v)) (hw : ∃ row, '\n' ∉ row ∧ w = row ++ ['\n']) :
    { c with
      offset := c.offset + byteSize w
      row := c.row + 1
      rowStart := c.offset + byteSize w }.Between (u ++ w) v := by
  obtain ⟨row, hrow, rfl⟩ := hw
  have hlast : lastRow (u ++ (row ++ ['\n'])) = [] := by
    rw [← List.append_assoc]
    exact lastRow_append_newline (u ++ row) []
  exact ⟨by simp [h.source_eq], by simp [h.offset_eq],
    by simp [h.row_eq, List.count_eq_zero_of_not_mem hrow], by simp [hlast, h.offset_eq, byteSize]⟩

end Cursor

end LetIf.Text
