import LetIf.Position
import LetIf.Text.Rows

/-!
# Rows of joined texts

What stands on one row is joined to the last row before it, so the position
that follows a text is told from its line feeds and its last row alone.
-/

namespace LetIf.Text

theorem rows_append_newline (u v : List Char) : rows (u ++ '\n' :: v) = rows u ++ rows v :=
  List.splitOnP_append_cons u v rfl

theorem rows_of_not_mem {u : List Char} (h : '\n' ∉ u) : rows u = [u] :=
  List.splitOn_eq_singleton h

/-- A text is one row, or a row and a line feed in front of a text. -/
@[elab_as_elim]
theorem rows_induction {motive : List Char → Prop} (row : ∀ u, '\n' ∉ u → motive u)
    (cons : ∀ u v, '\n' ∉ u → motive v → motive (u ++ '\n' :: v)) (cs : List Char) :
    motive cs := by
  induction hn : cs.length using Nat.strongRecOn generalizing cs with
  | ind n ih =>
    by_cases h : '\n' ∈ cs
    · obtain ⟨u, v, rfl, hu⟩ := List.eq_append_cons_of_mem h
      refine cons u v hu (ih v.length ?_ v rfl)
      simp only [← hn, List.length_append, List.length_cons]
      omega
    · exact row cs h

theorem not_mem_of_mem_rows {cs row : List Char} (h : row ∈ rows cs) : '\n' ∉ row := by
  induction cs using rows_induction with
  | row u hu =>
    rw [rows_of_not_mem hu, List.mem_singleton] at h
    rwa [h]
  | cons u v hu ih =>
    rw [rows_append_newline, rows_of_not_mem hu] at h
    rcases List.mem_cons.1 h with rfl | h
    · exact hu
    · exact ih h

def lastRow (cs : List Char) : List Char :=
  (rows cs).getLast (rows_ne_nil cs)

theorem lastRow_of_not_mem {u : List Char} (h : '\n' ∉ u) : lastRow u = u := by
  simp [lastRow, rows_of_not_mem h]

theorem lastRow_append_newline (u v : List Char) : lastRow (u ++ '\n' :: v) = lastRow v := by
  simp [lastRow, rows_append_newline, List.getLast_append_of_ne_nil, rows_ne_nil]

theorem lastRow_append (u : List Char) {w : List Char} (h : '\n' ∉ w) :
    lastRow (u ++ w) = lastRow u ++ w := by
  induction u using rows_induction with
  | row u hu =>
    rw [lastRow_of_not_mem hu, lastRow_of_not_mem]
    simp [hu, h]
  | cons u v _ ih => rw [List.append_assoc, List.cons_append, lastRow_append_newline, ih,
      lastRow_append_newline]

theorem dropReturn_append (u : List Char) {v : List Char} (h : v ≠ []) :
    dropReturn (u ++ v) = u ++ dropReturn v := by
  have hl : (u ++ v).getLast? = v.getLast? := by
    simp [List.getLast?_append, List.getLast?_eq_some_getLast h]
  unfold dropReturn
  rw [hl]
  split
  · exact List.dropLast_append_of_ne_nil h
  · rfl

theorem dropReturn_of_not_mem {u : List Char} (h : '\r' ∉ u) : dropReturn u = u :=
  if_neg fun hl => h (List.mem_of_getLast? hl)

theorem not_mem_line (cs : List Char) (row : Nat) : '\n' ∉ line cs row := by
  fun_cases line cs row with
  | case1 | case2 => simp
  | case3 row last h =>
    exact not_mem_of_mem_rows (List.mem_of_mem_drop (h ▸ List.mem_singleton_self last))
  | case4 row first rest _ h =>
    have hf : '\n' ∉ first := not_mem_of_mem_rows (List.mem_of_mem_drop (h ▸ List.mem_cons_self))
    unfold dropReturn
    split
    · exact fun hm => hf ((List.dropLast_sublist first).mem hm)
    · exact hf

theorem line_one_of_not_mem {u : List Char} (h : '\n' ∉ u) : line u 1 = u := by
  simp [line, rows_of_not_mem h]

theorem line_one_append_newline {u : List Char} (h : '\n' ∉ u) (v : List Char) :
    line (u ++ '\n' :: v) 1 = dropReturn u := by
  obtain ⟨row, rest, hv⟩ := List.exists_cons_of_ne_nil (rows_ne_nil v)
  simp [line, rows_append_newline, rows_of_not_mem h, hv]

/-- The line on which `u` ends depends on the last row of `u` only. -/
theorem line_append (u v : List Char) :
    line (u ++ v) (u.count '\n' + 1) = line (lastRow u ++ v) 1 := by
  induction u using rows_induction with
  | row u hu => rw [lastRow_of_not_mem hu, List.count_eq_zero_of_not_mem hu]
  | cons u x hu ih =>
    rw [lastRow_append_newline, ← ih]
    simp [line, rows_append_newline, rows_of_not_mem hu, List.count_eq_zero_of_not_mem hu]

theorem line_last (cs : List Char) : line cs (cs.count '\n' + 1) = lastRow cs := by
  have h := line_append cs []
  have hl : '\n' ∉ lastRow cs := not_mem_of_mem_rows (List.getLast_mem (rows_ne_nil cs))
  rwa [List.append_nil, List.append_nil, line_one_of_not_mem hl] at h

/-- A word stands on the line on which it is read. It must not end in a
carriage return, since a line feed may follow. -/
theorem exists_line_append {u w : List Char} (v : List Char) (hne : w ≠ []) (hn : '\n' ∉ w)
    (hr : '\r' ∉ w) :
    ∃ rest, line (u ++ (w ++ v)) (u.count '\n' + 1) = lastRow u ++ (w ++ rest) := by
  have hu : '\n' ∉ lastRow u := not_mem_of_mem_rows (List.getLast_mem (rows_ne_nil u))
  rw [line_append]
  by_cases hv : '\n' ∈ v
  · obtain ⟨a, b, rfl, ha⟩ := List.eq_append_cons_of_mem hv
    have hrow : '\n' ∉ lastRow u ++ (w ++ a) := by simp [hu, hn, ha]
    have hline := line_one_append_newline hrow b
    simp only [List.append_assoc] at hline
    rw [hline]
    by_cases hne' : a = []
    · exact ⟨[], by rw [hne', List.append_nil, dropReturn_append _ hne, dropReturn_of_not_mem hr]⟩
    · refine ⟨dropReturn a, ?_⟩
      rw [← List.append_assoc, dropReturn_append _ hne', List.append_assoc]
  · have hrow : '\n' ∉ lastRow u ++ (w ++ v) := by simp [hu, hn, hv]
    exact ⟨v, line_one_of_not_mem hrow⟩

theorem line_append_newline_below (u v : List Char) {row : Nat} (h : 1 ≤ row) :
    line (u ++ '\n' :: v) (row + (u.count '\n' + 1)) = line v row := by
  obtain ⟨n, rfl⟩ := Nat.exists_eq_add_of_le' h
  have hdrop : (rows (u ++ '\n' :: v)).drop (n + (u.count '\n' + 1)) = (rows v).drop n := by
    rw [rows_append_newline, ← length_rows, Nat.add_comm n, List.drop_append]
    simp
  rw [Nat.add_right_comm, line, hdrop, line]

/-- Above a line feed the lines are those of the text before it, whose last row
now has a line ending. -/
theorem line_append_newline_above (u v : List Char) {row : Nat} (h : row ≤ u.count '\n' + 1) :
    line (u ++ '\n' :: v) row =
      if row = u.count '\n' + 1 then dropReturn (line u row) else line u row := by
  cases row with
  | zero => rfl
  | succ n =>
    have hn : (rows u).drop n ≠ [] := by
      rw [Ne, List.drop_eq_nil_iff, length_rows]
      omega
    obtain ⟨first, rest, hu⟩ := List.exists_cons_of_ne_nil hn
    obtain ⟨second, others, hv⟩ := List.exists_cons_of_ne_nil (rows_ne_nil v)
    have hdrop : (rows (u ++ '\n' :: v)).drop n = first :: (rest ++ rows v) := by
      rw [rows_append_newline, List.drop_append_of_le_length (by rw [length_rows]; omega), hu,
        List.cons_append]
    have hlen : rest.length + n = u.count '\n' := by
      have := congrArg List.length hu
      rw [List.length_drop, length_rows, List.length_cons] at this
      omega
    cases rest with
    | nil =>
      rw [List.length_nil] at hlen
      rw [if_pos (by omega)]
      simp [line, hdrop, hu, hv]
    | cons third rest =>
      rw [List.length_cons] at hlen
      rw [if_neg (by omega)]
      simp [line, hdrop, hu]

end LetIf.Text

namespace LetIf.Position

open Text (lastRow)

def after (cs : List Char) : Position := ⟨cs.count '\n' + 1, (lastRow cs).length + 1⟩

theorem after_nil : after [] = origin := rfl

theorem after_append_newline (u : List Char) : after (u ++ ['\n']) = ⟨(after u).row + 1, 1⟩ := by
  have hl : lastRow (u ++ ['\n']) = [] := Text.lastRow_append_newline u []
  simp [after, hl]

theorem after_append (u : List Char) {w : List Char} (h : '\n' ∉ w) :
    after (u ++ w) = ⟨(after u).row, (after u).col + w.length⟩ := by
  simp [after, List.count_eq_zero_of_not_mem h, Text.lastRow_append u h, Nat.add_right_comm]

theorem eq_nil_of_after_append {u w : List Char} (h : after (u ++ w) = after u) : w = [] := by
  have hrow := congrArg row h
  simp only [after, List.count_append] at hrow
  have hn : '\n' ∉ w := List.count_eq_zero.1 (by omega)
  have hcol := congrArg col h
  simp only [after_append u hn] at hcol
  exact List.eq_nil_of_length_eq_zero (by omega)

theorem after_inj {u v x y : List Char} (h : u ++ x = v ++ y) (hp : after u = after v) :
    u = v := by
  rcases List.append_eq_append_iff.1 h with ⟨w, rfl, -⟩ | ⟨w, rfl, -⟩
  · rw [eq_nil_of_after_append hp.symm, List.append_nil]
  · rw [eq_nil_of_after_append hp, List.append_nil]

end LetIf.Position
