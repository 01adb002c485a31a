import LetIf.Program
import LetIf.Proofs.Lexeme
import LetIf.Proofs.Text.Quoted
import Mathlib.Data.List.Forall2

/-!
# Trees row by row

The indented outline of a program has one row for every node that opens, for
every node that closes, and for every value. The rows are told from the text,
and the program from the rows.
-/

namespace LetIf

open Text

variable {α : Type}

/-- A row of a tree, with the number of steps that it is moved in. -/
structure TreeRow where
  depth : Nat
  text : String

namespace TreeRow

def line (r : TreeRow) : String := .ofList (List.replicate (4 * r.depth) ' ') ++ r.text

def lines (rs : List TreeRow) : String := .join (rs.map (·.line ++ "\n"))

def list (label : String) (depth : Nat) (items : List (List TreeRow)) : List TreeRow :=
  if items.isEmpty then [⟨depth, label ++ "[],"⟩]
  else ⟨depth, label ++ "["⟩ :: items.flatten ++ [⟨depth, "],"⟩]

end TreeRow

def Expr.rows (label : String) (depth : Nat) : Expr → List TreeRow
  | .ite c y n =>
    ⟨depth, label ++ "If \x7b"⟩ ::
      (c.rows "cond: " (depth + 1) ++ y.rows "then_branch: " (depth + 1)
        ++ n.rows "else_branch: " (depth + 1))
      ++ [⟨depth, "\x7d,"⟩]
  | .name text => [⟨depth, label ++ "Name("⟩, ⟨depth + 1, quote text ++ ","⟩, ⟨depth, "),"⟩]
  | .bool value =>
    [⟨depth, label ++ "Bool("⟩, ⟨depth + 1, if value then "true," else "false,"⟩, ⟨depth, "),"⟩]
  | .num value => [⟨depth, label ++ "Num("⟩, ⟨depth + 1, Numeral.write value ++ ","⟩, ⟨depth, "),"⟩]

def Binding.rows (depth : Nat) (b : Binding) : List TreeRow :=
  [⟨depth, "LetBinding \x7b"⟩, ⟨depth + 1, "name: " ++ quote b.name ++ ","⟩]
    ++ TreeRow.list "args: " (depth + 1) (b.args.map fun arg => [⟨depth + 2, quote arg ++ ","⟩])
    ++ b.body.rows "body: " (depth + 1) ++ [⟨depth, "\x7d,"⟩]

def Program.rows (p : Program) : List TreeRow :=
  ⟨0, "Program \x7b"⟩ :: TreeRow.list "bindings: " 1 (p.bindings.map (·.rows 2)) ++ [⟨0, "\x7d"⟩]

def Program.tree (p : Program) : String := TreeRow.lines p.rows

-- ---------------------------------------------------------------------------
-- Outlines
-- ---------------------------------------------------------------------------

namespace TreeRow

@[simp] theorem lines_nil : lines [] = "" := rfl

@[simp] theorem lines_cons (r : TreeRow) (rs : List TreeRow) :
    lines (r :: rs) = r.line ++ "\n" ++ lines rs := String.join_cons

@[simp] theorem lines_append (rs rs' : List TreeRow) :
    lines (rs ++ rs') = lines rs ++ lines rs' := by
  rw [lines, List.map_append, String.join_append]
  rfl

/-- What is shown at a depth, and a comma after it, has these rows. -/
def Lists (depth : Nat) (shown : String) (rows : List TreeRow) : Prop :=
  Outline.margin depth ++ shown ++ ",\n" = lines rows

theorem lists_atom (depth : Nat) (text : String) : Lists depth text [⟨depth, text ++ ","⟩] := by
  simp only [Lists, lines_cons, lines_nil, line, Outline.margin, String.append_assoc]
  rfl

theorem join_members {depth : Nat} (members : List Outline) {inner : List (List TreeRow)}
    (h : List.Forall₂ (fun member rows => Lists depth (member.indented depth) rows)
      members inner) :
    .join ((members.map Outline.indented).map fun member =>
      Outline.margin depth ++ member depth ++ ",\n") = lines inner.flatten := by
  induction h with
  | nil => rfl
  | cons hm _ ih =>
    rw [Lists] at hm
    rw [List.map_cons, List.map_cons, String.join_cons, hm, ih, List.flatten_cons, lines_append]

section
variable {depth : Nat} {inner : List (List TreeRow)}

theorem lists_block (label opening closing : String) (members : List Outline)
    (h : List.Forall₂ (fun member rows => Lists (depth + 1) (member.indented (depth + 1)) rows)
      members inner) :
    Lists depth (label ++ Outline.block opening closing (members.map Outline.indented) depth)
      (⟨depth, label ++ opening⟩ :: inner.flatten ++ [⟨depth, closing ++ ","⟩]) := by
  rw [Lists, Outline.block, join_members members h]
  simp only [lines_append, lines_cons, lines_nil, line, Outline.margin, String.append_assoc]
  rfl

theorem lists_call (label name : String) (value : Outline) {rows : List TreeRow}
    (h : Lists (depth + 1) (value.indented (depth + 1)) rows) :
    Lists depth (label ++ (Outline.call name value).indented depth)
      (⟨depth, label ++ (name ++ "(")⟩ :: rows ++ [⟨depth, "),"⟩]) := by
  have hblock := lists_block label (name ++ "(") ")" [value] (.cons h .nil)
  rwa [List.flatten_cons, List.flatten_nil, List.append_nil] at hblock

theorem lists_list (label : String) (items : List α) (outline : α → Outline)
    {rows : α → List TreeRow}
    (h : ∀ a, Lists (depth + 1) ((outline a).indented (depth + 1)) (rows a)) :
    Lists depth (label ++ (Outline.list (items.map outline)).indented depth)
      (list label depth (items.map rows)) := by
  cases items with
  | nil =>
    have hempty := lists_atom depth (label ++ "[]")
    rwa [String.append_assoc] at hempty
  | cons a items =>
    refine lists_block label "[" "]" ((a :: items).map outline) ?_
    rw [List.forall₂_map_left_iff, List.forall₂_map_right_iff]
    exact List.forall₂_same.2 fun a _ => h a

end

theorem lists_expr (e : Expr) (label : String) (depth : Nat) :
    Lists depth (label ++ e.outline.indented depth) (e.rows label depth) := by
  induction e generalizing label depth with
  | name text => exact lists_call label "Name" (.quoted text) (lists_atom (depth + 1) (quote text))
  | bool value =>
    cases value with
    | false => exact lists_call label "Bool" (.atom "false") (lists_atom (depth + 1) "false")
    | true => exact lists_call label "Bool" (.atom "true") (lists_atom (depth + 1) "true")
  | num value =>
    have h := lists_atom (depth + 1) (Numeral.write value)
    exact lists_call label "Num" (.atom (Numeral.write value)) h
  | ite c y n ihc ihy ihn =>
    have hblock := lists_block label "If \x7b" "\x7d"
      [.field "cond" c.outline, .field "then_branch" y.outline, .field "else_branch" n.outline]
      (.cons (ihc "cond: " (depth + 1)) (.cons (ihy "then_branch: " (depth + 1))
        (.cons (ihn "else_branch: " (depth + 1)) .nil)))
    simp only [List.flatten_cons, List.flatten_nil, List.append_nil, ← List.append_assoc] at hblock
    exact hblock

theorem lists_binding (b : Binding) (depth : Nat) :
    Lists depth (b.outline.indented depth) (b.rows depth) := by
  have hname := lists_atom (depth + 1) ("name: " ++ quote b.name)
  have hargs := lists_list "args: " b.args .quoted fun arg => lists_atom (depth + 2) (quote arg)
  have hbody := lists_expr b.body "body: " (depth + 1)
  have hblock := lists_block "" "LetBinding \x7b" "\x7d"
    [.field "name" (.quoted b.name), .field "args" (.list (b.args.map .quoted)),
      .field "body" b.body.outline] (.cons hname (.cons hargs (.cons hbody .nil)))
  simp only [List.flatten_cons, List.flatten_nil, List.append_nil, ← List.append_assoc,
    String.empty_append] at hblock
  exact hblock

end TreeRow

/-- The indented outline of a program, row by row. -/
theorem Program.indented_outline (p : Program) : p.outline.indented 0 ++ "\n" = p.tree := by
  have hbindings := TreeRow.lists_list "bindings: " p.bindings Binding.outline
    fun b => TreeRow.lists_binding b 2
  let members := [Outline.field "bindings" (.list (p.bindings.map Binding.outline))]
  have hjoin := TreeRow.join_members members (.cons hbindings .nil)
  have houtline : p.outline.indented 0
      = Outline.block "Program \x7b" "\x7d" (members.map Outline.indented) 0 := rfl
  rw [houtline, Outline.block, hjoin]
  simp only [tree, rows, List.flatten_cons, List.flatten_nil, List.append_nil, List.cons_append,
    TreeRow.lines_cons, TreeRow.lines_append, TreeRow.lines_nil, String.append_assoc]
  rfl

-- ---------------------------------------------------------------------------
-- Rows from lines
-- ---------------------------------------------------------------------------

def Flush (text : String) : Prop := OneRow text ∧ text.toList.head?.any (· ≠ ' ')

instance : DecidablePred Flush := fun text =>
  inferInstanceAs (Decidable (OneRow text ∧ text.toList.head?.any (· ≠ ' ')))

theorem Flush.append {s t : String} (hs : Flush s) (ht : OneRow t) : Flush (s ++ t) := by
  refine ⟨hs.1.append ht, ?_⟩
  obtain ⟨c, hc, hne⟩ := (Option.any_eq_true _ _).1 hs.2
  simpa [List.head?_append, hc] using hne

theorem flush_quote (text : String) : Flush (quote text) :=
  ⟨oneRow_quote text, by simp [quote, quoteChars]⟩

theorem flush_repr (n : Nat) : Flush n.repr := by
  refine ⟨oneRow_repr n, ?_⟩
  have hblank : ' ' ∉ Nat.toDigits 10 n := not_mem_toDigits (by decide) (by decide) rfl n
  rw [Nat.toList_repr]
  cases hd : Nat.toDigits 10 n with
  | nil => exact absurd hd Nat.toDigits_ne_nil
  | cons c cs =>
    rw [hd, List.mem_cons, not_or] at hblank
    simpa using Ne.symm hblank.1

theorem flush_write (n : Int64) : Flush (Numeral.write n) := by
  unfold Numeral.write
  split
  · exact flush_repr _
  · exact Flush.append (by decide) (oneRow_repr _)

namespace TreeRow

def Clean (rs : List TreeRow) : Prop := ∀ r ∈ rs, Flush r.text

theorem clean_nil : Clean [] := List.forall_mem_nil _

theorem clean_cons {depth : Nat} {text : String} {rs : List TreeRow} :
    Clean (⟨depth, text⟩ :: rs) ↔ Flush text ∧ Clean rs := List.forall_mem_cons

theorem clean_append {rs rs' : List TreeRow} : Clean (rs ++ rs') ↔ Clean rs ∧ Clean rs' :=
  List.forall_mem_append

def ofLine (text : String) : TreeRow :=
  ⟨(text.toList.takeWhile (· = ' ')).length / 4, .ofList (text.toList.dropWhile (· = ' '))⟩

theorem ofLine_line {r : TreeRow} (h : Flush r.text) : ofLine r.line = r := by
  obtain ⟨c, hc, hne⟩ := (Option.any_eq_true _ _).1 h.2
  have hblanks : ∀ c ∈ List.replicate (4 * r.depth) ' ', decide (c = ' ') := by
    simp [List.mem_replicate]
  have htext : ∀ c ∈ r.text.toList.head?, ¬decide (c = ' ') := by simpa [hc] using hne
  simp [ofLine, line, Lexeme.span_append hblanks htext]

theorem oneRow_lines {rs : List TreeRow} (h : Clean rs) :
    ∀ text ∈ rs.map line, OneRow text := by
  refine List.forall_mem_map.2 fun r hr => OneRow.append ?_ (h r hr).1
  simp [OneRow, List.mem_replicate]

theorem lines_inj {rs rs' : List TreeRow} (h : Clean rs)
    (h' : Clean rs') (heq : lines rs = lines rs') : rs = rs' := by
  have hlines : ∀ rs : List TreeRow, lines rs = .join ((rs.map line).map (· ++ "\n")) := by
    intro rs
    rw [lines, List.map_map]
    rfl
  have hread : ∀ {rs : List TreeRow}, Clean rs →
      (rs.map line).map ofLine = rs := by
    intro rs h
    rw [List.map_map]
    exact (List.map_congr_left fun r hr => ofLine_line (h r hr)).trans (List.map_id rs)
  rw [hlines, hlines] at heq
  rw [← hread h, ← hread h', join_inj (oneRow_lines h) (oneRow_lines h') heq]

end TreeRow

-- ---------------------------------------------------------------------------
-- Programs from rows
-- ---------------------------------------------------------------------------

section
variable {label a b : String} {depth : Nat} {u v : List TreeRow}

theorem label_inj (h : (⟨depth, label ++ a⟩ : TreeRow) :: u = ⟨depth, label ++ b⟩ :: v) :
    a = b ∧ u = v := by
  obtain ⟨hrow, hrest⟩ := List.cons.inj h
  exact ⟨(String.append_right_inj label).1 (TreeRow.mk.inj hrow).2, hrest⟩

theorem quote_inj {s t : String} (h : quote s ++ a = quote t ++ a) : s = t := by
  have hquote := String.toList_inj.2 ((String.append_left_inj a).1 h)
  simp only [quote, String.toList_ofList] at hquote
  exact String.toList_inj.1 (delimited_quoteChars _ _ [] [] (congrArg (· ++ []) hquote)).1

theorem write_inj {m n : Int64} (h : Numeral.write m ++ a = Numeral.write n ++ a) : m = n := by
  have hread := congrArg Numeral.read? ((String.append_left_inj a).1 h)
  rwa [Numeral.read?_write, Numeral.read?_write, Option.some.injEq] at hread

theorem call_inj {s t closing : String}
    (h : [⟨depth, label ++ a⟩, ⟨depth + 1, s⟩, ⟨depth, closing⟩] ++ u
      = ([⟨depth, label ++ b⟩, ⟨depth + 1, t⟩, ⟨depth, closing⟩] : List TreeRow) ++ v) :
    s = t ∧ u = v := by
  simp only [List.cons_append, List.nil_append, List.cons.injEq, TreeRow.mk.injEq, true_and] at h
  exact ⟨h.2.1, h.2.2⟩

theorem Expr.rows_inj {e e' : Expr} (h : e.rows label depth ++ u = e'.rows label depth ++ v) :
    e = e' ∧ u = v := by
  induction e generalizing e' label depth u v with
  | ite c y n ihc ihy ihn =>
    -- The first row tells which node it opens.
    cases e' with
    | ite c' y' n' =>
      simp only [rows, List.cons_append, List.append_assoc] at h
      obtain ⟨rfl, hy⟩ := ihc (label_inj h).2
      obtain ⟨rfl, hn⟩ := ihy hy
      obtain ⟨rfl, hclose⟩ := ihn hn
      exact ⟨rfl, (List.cons.inj hclose).2⟩
    | name | bool | num => exact absurd (label_inj h).1 (by decide)
  | name text =>
    cases e' with
    | name text' =>
      obtain ⟨htext, huv⟩ := call_inj h
      exact ⟨congrArg _ (quote_inj htext), huv⟩
    | ite | bool | num => exact absurd (label_inj h).1 (by decide)
  | bool value =>
    cases e' with
    | bool value' =>
      obtain ⟨htext, huv⟩ := call_inj h
      exact ⟨by revert htext; cases value <;> cases value' <;> decide, huv⟩
    | ite | name | num => exact absurd (label_inj h).1 (by decide)
  | num value =>
    cases e' with
    | num value' =>
      obtain ⟨htext, huv⟩ := call_inj h
      exact ⟨congrArg _ (write_inj htext), huv⟩
    | ite | name | bool => exact absurd (label_inj h).1 (by decide)

/-- The rows of the items stand further in than the row that closes the list. -/
theorem TreeRow.flatten_inj {rows : α → List TreeRow} {as bs : List α}
    (hinj : ∀ {a b u v}, rows a ++ u = rows b ++ v → a = b ∧ u = v)
    (hdepth : ∀ a, ∃ text later, rows a = ⟨depth + 1, text⟩ :: later)
    (h : (as.map rows).flatten ++ ⟨depth, "],"⟩ :: u
      = (bs.map rows).flatten ++ ⟨depth, "],"⟩ :: v) :
    as = bs ∧ u = v := by
  induction as generalizing bs with
  | nil =>
    cases bs with
    | nil => exact ⟨rfl, (List.cons.inj h).2⟩
    | cons b bs =>
      obtain ⟨text, later, hb⟩ := hdepth b
      simp [hb] at h
  | cons a as ih =>
    cases bs with
    | nil =>
      obtain ⟨text, later, ha⟩ := hdepth a
      simp [ha] at h
    | cons b bs =>
      simp only [List.map_cons, List.flatten_cons, List.append_assoc] at h
      obtain ⟨rfl, hrest⟩ := hinj h
      obtain ⟨rfl, huv⟩ := ih hrest
      exact ⟨rfl, huv⟩

theorem TreeRow.list_inj {rows : α → List TreeRow} {as bs : List α}
    (hinj : ∀ {a b u v}, rows a ++ u = rows b ++ v → a = b ∧ u = v)
    (hdepth : ∀ a, ∃ text later, rows a = ⟨depth + 1, text⟩ :: later)
    (h : list label depth (as.map rows) ++ u = list label depth (bs.map rows) ++ v) :
    as = bs ∧ u = v := by
  cases as with
  | nil =>
    cases bs with
    | nil => exact ⟨rfl, (label_inj h).2⟩
    | cons b bs => exact absurd (label_inj h).1 (by decide)
  | cons a as =>
    cases bs with
    | nil => exact absurd (label_inj h).1 (by decide)
    | cons b bs =>
      have hrest : ((a :: as).map rows).flatten ++ [⟨depth, "],"⟩] ++ u
          = ((b :: bs).map rows).flatten ++ [⟨depth, "],"⟩] ++ v := (label_inj h).2
      rw [List.append_assoc, List.append_assoc] at hrest
      exact flatten_inj hinj hdepth hrest

theorem quoted_inj {s t : String}
    (h : [⟨depth, quote s ++ a⟩] ++ u = ([⟨depth, quote t ++ a⟩] : List TreeRow) ++ v) :
    s = t ∧ u = v := by
  obtain ⟨hrow, hrest⟩ := List.cons.inj h
  exact ⟨quote_inj (TreeRow.mk.inj hrow).2, hrest⟩

theorem Binding.rows_inj {b b' : Binding} (h : b.rows depth ++ u = b'.rows depth ++ v) :
    b = b' ∧ u = v := by
  obtain ⟨name, args, body⟩ := b
  obtain ⟨name', args', body'⟩ := b'
  simp only [rows, List.append_assoc, List.cons_append, List.nil_append, List.cons.injEq,
    TreeRow.mk.injEq, true_and, String.append_assoc, String.append_right_inj] at h
  obtain rfl := quote_inj h.1
  obtain ⟨rfl, hbody⟩ := TreeRow.list_inj quoted_inj (fun arg => ⟨_, _, rfl⟩) h.2
  obtain ⟨rfl, hclose⟩ := Expr.rows_inj hbody
  exact ⟨rfl, (List.cons.inj hclose).2⟩

theorem Program.rows_inj {p p' : Program} (h : p.rows = p'.rows) : p = p' := by
  obtain ⟨bindings⟩ := p
  obtain ⟨bindings'⟩ := p'
  have hlist := (List.cons.inj h).2
  obtain ⟨rfl, -⟩ := TreeRow.list_inj Binding.rows_inj (fun b => ⟨_, _, rfl⟩) hlist
  rfl

end

theorem TreeRow.clean_list {label : String} {depth : Nat} {items : List (List TreeRow)}
    (hlabel : Flush label) (h : ∀ rows ∈ items, Clean rows) : Clean (list label depth items) := by
  unfold list
  split
  · exact clean_cons.2 ⟨hlabel.append (by decide), clean_nil⟩
  · refine clean_append.2 ⟨clean_cons.2 ⟨hlabel.append (by decide), ?_⟩,
      clean_cons.2 ⟨by decide, clean_nil⟩⟩
    intro r hr
    obtain ⟨rows, hrows, hr⟩ := List.mem_flatten.1 hr
    exact h rows hrows r hr

theorem TreeRow.clean_call {label name value : String} {depth : Nat} (hlabel : Flush label)
    (hname : OneRow name) (hvalue : Flush value) :
    Clean [⟨depth, label ++ name⟩, ⟨depth + 1, value⟩, ⟨depth, "),"⟩] :=
  clean_cons.2 ⟨hlabel.append hname,
    clean_cons.2 ⟨hvalue, clean_cons.2 ⟨by decide, clean_nil⟩⟩⟩

open TreeRow (Clean clean_nil clean_cons clean_append clean_list clean_call)

theorem Expr.clean_rows (e : Expr) {label : String} (hlabel : Flush label) (depth : Nat) :
    Clean (e.rows label depth) := by
  induction e generalizing label depth with
  | ite c y n ihc ihy ihn =>
    have hbranches := clean_append.2 ⟨ihc (by decide : Flush "cond: ") (depth + 1),
      ihy (by decide : Flush "then_branch: ") (depth + 1)⟩
    have hfields := clean_append.2 ⟨hbranches, ihn (by decide : Flush "else_branch: ") (depth + 1)⟩
    exact clean_append.2 ⟨clean_cons.2 ⟨hlabel.append (by decide), hfields⟩,
      clean_cons.2 ⟨by decide, clean_nil⟩⟩
  | name text => exact clean_call hlabel (by decide) ((flush_quote text).append (by decide))
  | bool value => exact clean_call hlabel (by decide) (by cases value <;> decide)
  | num value => exact clean_call hlabel (by decide) ((flush_write value).append (by decide))

theorem Binding.clean_rows (b : Binding) (depth : Nat) : Clean (b.rows depth) := by
  have hname : Flush ("name: " ++ quote b.name ++ ",") :=
    (Flush.append (by decide) (oneRow_quote b.name)).append (by decide)
  have hopen : Clean [⟨depth, "LetBinding \x7b"⟩, ⟨depth + 1, "name: " ++ quote b.name ++ ","⟩] :=
    clean_cons.2 ⟨by decide, clean_cons.2 ⟨hname, clean_nil⟩⟩
  have hargs : Clean (TreeRow.list "args: " (depth + 1)
      (b.args.map fun arg => [⟨depth + 2, quote arg ++ ","⟩])) := by
    refine clean_list (by decide) (List.forall_mem_map.2 fun arg _ => ?_)
    exact clean_cons.2 ⟨(flush_quote arg).append (by decide), clean_nil⟩
  have hbody := b.body.clean_rows (by decide : Flush "body: ") (depth + 1)
  exact clean_append.2 ⟨clean_append.2 ⟨clean_append.2 ⟨hopen, hargs⟩, hbody⟩,
    clean_cons.2 ⟨by decide, clean_nil⟩⟩

theorem Program.clean_rows (p : Program) : Clean p.rows := by
  have hbindings : Clean (TreeRow.list "bindings: " 1 (p.bindings.map (·.rows 2))) :=
    clean_list (by decide) (List.forall_mem_map.2 fun b _ => b.clean_rows 2)
  exact clean_append.2 ⟨clean_cons.2 ⟨by decide, hbindings⟩, clean_cons.2 ⟨by decide, clean_nil⟩⟩

theorem Program.tree_inj {p p' : Program} (h : p.tree = p'.tree) : p = p' :=
  rows_inj (TreeRow.lines_inj p.clean_rows p'.clean_rows h)

end LetIf
