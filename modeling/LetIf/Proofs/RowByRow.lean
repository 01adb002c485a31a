import LetIf.Proofs.Parse
import LetIf.Proofs.Text.Rows

/-!
# Reading a source row by row

No lexeme but the line feed itself goes past the end of a row, and the first
token of a row opens a binding that must be whole before the next row opens
another.
-/

namespace LetIf

open Grammar
open Text (rows)

-- ---------------------------------------------------------------------------
-- Lexemes of joined texts
-- ---------------------------------------------------------------------------

theorem Lexeme.exists_append_of_append_newline {l : Lexeme} {u v rest : List Char}
    (hl : l.WellFormed) (hn : l ≠ .newline) (h : u ++ '\n' :: v = l.chars ++ rest) :
    ∃ b, u = l.chars ++ b ∧ rest = b ++ '\n' :: v := by
  rcases List.append_eq_append_iff.1 h with ⟨a, hchars, hrest⟩ | ⟨b, hu, hrest⟩
  · cases a with
    | nil => exact ⟨[], by simpa using hchars.symm, by simpa using hrest.symm⟩
    | cons c a =>
      obtain ⟨rfl, -⟩ := List.cons.inj hrest
      exact absurd (by simp [hchars]) (l.not_mem_chars hl hn)
  · exact ⟨b, hu, hrest⟩

theorem lexed_append_newline {u v : List Char} {ls : List Lexeme} :
    Lexed (u ++ '\n' :: v) ls ↔
      ∃ ms ns, ls = ms ++ .newline :: ns ∧ Lexed u ms ∧ Lexed v ns := by
  constructor
  · intro h
    induction ls generalizing u with
    | nil => simpa using h.chars_eq
    | cons l ls ih =>
      obtain ⟨rest, hcs, hl, he, hc, hr⟩ := lexed_cons.1 h
      have later : ∀ {b}, u = l.chars ++ b → rest = b ++ '\n' :: v →
          ∃ ms ns, l :: ls = ms ++ .newline :: ns ∧ Lexed u ms ∧ Lexed v ns := by
        rintro b rfl rfl
        obtain ⟨ms, ns, rfl, hm, hn⟩ := ih hr
        have hb : l.Ends b := Lexeme.ends_append_newline.1 he
        exact ⟨l :: ms, ns, rfl, lexed_cons.2 ⟨b, rfl, hl, hb, hc, hm⟩, hn⟩
      by_cases hnew : l = .newline
      · subst hnew
        cases u with
        | nil =>
          obtain rfl : v = rest := by simpa [Lexeme.chars] using hcs
          exact ⟨[], ls, rfl, .nil, hr⟩
        | cons c u =>
          obtain ⟨rfl, rfl⟩ : c = '\n' ∧ u ++ '\n' :: v = rest := by
            simpa [Lexeme.chars] using hcs
          exact later rfl rfl
      · obtain ⟨b, hu, hrest⟩ := l.exists_append_of_append_newline hl hnew hcs
        exact later hu hrest
  · rintro ⟨ms, ns, rfl, hm, hn⟩
    induction ms generalizing u with
    | nil =>
      obtain rfl : [] = u := hm.chars_eq
      exact lexed_cons.2 ⟨v, rfl, trivial, fun _ _ => Bool.false_ne_true, rfl, hn⟩
    | cons l ms ih =>
      obtain ⟨rest, rfl, hl, he, hc, hr⟩ := lexed_cons.1 hm
      exact lexed_cons.2 ⟨rest ++ '\n' :: v, List.append_assoc .., hl,
        Lexeme.ends_append_newline.2 he, hc, ih hr⟩

theorem terminals_append_newline (fresh : Bool) (ms ns : List Lexeme) :
    Lexeme.terminals fresh (ms ++ .newline :: ns)
      = Lexeme.terminals fresh ms ++ Lexeme.terminals true ns := by
  induction ms generalizing fresh with
  | nil => simp [Lexeme.terminal?, Lexeme.terminals]
  | cons l ms ih =>
    rw [List.cons_append]
    cases ht : l.terminal? with
    | none => rw [terminals_cons_none ht, terminals_cons_none ht, ih]
    | some t => simp [terminals_cons_some ht, ih]

-- ---------------------------------------------------------------------------
-- The terminals of a row
-- ---------------------------------------------------------------------------

def IsRow (ts : List Terminal) : Prop :=
  ts = [] ∨ ∃ t us, ts = t :: us ∧ t.kind = .newline ∧ ∀ u ∈ us, u.kind ≠ .newline

theorem Lexed.not_mem_newline {cs : List Char} {ls : List Lexeme} (h : Lexed cs ls)
    (hn : '\n' ∉ cs) : .newline ∉ ls := by
  intro hm
  refine hn ?_
  rw [← h.chars_eq]
  exact List.mem_flatMap.2 ⟨.newline, hm, List.mem_singleton_self _⟩

theorem terminals_false {ls : List Lexeme} (h : .newline ∉ ls) :
    Lexeme.terminals false ls = ls.filterMap Lexeme.terminal? := by
  induction ls with
  | nil => rfl
  | cons l ls ih =>
    rw [List.mem_cons, not_or] at h
    obtain ⟨hl, hls⟩ := h
    cases ht : l.terminal? with
    | none => simp [terminals_cons_none ht, List.filterMap_cons_none ht, Ne.symm hl, ih hls]
    | some t => simp [terminals_cons_some ht, List.filterMap_cons_some ht, ih hls]

theorem terminals_true {ls : List Lexeme} (h : .newline ∉ ls) :
    Lexeme.terminals true ls =
      if ls.filterMap Lexeme.terminal? = [] then []
      else .newline :: ls.filterMap Lexeme.terminal? := by
  induction ls with
  | nil => rfl
  | cons l ls ih =>
    rw [List.mem_cons, not_or] at h
    obtain ⟨hl, hls⟩ := h
    cases ht : l.terminal? with
    | none => simp [terminals_cons_none ht, List.filterMap_cons_none ht, ih hls]
    | some t =>
      simp [terminals_cons_some ht, List.filterMap_cons_some ht, terminals_false hls]

theorem head_terminals_true (ls : List Lexeme) :
    ∀ t ∈ (Lexeme.terminals true ls).head?, t.kind = .newline := by
  induction ls with
  | nil => simp [Lexeme.terminals]
  | cons l ls ih =>
    cases ht : l.terminal? with
    | none => simpa [terminals_cons_none ht] using ih
    | some t => simp [terminals_cons_some ht, Terminal.newline]

theorem isRow_terminals {ls : List Lexeme} (h : .newline ∉ ls) :
    IsRow (Lexeme.terminals true ls) := by
  rw [terminals_true h]
  split
  · exact .inl rfl
  · refine .inr ⟨_, _, rfl, rfl, fun u hu => ?_⟩
    obtain ⟨l, -, hl⟩ := List.mem_filterMap.1 hu
    exact (kind_of_terminal? hl).1

-- ---------------------------------------------------------------------------
-- Derivations row by row
-- ---------------------------------------------------------------------------

theorem Grammar.DerivesExpr.kind_ne_newline {ts : List Terminal} {e : Expr}
    (h : DerivesExpr ts e) : ∀ t ∈ ts, t.kind ≠ .newline := by
  induction h with
  | ite _ _ _ ihc ihy ihn => grind
  | _ => simp

theorem Grammar.DerivesBinding.kind_ne_newline {ts : List Terminal} {b : Binding}
    (h : DerivesBinding ts b) : ∀ t ∈ ts, t.kind ≠ .newline := by
  cases h with
  | mk name args he =>
    have := he.kind_ne_newline
    grind

theorem Grammar.DerivesProgram.head_kind {ts : List Terminal} {p : Program}
    (h : DerivesProgram ts p) : ∀ t ∈ ts.head?, t.kind = .newline := by
  cases h <;> simp

/-- Where terminals that start no line are followed by a line start or by
nothing, they are all of their row. -/
theorem eq_of_append_eq_append {xs ys us vs : List Terminal}
    (hx : ∀ t ∈ xs, t.kind ≠ .newline) (hy : ∀ t ∈ ys, t.kind ≠ .newline)
    (hu : ∀ t ∈ us.head?, t.kind = .newline) (hv : ∀ t ∈ vs.head?, t.kind = .newline)
    (h : xs ++ us = ys ++ vs) : xs = ys ∧ us = vs := by
  rcases List.append_eq_append_iff.1 h with ⟨as, rfl, rfl⟩ | ⟨as, rfl, rfl⟩
  all_goals cases as with
  | nil => simp
  | cons t as => simp_all

theorem Grammar.DerivesProgram.split_row {ts us : List Terminal} {p : Program} (hts : IsRow ts)
    (hus : ∀ t ∈ us.head?, t.kind = .newline) (h : DerivesProgram (ts ++ us) p) :
    ∃ q r, DerivesProgram ts q ∧ DerivesProgram us r ∧ p.bindings = q.bindings ++ r.bindings := by
  obtain rfl | ⟨t, xs, rfl, ht, hxs⟩ := hts
  · exact ⟨⟨[]⟩, p, .nil, h, rfl⟩
  · generalize hw : t :: xs ++ us = w at h
    cases h with
    | nil => cases hw
    | @cons text ys vs b q hb hq =>
      simp only [List.cons_append, List.cons.injEq] at hw
      obtain ⟨rfl, hw⟩ := hw
      obtain ⟨rfl, rfl⟩ := eq_of_append_eq_append hxs hb.kind_ne_newline hus hq.head_kind hw
      refine ⟨⟨[b]⟩, q, ?_, hq, rfl⟩
      simpa using DerivesProgram.cons text hb .nil

theorem Grammar.DerivesProgram.bindings_of_isRow {ts : List Terminal} {p : Program}
    (hts : IsRow ts) (h : DerivesProgram ts p) :
    p.bindings.length ≤ 1 ∧ (p.bindings = [] ↔ ts = []) := by
  cases h with
  | nil => simp
  | @cons text ys vs b q hb hq =>
    obtain hts | ⟨t, xs, hts, -, hxs⟩ := hts
    · cases hts
    · obtain ⟨-, hts⟩ := List.cons.inj hts
      -- Another binding would start with a line start inside the row.
      have hend : ys ++ vs = xs ++ [] := by simpa using hts
      obtain ⟨-, rfl⟩ :=
        eq_of_append_eq_append hb.kind_ne_newline hxs hq.head_kind (by simp) hend
      cases hq
      simp

-- ---------------------------------------------------------------------------
-- Blank rows
-- ---------------------------------------------------------------------------

/-- After its blanks the row is over or a comment begins. -/
def IsBlankRow (row : List Char) : Prop :=
  row.dropWhile Lexeme.isBlank = [] ∨ ['/', '/'] <+: row.dropWhile Lexeme.isBlank

instance : DecidablePred IsBlankRow := fun _ => inferInstanceAs (Decidable (_ ∨ _))

theorem isBlankRow_cons {c : Char} (h : Lexeme.isBlank c) (cs : List Char) :
    IsBlankRow (c :: cs) ↔ IsBlankRow cs := by
  rw [IsBlankRow, List.dropWhile_cons_of_pos h, IsBlankRow]

theorem not_isBlankRow_cons {c : Char} (hb : ¬Lexeme.isBlank c) (hs : c ≠ '/')
    (cs : List Char) : ¬IsBlankRow (c :: cs) := by
  rw [IsBlankRow, List.dropWhile_cons_of_neg hb]
  simp [hs.symm]

theorem Lexeme.not_isBlankRow {l : Lexeme} {t : Terminal} (hl : l.WellFormed)
    (ht : l.terminal? = some t) (rest : List Char) : ¬IsBlankRow (l.chars ++ rest) := by
  cases l with
  | newline | blank | comment => cases ht
  | equals => exact not_isBlankRow_cons (by decide) (by decide) rest
  | word text =>
    cases text with
    | nil => exact hl.elim
    | cons c cs =>
      obtain ⟨hs, -, hb⟩ := not_layout_of_isWordChar (isWordChar_of_isWordStart hl.1)
      exact not_isBlankRow_cons hb hs _
  | digits text =>
    obtain ⟨c, cs, rfl⟩ := List.exists_cons_of_ne_nil hl.1
    obtain ⟨hs, -, hb⟩ :=
      not_layout_of_isWordChar (isWordChar_of_isDigit (hl.2 c List.mem_cons_self))
    exact not_isBlankRow_cons hb hs _

theorem Lexed.eq_nil {ls : List Lexeme} (h : Lexed [] ls) : ls = [] := by
  cases ls with
  | nil => rfl
  | cons l ls =>
    obtain ⟨rest, hcs, hl, -⟩ := lexed_cons.1 h
    exact absurd (List.append_eq_nil_iff.1 hcs.symm).1 hl.chars_ne_nil

theorem Lexed.filterMap_eq_nil_iff {cs : List Char} {ls : List Lexeme} (h : Lexed cs ls)
    (hn : '\n' ∉ cs) : ls.filterMap Lexeme.terminal? = [] ↔ IsBlankRow cs := by
  induction ls generalizing cs with
  | nil =>
    obtain rfl := h.chars_eq
    simp [IsBlankRow]
  | cons l ls ih =>
    obtain ⟨rest, rfl, hl, he, -, hr⟩ := lexed_cons.1 h
    have hrest : '\n' ∉ rest := fun hm => hn (List.mem_append_right _ hm)
    cases ht : l.terminal? with
    | some t => simp [List.filterMap_cons_some ht, Lexeme.not_isBlankRow hl ht]
    | none =>
      rw [List.filterMap_cons_none ht]
      cases l with
      | newline => simp [Lexeme.chars] at hn
      | blank c => rw [ih hr hrest, Lexeme.chars, List.singleton_append, isBlankRow_cons hl]
      | comment text =>
        -- Nothing but a line feed can follow the comment, and there is none.
        obtain rfl : rest = [] := by
          cases rest with
          | nil => rfl
          | cons c rest =>
            obtain rfl : c = '\n' := by simpa [Lexeme.takes] using he c rfl
            simp at hrest
        simp [hr.eq_nil, Lexeme.chars, IsBlankRow, Lexeme.isBlank]
      | word | digits | equals => cases ht

-- ---------------------------------------------------------------------------
-- Sources
-- ---------------------------------------------------------------------------

def parseRow (row : List Char) : Except Diagnostic Program := parseSource (.ofList row)

theorem parseRow_eq_ok_iff {row : List Char} {p : Program} :
    parseRow row = .ok p ↔
      ∃ ls, Lexed row ls ∧ DerivesProgram (Lexeme.terminals true ls) p := by
  rw [parseRow, parseSource_eq_ok_iff, String.toList_ofList]

theorem parseRow_append_newline {u v : List Char} (hu : '\n' ∉ u) {p : Program} :
    parseRow (u ++ '\n' :: v) = .ok p ↔
      ∃ q r, parseRow u = .ok q ∧ parseRow v = .ok r ∧
        p.bindings = q.bindings ++ r.bindings := by
  simp only [parseRow_eq_ok_iff, lexed_append_newline]
  constructor
  · rintro ⟨_, ⟨ms, ns, rfl, hm, hn⟩, hp⟩
    rw [terminals_append_newline] at hp
    obtain ⟨q, r, hq, hr, hpqr⟩ :=
      hp.split_row (isRow_terminals (hm.not_mem_newline hu)) (head_terminals_true ns)
    exact ⟨q, r, ⟨ms, hm, hq⟩, ⟨ns, hn, hr⟩, hpqr⟩
  · rintro ⟨q, r, ⟨ms, hm, hq⟩, ⟨ns, hn, hr⟩, hpqr⟩
    refine ⟨_, ⟨ms, ns, rfl, hm, hn⟩, ?_⟩
    rw [terminals_append_newline]
    obtain ⟨bs⟩ := p
    obtain rfl : bs = q.bindings ++ r.bindings := hpqr
    exact hq.append hr

theorem parseRow_bindings {row : List Char} (hn : '\n' ∉ row) {q : Program}
    (h : parseRow row = .ok q) :
    q.bindings.length ≤ 1 ∧ (q.bindings = [] ↔ IsBlankRow row) := by
  obtain ⟨ls, hl, hq⟩ := parseRow_eq_ok_iff.1 h
  have hls := hl.not_mem_newline hn
  obtain ⟨hlen, hnil⟩ := hq.bindings_of_isRow (isRow_terminals hls)
  refine ⟨hlen, hnil.trans ?_⟩
  rw [← hl.filterMap_eq_nil_iff hn, terminals_true hls]
  split <;> simp_all

theorem parseRow_eq_ok_iff_rows (cs : List Char) (p : Program) :
    parseRow cs = .ok p ↔
      ∃ ps : List Program, (rows cs).map parseRow = ps.map .ok ∧
        p.bindings = ps.flatMap Program.bindings := by
  induction cs using Text.rows_induction generalizing p with
  | row u hu =>
    rw [Text.rows_of_not_mem hu]
    constructor
    · intro h
      exact ⟨[p], by simp [h], by simp⟩
    · rintro ⟨ps, hps, hp⟩
      obtain ⟨q, rfl, hq⟩ : ∃ q, ps = [q] ∧ parseRow u = .ok q := by
        cases ps with
        | nil => cases hps
        | cons q qs => simp_all
      obtain rfl : p = q := by cases p; cases q; simp_all
      exact hq
  | cons u v hu ih =>
    rw [parseRow_append_newline hu, Text.rows_append_newline, Text.rows_of_not_mem hu]
    constructor
    · rintro ⟨q, r, hq, hr, hp⟩
      obtain ⟨rs, hrs, hbs⟩ := (ih r).1 hr
      exact ⟨q :: rs, by simp [hq, hrs], by simp [hp, hbs]⟩
    · rintro ⟨ps, hps, hp⟩
      cases ps with
      | nil => cases hps
      | cons q rs =>
        obtain ⟨hq, hrs⟩ := List.cons.inj hps
        exact ⟨q, ⟨rs.flatMap Program.bindings⟩, hq, (ih _).2 ⟨rs, hrs, rfl⟩, by simpa using hp⟩

theorem map_parseRow_filter {rs : List (List Char)} {ps : List Program}
    (hn : ∀ row ∈ rs, '\n' ∉ row) (h : rs.map parseRow = ps.map .ok) :
    (rs.filter (¬IsBlankRow ·)).map parseRow
      = (ps.flatMap Program.bindings).map fun b => .ok ⟨[b]⟩ := by
  induction rs generalizing ps with
  | nil =>
    obtain rfl : ps = [] := by simpa using h.symm
    rfl
  | cons row rs ih =>
    cases ps with
    | nil => cases h
    | cons q qs =>
      obtain ⟨hq, hqs⟩ := List.cons.inj h
      obtain ⟨hrow, hrs⟩ := List.forall_mem_cons.1 hn
      obtain ⟨hlen, hnil⟩ := parseRow_bindings hrow hq
      obtain ⟨bs⟩ := q
      by_cases hb : IsBlankRow row
      · obtain rfl : bs = [] := hnil.2 hb
        simpa [hb] using ih hrs hqs
      · obtain ⟨b, rfl⟩ : ∃ b, bs = [b] := by
          cases bs with
          | nil => exact absurd (hnil.1 rfl) hb
          | cons b bs =>
            obtain rfl : bs = [] := by simpa using hlen
            exact ⟨b, rfl⟩
        have hrest := ih hrs hqs
        simp_all

/-- A source is read exactly if each row is, and then as the bindings of its
rows in order. A row has one binding or none, and none exactly if it is blank,
so the bindings are those of the rows that are not. -/
theorem parseSource_eq_ok_iff_rows (source : String) :
    (rows source.toList).length = source.toList.count '\n' + 1 ∧
    (∀ p, parseSource source = .ok p ↔
      ∃ ps : List Program, (rows source.toList).map parseRow = ps.map .ok ∧
        p.bindings = ps.flatMap Program.bindings) ∧
    (∀ row ∈ rows source.toList, ∀ q, parseRow row = .ok q →
      q.bindings.length ≤ 1 ∧ (q.bindings = [] ↔ IsBlankRow row)) ∧
    ∀ p, parseSource source = .ok p →
      ((rows source.toList).filter (¬IsBlankRow ·)).map parseRow
        = p.bindings.map (fun b => .ok ⟨[b]⟩) ∧
      p.bindings.length = (rows source.toList).countP (¬IsBlankRow ·) := by
  have hiff : ∀ p, parseSource source = .ok p ↔
      ∃ ps : List Program, (rows source.toList).map parseRow = ps.map .ok ∧
        p.bindings = ps.flatMap Program.bindings := by
    intro p
    rw [← parseRow_eq_ok_iff_rows, parseRow, String.ofList_toList]
  refine ⟨Text.length_rows _, hiff, fun row hrow q hq => ?_, fun p hp => ?_⟩
  · exact parseRow_bindings (Text.not_mem_of_mem_rows hrow) hq
  · obtain ⟨ps, hps, hbs⟩ := (hiff p).1 hp
    have hmap := map_parseRow_filter (fun row hrow => Text.not_mem_of_mem_rows hrow) hps
    rw [← hbs] at hmap
    refine ⟨hmap, ?_⟩
    rw [List.countP_eq_length_filter]
    simpa using (congrArg List.length hmap).symm

/-- Rows of every shape: a binding before a carriage return, nothing, a comment,
and a binding before a comment. -/
def mixedRows : String := "let x = 1\r\n\n \t// let\nlet f a = if a then x else 2 //"

theorem parseSource_mixedRows :
    (∃ p, parseSource mixedRows = .ok p ∧ p.bindings.length = 2) ∧
    ∃ q, parseRow " \t// let".toList = .ok q ∧ q.bindings = [] := by
  obtain ⟨-, -, hrow, hsource⟩ := parseSource_eq_ok_iff_rows mixedRows
  constructor
  · obtain ⟨p, hp⟩ : ∃ p, parseSource mixedRows = .ok p := exists_eq_ok (by decide +kernel)
    refine ⟨p, hp, ?_⟩
    rw [(hsource p hp).2]
    decide +kernel
  · obtain ⟨q, hq⟩ : ∃ q, parseRow " \t// let".toList = .ok q := exists_eq_ok (by decide +kernel)
    have hnil := (hrow _ (by decide +kernel) q hq).2
    exact ⟨q, hq, hnil.2 (by decide +kernel)⟩

end LetIf
