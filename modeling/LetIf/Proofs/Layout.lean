import LetIf.Proofs.LineEndings
import Mathlib.Logic.Relation

/-!
# Layout

Blanks may be added at either end of a row and before any token, a comment at
the end of a row, and blank rows anywhere. None of this changes the terminals.
-/

namespace LetIf

open Lexeme (isBlank)
open Text (rows)

inductive Widened (row : List Char) : List Char → Prop
  | indent {w : List Char} : (∀ c ∈ w, isBlank c) → Widened row (w ++ row)
  | trail {w : List Char} : (∀ c ∈ w, isBlank c) → Widened row (row ++ w)
  | comment (text : List Char) : Widened row (row ++ '/' :: '/' :: text)

/-- One change of layout: a row is widened, a blank row is put between rows, or
blanks go before a token, which is where its span starts. Nothing with a line
feed is added to a row, since rows have none. -/
inductive Relaid (source source' : String) : Prop
  | widen {xs ys : List (List Char)} {row row' : List Char} :
      rows source.toList = xs ++ row :: ys → Widened row row' →
      rows source'.toList = xs ++ row' :: ys → Relaid source source'
  | insert {xs ys : List (List Char)} {row : List Char} :
      rows source.toList = xs ++ ys → IsBlankRow row →
      rows source'.toList = xs ++ row :: ys → Relaid source source'
  | space {u v w : List Char} {tokens : List Token} {t : Token} :
      tokenize source = .ok tokens → t ∈ tokens → t.kind ≠ .newline → t.kind ≠ .eof →
      t.span.start = .after u → source.toList = u ++ v → (∀ c ∈ w, isBlank c) →
      source'.toList = u ++ (w ++ v) → Relaid source source'

-- ---------------------------------------------------------------------------
-- The terminals of a text
-- ---------------------------------------------------------------------------

def Yields (cs : List Char) (ts : List Terminal) : Prop :=
  ∃ ls, Lexed cs ls ∧ Lexeme.terminals true ls = ts

def RowsYield : List (List Char) → List Terminal → Prop
  | [], ts => ts = []
  | row :: rs, ts => ∃ us vs, ts = us ++ vs ∧ Yields row us ∧ RowsYield rs vs

theorem yields_append_newline {u v : List Char} {ts : List Terminal} :
    Yields (u ++ '\n' :: v) ts ↔ ∃ us vs, ts = us ++ vs ∧ Yields u us ∧ Yields v vs := by
  simp only [Yields, lexed_append_newline]
  constructor
  · rintro ⟨_, ⟨ms, ns, rfl, hm, hn⟩, rfl⟩
    exact ⟨_, _, terminals_append_newline true ms ns, ⟨ms, hm, rfl⟩, ns, hn, rfl⟩
  · rintro ⟨_, _, rfl, ⟨ms, hm, rfl⟩, ns, hn, rfl⟩
    exact ⟨_, ⟨ms, ns, rfl, hm, hn⟩, terminals_append_newline true ms ns⟩

theorem yields_iff_rows {cs : List Char} {ts : List Terminal} :
    Yields cs ts ↔ RowsYield (rows cs) ts := by
  induction cs using Text.rows_induction generalizing ts with
  | row u hu => simp [Text.rows_of_not_mem hu, RowsYield]
  | cons u v hu ih =>
    simp only [Text.rows_append_newline, Text.rows_of_not_mem hu, List.singleton_append, RowsYield,
      yields_append_newline, ih]

section
variable {xs ys : List (List Char)} {row : List Char} {ts : List Terminal}

theorem rowsYield_append :
    RowsYield (xs ++ ys) ts ↔ ∃ us vs, ts = us ++ vs ∧ RowsYield xs us ∧ RowsYield ys vs := by
  induction xs generalizing ts with
  | nil => simp [RowsYield]
  | cons row xs ih =>
    simp only [List.cons_append, RowsYield, ih]
    constructor
    · rintro ⟨us, _, rfl, hrow, vs, ws, rfl, hx, hy⟩
      exact ⟨us ++ vs, ws, by simp, ⟨us, vs, rfl, hrow, hx⟩, hy⟩
    · rintro ⟨_, ws, rfl, ⟨us, vs, rfl, hrow, hx⟩, hy⟩
      exact ⟨us, vs ++ ws, by simp, hrow, vs, ws, rfl, hx, hy⟩

theorem RowsYield.replace {row' : List Char} (h : RowsYield (xs ++ row :: ys) ts)
    (hrow : ∀ us, Yields row us → Yields row' us) : RowsYield (xs ++ row' :: ys) ts := by
  obtain ⟨us, _, rfl, hx, vs, ws, rfl, hr, hy⟩ := rowsYield_append.1 h
  exact rowsYield_append.2 ⟨us, _, rfl, hx, vs, ws, rfl, hrow vs hr, hy⟩

theorem RowsYield.insert (h : RowsYield (xs ++ ys) ts) (hrow : Yields row []) :
    RowsYield (xs ++ row :: ys) ts := by
  obtain ⟨us, vs, rfl, hx, hy⟩ := rowsYield_append.1 h
  exact rowsYield_append.2 ⟨us, vs, rfl, hx, [], vs, rfl, hrow, hy⟩

end

-- ---------------------------------------------------------------------------
-- Blanks between lexemes
-- ---------------------------------------------------------------------------

theorem Lexeme.not_isComment_of_ends {l m : Lexeme} {rest : List Char} (hl : l.WellFormed)
    (hn : l ≠ .newline) (he : m.Ends (l.chars ++ rest)) : ¬m.IsComment := by
  intro hcomment
  obtain ⟨c, cs, hc⟩ := List.exists_cons_of_ne_nil hl.chars_ne_nil
  have hfeed := l.not_mem_chars hl hn
  rw [hc] at he hfeed
  exact hcomment.not_ends (fun heq => hfeed (by simp [heq])) he

section
variable {w : List Char} (hw : ∀ c ∈ w, isBlank c)
include hw

theorem Lexed.blanks {v : List Char} {ls : List Lexeme} (h : Lexed v ls) :
    Lexed (w ++ v) (w.map .blank ++ ls) := by
  induction w with
  | nil => exact h
  | cons c w ih =>
    obtain ⟨hc, hw⟩ := List.forall_mem_cons.1 hw
    exact lexed_cons.2 ⟨w ++ v, rfl, hc, fun _ _ => Bool.false_ne_true, rfl, ih hw⟩

/-- Blanks go between any two lexemes of which the second stands for a terminal,
since no comment is then open. -/
theorem Lexed.insert_blanks {cs : List Char} {ms ns : List Lexeme} {l : Lexeme} {t : Terminal}
    (h : Lexed cs (ms ++ l :: ns)) (ht : l.terminal? = some t) :
    Lexed (ms.flatMap Lexeme.chars ++ (w ++ (l :: ns).flatMap Lexeme.chars))
      (ms ++ (w.map .blank ++ l :: ns)) := by
  obtain ⟨hms, hl⟩ := settled_append.1 h.settled
  obtain ⟨hsettled, hends⟩ := Lexeme.settled_iff.1 hms
  have hrest : Lexed ((l :: ns).flatMap Lexeme.chars) (l :: ns) :=
    ⟨hl, rfl, fun m hm => h.accepted m (List.mem_append_right ms hm)⟩
  have hblanks := hrest.blanks hw
  refine ⟨settled_append.2 ⟨?_, hblanks.settled⟩, ?_, fun m hm => ?_⟩
  · rw [hblanks.chars_eq, List.append_nil]
    refine Lexeme.settled_iff.2 ⟨hsettled, fun m hm => ?_⟩
    cases w with
    | nil => simpa using hends m hm
    | cons c w =>
      rintro d ⟨⟩ htakes
      refine (Lexeme.not_layout_of_isWordChar (Lexeme.isWordChar_of_takes ?_ htakes)).2.2
        (hw c List.mem_cons_self)
      exact Lexeme.not_isComment_of_ends hl.1 (by rintro rfl; cases ht) (by simpa using hends m hm)
  · rw [List.flatMap_append, hblanks.chars_eq]
  · rcases List.mem_append.1 hm with hm | hm
    · exact h.accepted m (List.mem_append_left _ hm)
    · exact hblanks.accepted m hm

end

theorem terminals_append_blanks (fresh : Bool) (ms : List Lexeme) (w : List Char)
    (ns : List Lexeme) :
    Lexeme.terminals fresh (ms ++ (w.map .blank ++ ns)) = Lexeme.terminals fresh (ms ++ ns) := by
  induction ms generalizing fresh with
  | nil =>
    induction w with
    | nil => rfl
    | cons c w ih => simpa [Lexeme.terminals, Lexeme.terminal?] using ih
  | cons l ms ih =>
    rw [List.cons_append, List.cons_append]
    cases ht : l.terminal? with
    | none => rw [terminals_cons_none ht, terminals_cons_none ht, ih]
    | some t => rw [terminals_cons_some ht, terminals_cons_some ht, ih]

-- ---------------------------------------------------------------------------
-- Changes of one row
-- ---------------------------------------------------------------------------

section
variable {u : List Char} {ts : List Terminal}

theorem Yields.append_blankRow (h : Yields u ts) {tail : List Char} (hn : '\n' ∉ tail)
    (hb : IsBlankRow tail) : Yields (u ++ tail) ts := by
  obtain ⟨ls, hl, rfl⟩ := h
  obtain ⟨ms, hm, hread⟩ := hl.exists_append_blankRow hn hb
  refine ⟨ms, hm, ?_⟩
  calc Lexeme.terminals true ms
    _ = (Place.start.read ms).map Token.toTerminal := (terminals_read Place.start ms).symm
    _ = (Place.start.read ls).map Token.toTerminal := by rw [hread]
    _ = Lexeme.terminals true ls := terminals_read Place.start ls

theorem yields_of_isBlankRow {row : List Char} (hn : '\n' ∉ row) (hb : IsBlankRow row) :
    Yields row [] := by
  have hnil : Yields [] [] := ⟨[], .nil, rfl⟩
  exact hnil.append_blankRow hn hb

theorem Yields.widened {row : List Char} (h : Yields u ts) (hwide : Widened u row)
    (hn : '\n' ∉ row) : Yields row ts := by
  cases hwide with
  | indent hw =>
    obtain ⟨ls, hl, rfl⟩ := h
    exact ⟨_, hl.blanks hw, terminals_append_blanks true [] _ ls⟩
  | trail hw =>
    exact h.append_blankRow (fun hm => hn (List.mem_append_right _ hm)) (isBlankRow_of_blank hw)
  | comment text =>
    have hb : IsBlankRow ('/' :: '/' :: text) := .inr (by simp [isBlank])
    exact h.append_blankRow (fun hm => hn (List.mem_append_right _ hm)) hb

end

-- ---------------------------------------------------------------------------
-- Blanks before a token
-- ---------------------------------------------------------------------------

theorem Place.exists_lexeme_of_mem_read {p : Place} {ls : List Lexeme} {t : Token}
    (h : t ∈ p.read ls) : ∃ ms l ns, ls = ms ++ l :: ns ∧ t ∈ (p.through ms).tokens l := by
  induction ls generalizing p with
  | nil => simp [Place.read] at h
  | cons l ls ih =>
    rcases List.mem_append.1 h with h | h
    · exact ⟨[], l, ls, rfl, h⟩
    · obtain ⟨ms, m, ns, rfl, ht⟩ := ih h
      exact ⟨l :: ms, m, ns, rfl, ht⟩

theorem exists_lexeme_of_mem_tokens {source : String} {tokens : List Token} {t : Token}
    (h : tokenize source = .ok tokens) (ht : t ∈ tokens) (hn : t.kind ≠ .newline)
    (he : t.kind ≠ .eof) :
    ∃ ms l ns, Lexed source.toList (ms ++ l :: ns) ∧ l.terminal? = some t.toTerminal ∧
      t.span.start = .after (ms.flatMap Lexeme.chars) := by
  obtain ⟨ls, hl, rfl⟩ := tokenize_eq_ok_iff.1 h
  rcases List.mem_append.1 ht with ht | ht
  · obtain ⟨ms, l, ns, rfl, hmem⟩ := Place.exists_lexeme_of_mem_read ht
    have hms : ∀ m ∈ ms, m.WellFormed := fun m hm =>
      hl.settled.wellFormed m (List.mem_append_left _ hm)
    obtain ⟨word, hword, ⟨-, rfl⟩ | rfl⟩ := Place.mem_tokens hmem
    · exact absurd rfl hn
    · exact ⟨ms, l, ns, hl, hword, position_through_start hms⟩
  · obtain rfl := List.mem_singleton.1 ht
    exact absurd rfl he

theorem Yields.space {source : String} {u v w : List Char} {ts : List Terminal}
    {tokens : List Token} {t : Token} (h : Yields source.toList ts)
    (htokens : tokenize source = .ok tokens) (ht : t ∈ tokens) (hn : t.kind ≠ .newline)
    (he : t.kind ≠ .eof) (hstart : t.span.start = .after u) (hsource : source.toList = u ++ v)
    (hw : ∀ c ∈ w, isBlank c) : Yields (u ++ (w ++ v)) ts := by
  obtain ⟨ms, l, ns, hl, hword, hms⟩ := exists_lexeme_of_mem_tokens htokens ht hn he
  have hchars := hl.chars_eq
  rw [List.flatMap_append, hsource] at hchars
  obtain rfl := Position.after_inj hchars (hms.symm.trans hstart)
  obtain rfl := List.append_cancel_left hchars
  obtain ⟨ls, hls, rfl⟩ := h
  obtain ⟨rfl, -⟩ := Prod.mk.inj (hls.cut_eq.symm.trans hl.cut_eq)
  exact ⟨_, hl.insert_blanks hw hword, terminals_append_blanks true ms w (l :: ns)⟩

-- ---------------------------------------------------------------------------
-- Sources
-- ---------------------------------------------------------------------------

theorem not_mem_of_rows_eq {source : String} {xs ys : List (List Char)} {row : List Char}
    (h : rows source.toList = xs ++ row :: ys) : '\n' ∉ row :=
  Text.not_mem_of_mem_rows (h ▸ List.mem_append_right xs List.mem_cons_self)

theorem Yields.relaid {source source' : String} {ts : List Terminal}
    (h : Yields source.toList ts) (hstep : Relaid source source') : Yields source'.toList ts := by
  cases hstep with
  | widen hrows hwide hrows' =>
    rw [yields_iff_rows, hrows] at h
    rw [yields_iff_rows, hrows']
    exact h.replace fun us hus => hus.widened hwide (not_mem_of_rows_eq hrows')
  | insert hrows hblank hrows' =>
    rw [yields_iff_rows, hrows] at h
    rw [yields_iff_rows, hrows']
    exact h.insert (yields_of_isBlankRow (not_mem_of_rows_eq hrows') hblank)
  | space htokens ht hn he hstart hsource hw hsource' =>
    rw [hsource']
    exact h.space htokens ht hn he hstart hsource hw

theorem Yields.relaid_many {source source' : String} {ts : List Terminal}
    (h : Yields source.toList ts) (hsteps : Relation.ReflTransGen Relaid source source') :
    Yields source'.toList ts := by
  induction hsteps with
  | refl => exact h
  | tail _ hstep ih => exact ih.relaid hstep

theorem map_toTerminal_read (ls : List Lexeme) (q : Position) :
    (Place.start.read ls ++ [Token.eofAt q]).map Token.toTerminal
      = Lexeme.terminals true ls ++ [.eof] := by
  rw [List.map_append, terminals_read]
  rfl

theorem exists_yields {source : String} {tokens : List Token} (h : tokenize source = .ok tokens) :
    ∃ ts, Yields source.toList ts ∧ tokens.map Token.toTerminal = ts ++ [.eof] := by
  obtain ⟨ls, hl, rfl⟩ := tokenize_eq_ok_iff.1 h
  exact ⟨_, ⟨ls, hl, rfl⟩, map_toTerminal_read ls _⟩

theorem Yields.exists_tokens {source : String} {ts : List Terminal} (h : Yields source.toList ts) :
    ∃ tokens, tokenize source = .ok tokens ∧ tokens.map Token.toTerminal = ts ++ [.eof] := by
  obtain ⟨ls, hl, rfl⟩ := h
  exact ⟨_, tokenize_eq_ok_iff.2 ⟨ls, hl, rfl⟩, map_toTerminal_read ls _⟩

theorem terminals_ofTokens_eq (tokens : List Token) (source : String) :
    (Stream.ofTokens tokens source).terminals
      = (tokens.map Token.toTerminal).takeWhile fun t => t.kind ≠ .eof := by
  rw [Stream.terminals_ofTokens, List.takeWhile_map]
  simp [Function.comp_def, Token.isEof]

/-- A source with tokens keeps their kinds and spellings through any changes of
its layout, and is read as the same program or refused for the same cause. -/
theorem tokenize_relaid {source source' : String} {tokens : List Token}
    (h : tokenize source = .ok tokens) (hsteps : Relation.ReflTransGen Relaid source source') :
    (∃ tokens', tokenize source' = .ok tokens' ∧
      tokens'.map Token.toTerminal = tokens.map Token.toTerminal) ∧
    ((∃ p, parseSource source = .ok p ∧ parseSource source' = .ok p) ∨
      ∃ d d', parseSource source = .error d ∧ parseSource source' = .error d' ∧
        d.cause = d'.cause) := by
  obtain ⟨ts, hts, hmap⟩ := exists_yields h
  obtain ⟨tokens', h', hmap'⟩ := (hts.relaid_many hsteps).exists_tokens
  refine ⟨⟨tokens', h', hmap'.trans hmap.symm⟩, ?_⟩
  have hterminals : (Stream.ofTokens tokens source).terminals
      = (Stream.ofTokens tokens' source').terminals := by
    rw [terminals_ofTokens_eq, terminals_ofTokens_eq, hmap, hmap']
  rw [parseSource_of_tokenize h, parseSource_of_tokenize h']
  obtain ⟨p, hp, hp'⟩ | ⟨cause, i, t, t', -, -, hd, hd'⟩ := readLike_of_terminals_eq hterminals
  · exact .inl ⟨p, hp, hp'⟩
  · exact .inr ⟨_, _, hd, hd', rfl⟩

def dense : String := "let x=1"

/-- The same below a row with a comment, with blanks before the row and before
its sign, and a comment after it. -/
def spacious : String := " //let\n\tlet x\r =1//\r y"

theorem tokenize_spacious :
    Relation.ReflTransGen Relaid dense spacious ∧
    ∃ p, parseSource dense = .ok p ∧ parseSource spacious = .ok p := by
  obtain ⟨tokens, ht⟩ : ∃ tokens, tokenize dense = .ok tokens := exists_eq_ok (by decide +kernel)
  have hmem : ((tokenize dense).toOption.getD []).contains
      ⟨⟨.symbol, "="⟩, ⟨1, 6⟩, ⟨1, 7⟩⟩ := by decide +kernel
  rw [ht] at hmem
  have hspace : Relaid dense "let x\r =1" :=
    .space (u := "let x".toList) (v := "=1".toList) (w := "\r ".toList) ht
      (List.contains_iff_mem.1 hmem) nofun nofun (by decide +kernel) (by decide +kernel)
      (List.all_eq_true.1 (by decide +kernel)) (by decide +kernel)
  have hindent : Relaid "let x\r =1" "\tlet x\r =1" := by
    have hrow : rows "let x\r =1".toList = [] ++ "let x\r =1".toList :: [] := by decide +kernel
    have hwide : Widened "let x\r =1".toList ("\t".toList ++ "let x\r =1".toList) :=
      .indent (List.all_eq_true.1 (by decide +kernel))
    exact .widen hrow hwide (by decide +kernel)
  have hcomment : Relaid "\tlet x\r =1" "\tlet x\r =1//\r y" := by
    have hrow : rows "\tlet x\r =1".toList = [] ++ "\tlet x\r =1".toList :: [] := by decide +kernel
    exact .widen hrow (.comment "\r y".toList) (by decide +kernel)
  have hinsert : Relaid "\tlet x\r =1//\r y" spacious := by
    have hrows : rows "\tlet x\r =1//\r y".toList = [] ++ ["\tlet x\r =1//\r y".toList] := by
      decide +kernel
    have hblank : IsBlankRow " //let".toList := by decide +kernel
    exact .insert hrows hblank (by decide +kernel)
  have hsteps : Relation.ReflTransGen Relaid dense spacious :=
    .tail (.tail (.tail (.tail .refl hspace) hindent) hcomment) hinsert
  refine ⟨hsteps, ?_⟩
  obtain ⟨p, hp⟩ : ∃ p, parseSource dense = .ok p := exists_eq_ok (by decide +kernel)
  obtain ⟨-, h | ⟨d, d', hd, -⟩⟩ := tokenize_relaid ht hsteps
  · exact h
  · rw [hp] at hd
    cases hd

end LetIf
