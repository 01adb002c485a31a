import LetIf.Proofs.Indifference
import LetIf.Proofs.Joining
import LetIf.Proofs.Numeral
import LetIf.Proofs.Segmentation

/-!
# Number literals

A digit run that stands by itself in a source is one token, and what is around
it is read as it would be without it. A number token that no source has is read
by the same rule.
-/

namespace LetIf

open Grammar
open Lexeme (IsDigits Settled isWordChar)
open Numeral (decimal largest smallest Denotes Canonical)
open Text (lastRow)

-- ---------------------------------------------------------------------------
-- Digits in a source
-- ---------------------------------------------------------------------------

/-- The digits stand by themselves between two texts: the first has tokens and
leaves no comment, no word and no digit run open, and the second does not go on
with a digit. -/
structure StandsFree (u d v : String) : Prop where
  tokens : ∃ tokens, tokenize u = .ok tokens
  uncommented : ¬['/', '/'] <:+: lastRow u.toList
  before : ∀ c ∈ u.toList.getLast?, ¬isWordChar c
  digits : IsDigits d.toList
  after : ∀ c ∈ v.toList.head?, ¬c.isDigit

theorem StandsFree.exists_lexed {u d v : String} (h : StandsFree u d v) :
    ∃ ls, Lexed u.toList ls ∧ Settled (d.toList ++ v.toList) ls := by
  obtain ⟨tokens, ht⟩ := h.tokens
  obtain ⟨ls, hl, -⟩ := tokenize_eq_ok_iff.1 ht
  have hopen := h.uncommented
  rw [← hl.chars_eq] at hopen
  have hlast : ∀ l ∈ ls.getLast?, ¬l.IsComment := fun l hl' hc =>
    hopen ((Lexeme.slashes_lastRow_iff hl.settled).2 ⟨l, hl', hc⟩)
  obtain ⟨c, cs, hd⟩ := List.exists_cons_of_ne_nil h.digits.1
  have hc : c.isDigit := h.digits.2 c (hd ▸ List.mem_cons_self)
  refine ⟨ls, hl, Lexeme.settled_iff.2 ⟨hl.settled, ?_⟩⟩
  rw [hd]
  exact (ends_digit_iff hl.settled hlast hc).2 (hl.chars_eq ▸ h.before)

theorem settled_digits {ls ms : List Lexeme} {d v rest : List Char} (h : Settled (d ++ v) ls)
    (hd : IsDigits d) (he : (Lexeme.digits d).Ends v) (hm : Settled rest ms)
    (hv : ms.flatMap Lexeme.chars ++ rest = v) : Settled rest (ls ++ .digits d :: ms) := by
  subst hv
  refine settled_append.2 ⟨?_, hd, he, hm⟩
  rwa [List.flatMap_cons, List.append_assoc]

section
variable {u v : List Char} {d : String} {ls ms : List Lexeme} (hl : Lexed u ls)
  (hd : IsDigits d.toList) (hfit : Nat.ofDigitChars 10 d.toList 0 ≤ largest)
include hl hd hfit

theorem accepted_digits (hm : ∀ l ∈ ms, l.cause? = none) :
    ∀ l ∈ ls ++ .digits d.toList :: ms, l.cause? = none := by
  intro l hmem
  rcases List.mem_append.1 hmem with hmem | hmem
  · exact hl.accepted l hmem
  · rcases List.mem_cons.1 hmem with rfl | hmem
    · exact (spells_digits hd hfit).cause?_eq
    · exact hm l hmem

variable (hs : Settled (d.toList ++ v) ls) (he : (Lexeme.digits d.toList).Ends v)
include hs he

theorem Lexed.digits (hm : Lexed v ms) :
    Lexed (u ++ (d.toList ++ v)) (ls ++ .digits d.toList :: ms) where
  settled := settled_digits hs hd he hm.settled (by simp [hm.chars_eq])
  chars_eq := by simp [hl.chars_eq, Lexeme.chars, hm.chars_eq]
  accepted := accepted_digits hl hd hfit hm.accepted

theorem Lexed.digits_stuck {rest : List Char} {cause : Cause} (hm : Stuck v ms rest cause) :
    Stuck (u ++ (d.toList ++ v)) (ls ++ .digits d.toList :: ms) rest cause where
  settled := settled_digits hs hd he hm.settled hm.chars_eq
  chars_eq := by simp [hl.chars_eq, Lexeme.chars, hm.chars_eq]
  accepted := accepted_digits hl hd hfit hm.accepted
  unfit := hm.unfit

end

section
variable {u d v : String} (h : StandsFree u d v)
include h

theorem StandsFree.tokenize_fit {us : List Token} (hfit : decimal d.toList ≤ largest)
    (hu : tokenize u = .ok us) :
    match tokenize v with
    | .ok vs => ∃ tokens, tokenize (u ++ d ++ v) = .ok tokens ∧
        visible tokens = visible us ++ ⟨.number, d⟩ :: visible vs
    | .error e => ∃ e', tokenize (u ++ d ++ v) = .error e' ∧ e'.cause = e.cause := by
  obtain ⟨ls, hl, hs⟩ := h.exists_lexed
  have hus := tokenize_eq_ok_iff.2 ⟨ls, hl, rfl⟩
  rw [hu, Except.ok.injEq] at hus
  rw [← Numeral.ofDigitChars_eq_decimal] at hfit
  have hsource : (u ++ d ++ v).toList = u.toList ++ (d.toList ++ v.toList) := by simp
  cases hv : tokenize v with
  | ok vs =>
    obtain ⟨ms, hm, rfl⟩ := tokenize_eq_ok_iff.1 hv
    have hjoined := hl.digits h.digits hfit hs h.after hm
    rw [← hsource] at hjoined
    refine ⟨_, tokenize_eq_ok_iff.2 ⟨_, hjoined, rfl⟩, ?_⟩
    rw [hus, visible_read, visible_read, visible_read, List.filterMap_append,
      List.filterMap_cons_some (spells_digits h.digits hfit).terminal?_eq]
  | error e =>
    obtain ⟨ms, rest, hm, -⟩ := exists_stuck hv
    have hjoined := hl.digits_stuck h.digits hfit hs h.after hm
    rw [← hsource] at hjoined
    exact ⟨_, hjoined.tokenize_eq, rfl⟩

theorem StandsFree.tokenize_unfit (hfit : largest < decimal d.toList) :
    ∃ e, tokenize (u ++ d ++ v) = .error e ∧ e.cause = .numberOutOfRange d := by
  obtain ⟨ls, hl, hs⟩ := h.exists_lexed
  rw [← Numeral.ofDigitChars_eq_decimal] at hfit
  have hunfit : Unfit (d.toList ++ v.toList) (.numberOutOfRange (.ofList d.toList)) :=
    .number h.digits h.after hfit
  rw [String.ofList_toList] at hunfit
  have hstuck : Stuck (u ++ d ++ v).toList ls (d.toList ++ v.toList) (.numberOutOfRange d) :=
    ⟨hs, by simp [hl.chars_eq], hl.accepted, hunfit⟩
  exact ⟨_, hstuck.tokenize_eq, rfl⟩

end

-- ---------------------------------------------------------------------------
-- Number tokens
-- ---------------------------------------------------------------------------

theorem exists_terminals_eq {s : Stream} {t : Terminal} (h : s.next.toTerminal = t)
    (ht : t.kind ≠ .eof) : ∃ rest, s.terminals = t :: rest := by
  cases hw : s.word with
  | nil =>
    have hstop : s.next = s.stop := by simp [Stream.next, hw]
    rw [hstop] at h
    exact absurd (h ▸ s.kind_stop) ht
  | cons u us =>
    have hnext : s.next = u := by simp [Stream.next, hw]
    exact ⟨us.map Token.toTerminal, by rw [Stream.terminals, hw, List.map_cons, ← hnext, h]⟩

theorem expression_number (text : String) (rest : List Terminal) :
    expression (⟨.number, text⟩ :: rest) =
      match Numeral.read? text with
      | some n => .done (.num n) rest
      | none => .reject (.malformedNumber text) rest := by
  rw [expression_cons, if_neg (by simp [Terminal.is])]
  rfl

theorem run_expression_number {s : Stream} {text : String}
    (h : s.next.toTerminal = ⟨.number, text⟩) :
    (s.run expression).result =
      match Numeral.read? text with
      | some n => .ok (.num n)
      | none => .error (s.diagnosticAt (.malformedNumber text) s.next) := by
  obtain ⟨rest, hs⟩ := exists_terminals_eq h (by simp)
  cases hn : Numeral.read? text with
  | some n =>
    have hreading : expression s.terminals = .done (.num n) rest := by
      rw [hs, expression_number, hn]
    exact Stream.run_eq_ok_iff.2 (by rw [hreading, Reading.done])
  | none =>
    have hreading : expression s.terminals = .reject (.malformedNumber text) rest := by
      rw [hs, expression_number, hn]
    -- The refusal is about the token just read, which was the next one.
    have hl : leaves s.terminals .latest (expression s.terminals).rest :=
      ⟨_, by rw [hreading, hs, Reading.reject]⟩
    obtain ⟨t, ht, hd⟩ := run_of_error (f := ⟨.malformedNumber text, .latest⟩)
      (by rw [hreading, Reading.reject]) (List.nil_append _).symm hl
    obtain rfl : s.next = t := by
      rw [List.length_nil, ← List.head?_eq_getElem?, Stream.head?_ahead] at ht
      exact Option.some.inj ht
    exact hd

theorem read?_of_decimal {d : String} {n : Int64} (hd : IsDigits d.toList)
    (hn : n.toInt = decimal d.toList) : Numeral.read? d = some n :=
  Numeral.read?_eq_some_iff.2 (hn ▸ .unsigned hd)

-- ---------------------------------------------------------------------------
-- Written numbers
-- ---------------------------------------------------------------------------

/-- The expression is what the only row of the text holds, after its start. -/
def Expr.ReadFrom (text : String) (e : Expr) : Prop :=
  ∃ tokens, tokenize text = .ok tokens ∧
    (((Stream.ofTokens tokens text).skip 1).run expression).result = .ok e ∧
    (((Stream.ofTokens tokens text).skip 1).run expression).stream.next.kind = .eof

theorem kind_next_run {α : Type} {s : Stream} {rule : List Terminal → Reading α}
    (h : (rule s.terminals).rest = []) : (s.run rule).stream.next.kind = .eof := by
  have hword : (s.run rule).stream.word = [] := by
    rw [Stream.stream_run, Stream.word_skip, h, List.length_nil, Nat.sub_zero, List.drop_length]
  rw [Stream.next, hword]
  exact Stream.kind_stop _

theorem lexed_digits {d : String} (hd : IsDigits d.toList)
    (hfit : Nat.ofDigitChars 10 d.toList 0 ≤ largest) : Lexed d.toList [.digits d.toList] :=
  lexed_cons.2 ⟨[], by simp [Lexeme.chars], hd, by simp [Lexeme.Ends],
    (spells_digits hd hfit).cause?_eq, .nil⟩

theorem readFrom_digits {d : String} {n : Int64} (hd : IsDigits d.toList)
    (hn : n.toInt = decimal d.toList) : Expr.ReadFrom d (.num n) := by
  have hfit : Nat.ofDigitChars 10 d.toList 0 ≤ largest := by
    have hu := n.toInt_lt
    rw [Numeral.ofDigitChars_eq_decimal, ← hn]
    unfold largest
    omega
  have hl := lexed_digits hd hfit
  refine ⟨_, tokenize_eq_ok_iff.2 ⟨_, hl, rfl⟩, ?_⟩
  have hterminals : (Stream.ofTokens (Place.start.read [.digits d.toList]
      ++ [.eofAt (Place.start.through [.digits d.toList]).position]) d).terminals
      = [.newline, ⟨.number, d⟩] := by
    rw [terminals_stream_read, terminals_cons_some (spells_digits hd hfit).terminal?_eq]
    rfl
  generalize Stream.ofTokens (Place.start.read [.digits d.toList]
    ++ [.eofAt (Place.start.through [.digits d.toList]).position]) d = s at hterminals
  have hskip : (s.skip 1).terminals = [⟨.number, d⟩] := by
    rw [Stream.terminals, Stream.word_skip, List.map_drop, ← Stream.terminals, hterminals,
      List.drop_one, List.tail_cons]
  have hreading : expression (s.skip 1).terminals = .done (.num n) [] := by
    rw [hskip, expression_number, read?_of_decimal hd hn]
  constructor
  · exact Stream.run_eq_ok_iff.2 (by rw [hreading, Reading.done])
  · exact kind_next_run (by rw [hreading, Reading.done])

/-- Digits whose number fits are one token of any source in which they stand by
themselves, and that token is an expression, written in canonical form and read
from that as it was. Digits whose number does not fit are refused. Any number
token is read as the integer that it denotes, and refused otherwise. -/
theorem number_literals_exact :
    (∀ d : String, IsDigits d.toList → decimal d.toList ≤ largest →
      (∀ u v us, StandsFree u d v → tokenize u = .ok us →
        match tokenize v with
        | .ok vs => ∃ tokens, tokenize (u ++ d ++ v) = .ok tokens ∧
            visible tokens = visible us ++ ⟨.number, d⟩ :: visible vs
        | .error e => ∃ e', tokenize (u ++ d ++ v) = .error e' ∧ e'.cause = e.cause) ∧
      ∃ n : Int64, n.toInt = decimal d.toList ∧
        (∀ s : Stream, s.next.toTerminal = ⟨.number, d⟩ →
          (s.run expression).result = .ok (.num n)) ∧
        Canonical (Expr.num n).text.toList (decimal d.toList) ∧
        Expr.ReadFrom (Expr.num n).text (.num n)) ∧
    (∀ u d v, StandsFree u d v → largest < decimal d.toList →
      ∃ e, tokenize (u ++ d ++ v) = .error e ∧ e.cause = .numberOutOfRange d) ∧
    ∀ (t : String) (s : Stream), s.next.toTerminal = ⟨.number, t⟩ →
      (∀ n : Int64, (s.run expression).result = .ok (.num n) ↔ Denotes t.toList n.toInt) ∧
      ((s.run expression).result = .error (s.diagnosticAt (.malformedNumber t) s.next) ↔
        ¬∃ m, Denotes t.toList m ∧ smallest ≤ m ∧ m ≤ largest) := by
  refine ⟨fun d hd hfit => ⟨fun u v us h hu => h.tokenize_fit hfit hu, ?_⟩,
    fun u d v h hfit => h.tokenize_unfit hfit, fun t s ht => ?_⟩
  · obtain ⟨n, hn⟩ := Numeral.exists_toInt_eq (by unfold smallest; omega) hfit
    have htext : (Expr.num n).text.toList = Nat.toDigits 10 (decimal d.toList) := by
      rw [Expr.text, Expr.terminals, ← Numeral.toList_write hn]
      rfl
    have hcanonical := Numeral.canonical_toDigits (decimal d.toList)
    rw [← htext] at hcanonical
    refine ⟨n, hn, fun s hs => ?_, hcanonical, ?_⟩
    · rw [run_expression_number hs, read?_of_decimal hd hn]
    · exact readFrom_digits hcanonical.digits (by rw [hn, hcanonical.decimal_eq])
  · rw [run_expression_number ht, ← Numeral.read?_eq_none_iff]
    simp only [← Numeral.read?_eq_some_iff]
    cases Numeral.read? t <;> simp

theorem number_literals_exact_atLimits :
    (∃ tokens, tokenize ("x=" ++ "09223372036854775807" ++ "else") = .ok tokens ∧
      visible tokens =
        [⟨.name, "x"⟩, ⟨.symbol, "="⟩, ⟨.number, "09223372036854775807"⟩, ⟨.keyword, "else"⟩]) ∧
    (∃ e, tokenize ("x=" ++ "9223372036854775808" ++ "") = .error e ∧
      e.cause = .numberOutOfRange "9223372036854775808") ∧
    ((Stream.ofTokens [⟨⟨.number, "-9223372036854775808"⟩, .at ⟨1, 1⟩⟩] "").run expression).result
      = .ok (.num Int64.minValue) := by
  obtain ⟨hfit, hunfit, hany⟩ := number_literals_exact
  have free : ∀ d v : String, d.toList ≠ [] → d.toList.all Char.isDigit →
      v.toList.head?.all (!·.isDigit) → StandsFree "x=" d v := by
    intro d v hne hd hv
    have hdigits : Lexeme.IsDigits d.toList := ⟨hne, List.all_eq_true.1 hd⟩
    refine ⟨exists_eq_ok (by decide +kernel), by decide +kernel, ?_, hdigits, ?_⟩
    · intro c hc
      obtain rfl : '=' = c := Option.some.inj (.trans (by decide +kernel) hc)
      decide
    · intro c hc
      simpa using (Option.all_eq_true _ _).1 hv c hc
  refine ⟨?_, ?_, ?_⟩
  · have hfree := free "09223372036854775807" "else" (by decide +kernel) (by decide +kernel)
      (by decide +kernel)
    obtain ⟨us, hu⟩ := hfree.tokens
    obtain ⟨vs, hv⟩ : ∃ vs, tokenize "else" = .ok vs := exists_eq_ok (by decide +kernel)
    have h := (hfit _ hfree.digits (by decide +kernel)).1 "x=" "else" us hfree hu
    rw [hv] at h
    obtain ⟨tokens, ht, hvisible⟩ := h
    have hus : (tokenize "x=").toOption.map visible = some [⟨.name, "x"⟩, ⟨.symbol, "="⟩] := by
      decide +kernel
    have hvs : (tokenize "else").toOption.map visible = some [⟨.keyword, "else"⟩] := by
      decide +kernel
    rw [hu] at hus
    rw [hv] at hvs
    exact ⟨tokens, ht, by rw [hvisible, Option.some.inj hus, Option.some.inj hvs]; rfl⟩
  · exact hunfit "x=" _ "" (free _ "" (by decide +kernel) (by decide +kernel) (by decide +kernel))
      (by decide +kernel)
  · refine ((hany "-9223372036854775808" _ (by decide +kernel)).1 Int64.minValue).2 ?_
    exact Numeral.read?_eq_some_iff.1 (by decide +kernel)

end LetIf
