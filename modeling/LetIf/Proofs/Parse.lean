import LetIf.Proofs.Grammar.Programs
import LetIf.Proofs.Scan
import LetIf.Proofs.Stream

/-!
# Which tokens are read, and where the others are refused

The tokens before the first end token are read as a program exactly if they
derive it. Otherwise there is one token at which every program that begins like
the tokens has to go on differently, and the diagnostic is about that token.
-/

namespace LetIf.Grammar

/-- A list of tokens is read as a program exactly if what stands before its
first end token derives that program, and no text derives two programs. -/
theorem parse_eq_ok_iff_derives :
    (∀ (tokens : List Token) (source : String) (p : Program),
      (Stream.ofTokens tokens source).parse.result = .ok p ↔
        DerivesProgram ((tokens.takeWhile (!·.isEof)).map Token.toTerminal) p) ∧
    ∀ (ts : List Terminal) (p q : Program), DerivesProgram ts p → DerivesProgram ts q → p = q := by
  refine ⟨fun tokens source p => ?_, fun ts p q => DerivesProgram.unique⟩
  rw [Stream.parse, Stream.run_eq_ok_iff, Stream.terminals_ofTokens, whole_eq_ok_iff]

/-- A row that an end token closes, with more tokens beyond it. -/
def closedRow : List Token :=
  [⟨⟨.newline, ""⟩, .at ⟨1, 1⟩⟩, ⟨⟨.keyword, "let"⟩, .at ⟨1, 1⟩⟩, ⟨⟨.name, "1 2"⟩, .at ⟨1, 5⟩⟩,
    ⟨⟨.symbol, "="⟩, .at ⟨1, 9⟩⟩, ⟨⟨.number, "+07"⟩, .at ⟨1, 11⟩⟩, ⟨⟨.eof, "end"⟩, .at ⟨1, 14⟩⟩,
    ⟨⟨.symbol, "="⟩, .at ⟨2, 1⟩⟩]

theorem parse_closedRow :
    (Stream.ofTokens closedRow "").parse.result = .ok ⟨[⟨"1 2", [], .num 7⟩]⟩ ∧
    ∀ q, DerivesProgram ((closedRow.takeWhile (!·.isEof)).map Token.toTerminal) q →
      q = ⟨[⟨"1 2", [], .num 7⟩]⟩ := by
  have hn : Numeral.read? "+07" = some 7 := by decide +kernel
  have hd := DerivesProgram.cons "" (.mk "1 2" [] (.num hn)) .nil
  refine ⟨(parse_eq_ok_iff_derives.1 closedRow "" _).2 hd, ?_⟩
  intro q hq
  exact parse_eq_ok_iff_derives.2 _ q _ hq hd

section
variable {α : Type} {s : Stream} {before tail : List Terminal} {t : Token}

theorem getElem?_ahead_blamed {blame : Blame} {rest : List Terminal}
    (h : s.terminals = before ++ tail) (hl : leaves tail blame rest) :
    s.ahead[before.length]? = some ((s.skip (s.word.length - rest.length)).blamed blame) := by
  have hlen : s.word.length = before.length + tail.length := by
    simpa [Stream.terminals] using congrArg List.length h
  cases blame with
  | next =>
    obtain rfl : tail = rest := hl
    rw [hlen, Nat.add_sub_cancel]
    exact Stream.next_skip (by omega)
  | latest =>
    obtain ⟨u, rfl⟩ := hl
    rw [List.length_cons] at hlen
    rw [hlen, show before.length + (rest.length + 1) - rest.length = before.length + 1 by omega]
    exact Stream.latest_skip (by omega)

theorem run_error {rule : List Terminal → Reading α} {d : Diagnostic}
    (h : (s.run rule).result = .error d) :
    ∃ f, (rule s.terminals).result = .error f ∧ d = s.diagnosticAt f.cause
      ((s.skip (s.word.length - (rule s.terminals).rest.length)).blamed f.blame) := by
  cases hr : (rule s.terminals).result with
  | ok a => simp [Stream.run, hr] at h
  | error f =>
    simp only [Stream.run, hr, Except.error.injEq] at h
    exact ⟨f, rfl, by simp [← h, Stream.diagnosticAt]⟩

theorem ahead_cases (h : s.terminals = before ++ tail) (ht : s.ahead[before.length]? = some t) :
    (t.kind = .eof ∧ tail.head? = none) ∨ (t.kind ≠ .eof ∧ tail.head? = some t.toTerminal) := by
  obtain ⟨ws, xs, hword, rfl, rfl⟩ := List.map_eq_append_iff.1 h
  cases xs with
  | nil =>
    obtain rfl : s.stop = t := by simpa [Stream.ahead, hword] using ht
    exact .inl ⟨s.kind_stop, rfl⟩
  | cons x xs =>
    obtain rfl : x = t := by simpa [Stream.ahead, hword] using ht
    exact .inr ⟨s.kind_ne_eof x (by simp [hword]), rfl⟩

theorem take_ahead (h : s.terminals = before ++ tail) :
    (s.ahead.take before.length).map Token.toTerminal = before ∧
      ∀ u ∈ s.ahead.take before.length, u.kind ≠ .eof := by
  obtain ⟨ws, xs, hword, rfl, rfl⟩ := List.map_eq_append_iff.1 h
  have htake : s.ahead.take (ws.map Token.toTerminal).length = ws := by
    simp [Stream.ahead, hword]
  rw [htake]
  exact ⟨rfl, fun u hu => s.kind_ne_eof u (by simp [hword, hu])⟩

end

/-- The token `t` at index `i` is the first that no program has in its place.
It is not after the first end token, and if it is that token, then what comes
before it is no whole program. -/
structure FirstImpossible (tokens : List Token) (i : Nat) (t : Token) : Prop where
  getElem? : tokens[i]? = some t
  kind_ne_eof : ∀ u ∈ tokens.take i, u.kind ≠ .eof
  viable : Viable ((tokens.take i).map Token.toTerminal)
  impossible : if t.kind = .eof
    then ¬∃ p, DerivesProgram ((tokens.take i).map Token.toTerminal) p
    else ¬Viable ((tokens.take (i + 1)).map Token.toTerminal)

theorem FirstImpossible.not_lt {tokens : List Token} {i j : Nat} {t u : Token}
    (hi : FirstImpossible tokens i t) (hj : FirstImpossible tokens j u) : ¬i < j := by
  intro hij
  have hmem : t ∈ tokens.take j := List.mem_of_getElem? (by
    rw [List.getElem?_take_of_lt hij, hi.getElem?])
  -- No end token stands before `j`, so `i` is impossible by its terminal, yet
  -- that terminal belongs to the beginning before `j`.
  have himp := hi.impossible
  rw [if_neg (hj.kind_ne_eof t hmem)] at himp
  have hpre : (tokens.take (i + 1)) <+: tokens.take j := List.take_prefix_take_left (by omega)
  obtain ⟨us, hus⟩ := hpre
  have hv := hj.viable
  rw [← hus, List.map_append] at hv
  exact himp hv.of_append

/-- The cause is right about the token found and about what could have stood
in its place, after the terminals before it. -/
def Justified (before : List Terminal) (t : Terminal) : Cause → Prop
  | .unexpectedToken expected found =>
    found = t.describe ∧
      if expected = .kind .eof then ∃ p, DerivesProgram before p
      else ∀ u, expected.admits u → Viable (before ++ [u])
  | .unrecognisedExpression found =>
    found = t.describe ∧ ∀ {ts e}, DerivesExpr ts e → Viable (before ++ ts)
  | .malformedNumber text =>
    t = ⟨.number, text⟩ ∧ Numeral.read? text = none ∧
      ∀ {ts e}, DerivesExpr ts e → Viable (before ++ ts)
  | .malformedBoolean text =>
    t = ⟨.boolean, text⟩ ∧ text ≠ "true" ∧ text ≠ "false" ∧
      ∀ {ts e}, DerivesExpr ts e → Viable (before ++ ts)
  | .unrecognisedToken _ | .numberOutOfRange _ => False

theorem describeNext_eq {next : Option Terminal} {t : Terminal}
    (h : (t.kind = .eof ∧ next = none) ∨ (t.kind ≠ .eof ∧ next = some t)) :
    describeNext next.toList = t.describe := by
  rcases h with ⟨hk, rfl⟩ | ⟨-, rfl⟩
  · simp [describeNext, Terminal.describe, Terminal.eof, hk]
  · rfl

theorem Misfit.justified {before : List Terminal} {next : Option Terminal} {cause : Cause}
    {t : Terminal} (h : Misfit before next cause)
    (ht : (t.kind = .eof ∧ next = none) ∨ (t.kind ≠ .eof ∧ next = some t)) :
    Justified before t cause := by
  have hd := describeNext_eq ht
  have heq : ∀ {u}, next = some u → t = u := by
    rintro u rfl
    rcases ht with ⟨-, hn⟩ | ⟨-, hn⟩
    · cases hn
    · exact (Option.some.inj hn).symm
  rcases h.explains with he | ⟨rfl, p, hp⟩
  · cases cause with
    | unexpectedToken expected found =>
      have hne : expected ≠ .kind .eof := by
        rintro rfl
        exact not_viable_eof before "" (he.2 ⟨.eof, ""⟩ rfl)
      refine ⟨he.1.trans hd, ?_⟩
      rw [if_neg hne]
      exact he.2
    | unrecognisedExpression found => exact ⟨he.1.trans hd, he.2⟩
    | malformedNumber text => exact ⟨heq he.1, he.2⟩
    | malformedBoolean text => exact ⟨heq he.1, he.2⟩
    | unrecognisedToken | numberOutOfRange => exact he
  · exact ⟨hd, by simpa using ⟨p, hp⟩⟩

theorem Misfit.firstImpossible {s : Stream} {before tail : List Terminal} {cause : Cause}
    {t : Token} (h : Misfit before tail.head? cause) (hs : s.terminals = before ++ tail)
    (ht : s.ahead[before.length]? = some t) : FirstImpossible s.ahead before.length t where
  getElem? := ht
  kind_ne_eof := (take_ahead hs).2
  viable := (take_ahead hs).1.symm ▸ h.viable
  impossible := by
    have htake : (s.ahead.take (before.length + 1)).map Token.toTerminal
        = before ++ [t.toTerminal] := by
      rw [List.take_add_one, ht, List.map_append, (take_ahead hs).1]
      rfl
    rw [htake, (take_ahead hs).1]
    rcases ahead_cases hs ht with ⟨hk, hn⟩ | ⟨hk, hn⟩
    · rw [if_pos hk]
      rintro ⟨p, hp⟩
      exact h.impossible [] p hn.symm (by simpa using hp)
    · rw [if_neg hk]
      rintro ⟨us, p, hp⟩
      exact h.impossible (t.toTerminal :: us) p hn.symm (by simpa using hp)

/-- A refused list of tokens has exactly one first impossible token, not after
its first end token. The diagnostic is located at that token, shows its row,
and is right about what was found there and what could have been. -/
theorem parse_error_at_first_impossible {tokens : List Token} {source : String} {d : Diagnostic}
    (h : (Stream.ofTokens tokens source).parse.result = .error d) :
    ∃ i t, FirstImpossible (Stream.complete tokens) i t ∧
      (∀ j u, FirstImpossible (Stream.complete tokens) j u → j = i) ∧
      d.position = t.span.start ∧ d.line = Text.lineAt source t.span.start.row ∧
      Justified (((Stream.complete tokens).take i).map Token.toTerminal) t.toTerminal d.cause := by
  obtain ⟨f, hf, rfl⟩ := run_error h
  obtain ⟨before, tail, hs, hl, hm⟩ := whole_error hf
  have ht := getElem?_ahead_blamed hs hl
  have hfirst := hm.firstImpossible hs ht
  have htake := (take_ahead hs).1
  rw [Stream.ahead_ofTokens] at hfirst htake
  refine ⟨_, _, hfirst, fun j u hj => ?_, rfl, ?_, ?_⟩
  · exact Nat.le_antisymm (Nat.not_lt.1 (hfirst.not_lt hj)) (Nat.not_lt.1 (hj.not_lt hfirst))
  · simp [Stream.diagnosticAt, Diagnostic.locate]
  · rw [htake]
    exact hm.justified (ahead_cases hs ht)

def cutOff : List Token :=
  [⟨⟨.newline, "\n"⟩, .at ⟨1, 1⟩⟩, ⟨⟨.keyword, "let"⟩, .at ⟨1, 1⟩⟩, ⟨⟨.name, "x"⟩, .at ⟨1, 5⟩⟩,
    ⟨⟨.symbol, "="⟩, .at ⟨1, 7⟩⟩, ⟨⟨.keyword, "if"⟩, .at ⟨1, 9⟩⟩, ⟨⟨.name, "y"⟩, .at ⟨1, 12⟩⟩,
    ⟨⟨.eof, ""⟩, .at ⟨1, 13⟩⟩, ⟨⟨.keyword, "then"⟩, .at ⟨1, 14⟩⟩]

theorem parse_cutOff :
    ∃ d, (Stream.ofTokens cutOff "let x = if y then").parse.result = .error d ∧
      ∃ i t, FirstImpossible (Stream.complete cutOff) i t ∧
        (∀ j u, FirstImpossible (Stream.complete cutOff) j u → j = i) ∧
        d.position = t.span.start ∧
        d.line = Text.lineAt "let x = if y then" t.span.start.row ∧
        Justified (((Stream.complete cutOff).take i).map Token.toTerminal) t.toTerminal d.cause := by
  have hr : (Stream.ofTokens cutOff "let x = if y then").parse.result.toOption = none := by
    decide +kernel
  cases h : (Stream.ofTokens cutOff "let x = if y then").parse.result with
  | ok p =>
    rw [h] at hr
    cases hr
  | error d => exact ⟨d, rfl, parse_error_at_first_impossible h⟩

theorem terminals_stream_read (ls : List Lexeme) (q : Position) (source : String) :
    (Stream.ofTokens (Place.start.read ls ++ [.eofAt q]) source).terminals
      = Lexeme.terminals true ls := by
  have hread : (Place.start.read ls).map Token.toTerminal = Lexeme.terminals true ls :=
    terminals_read Place.start ls
  have hne : ∀ t ∈ Place.start.read ls, !t.isEof := by
    intro t ht
    simpa [Token.isEof] using kind_ne_eof_of_mem_read ht
  rw [Stream.terminals_ofTokens, List.takeWhile_append_of_pos hne]
  simp [hread]

theorem parseSource_eq_ok_iff {source : String} {p : Program} :
    parseSource source = .ok p ↔
      ∃ ls, Lexed source.toList ls ∧ DerivesProgram (Lexeme.terminals true ls) p := by
  unfold parseSource
  constructor
  · intro h
    cases ht : tokenize source with
    | error d => simp [ht] at h
    | ok ts =>
      obtain ⟨ls, hl, rfl⟩ := tokenize_eq_ok_iff.1 ht
      simp only [ht] at h
      rw [Stream.parse, Stream.run_eq_ok_iff, whole_eq_ok_iff, terminals_stream_read] at h
      exact ⟨ls, hl, h⟩
  · rintro ⟨ls, hl, hp⟩
    rw [tokenize_eq_ok_iff.2 ⟨ls, hl, rfl⟩]
    simp only
    rw [Stream.parse, Stream.run_eq_ok_iff, whole_eq_ok_iff, terminals_stream_read]
    exact hp

end LetIf.Grammar
