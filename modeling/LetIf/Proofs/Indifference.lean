import LetIf.Proofs.Descent
import LetIf.Proofs.Parse

/-!
# What decides how tokens are read

A rule that descends through a stream is handed whole tokens. It makes nothing
of them but their terminals, and it never comes to those after the first end
token. Spans and the source only tell where a diagnostic is located and which
line it shows.
-/

namespace LetIf

open Grammar

variable {α : Type}

/-- Both are read as the same program, or both are refused for the same cause,
each at the token of its own that stands at the index of the fault. -/
def ReadLike (parse : Stream → Outcome Program) (s s' : Stream) : Prop :=
  (∃ p, (parse s).result = .ok p ∧ (parse s').result = .ok p) ∨
  ∃ (cause : Cause) (i : Nat) (t t' : Token), s.ahead[i]? = some t ∧ s'.ahead[i]? = some t' ∧
    (parse s).result = .error (.locate s.source cause t.span.start) ∧
    (parse s').result = .error (.locate s'.source cause t'.span.start)

section
variable {s s' : Stream} {rule : List Terminal → Reading α}

theorem run_of_error {f : Refusal} {before tail : List Terminal}
    (hf : (rule s.terminals).result = .error f) (hs : s.terminals = before ++ tail)
    (hl : leaves tail f.blame (rule s.terminals).rest) :
    ∃ t : Token, s.ahead[before.length]? = some t ∧
      (s.run rule).result = .error (.locate s.source f.cause t.span.start) := by
  refine ⟨_, getElem?_ahead_blamed hs hl, ?_⟩
  simp [Stream.run, hf, Stream.diagnosticAt]

theorem position_run_congr (h : s.terminals = s'.terminals) (hp : s.position = s'.position) :
    (s.run rule).stream.position = (s'.run rule).stream.position := by
  have hlen : s.word.length = s'.word.length := by
    simpa [Stream.terminals] using congrArg List.length h
  rw [Stream.stream_run, Stream.stream_run, Stream.position_skip (Nat.sub_le _ _),
    Stream.position_skip (Nat.sub_le _ _), h, hlen, hp]

theorem readLike_of_terminals_eq (h : s.terminals = s'.terminals) :
    ReadLike Stream.parse s s' := by
  cases hr : (whole s.terminals).result with
  | ok p =>
    have hr' : (whole s'.terminals).result = .ok p := h ▸ hr
    exact .inl ⟨p, Stream.run_eq_ok_iff.2 hr, Stream.run_eq_ok_iff.2 hr'⟩
  | error f =>
    -- Where the terminals are cut is told by themselves, so it is one index for both.
    obtain ⟨before, tail, hs, hl, -⟩ := whole_error hr
    obtain ⟨t, ht, hd⟩ := run_of_error hr hs hl
    rw [h] at hr hs hl
    obtain ⟨t', ht', hd'⟩ := run_of_error hr hs hl
    exact .inr ⟨f.cause, before.length, t, t', ht, ht', hd, hd'⟩

end

theorem parseSource_of_tokenize {source : String} {tokens : List Token}
    (h : tokenize source = .ok tokens) :
    parseSource source = (Stream.ofTokens tokens source).parse.result := by
  simp only [parseSource, h]

/-- Descending through lists of tokens with the same terminals before their
first end token, both are read alike and to the same index, however their spans,
their sources and their further tokens differ. The descent is how the library
parses. -/
theorem parse_decided_by_terminals (tokens tokens' : List Token) (source source' : String)
    (h : ((Stream.complete tokens).takeWhile (!·.isEof)).map Token.toTerminal
      = ((Stream.complete tokens').takeWhile (!·.isEof)).map Token.toTerminal) :
    ReadLike Stream.descend (Stream.ofTokens tokens source) (Stream.ofTokens tokens' source') ∧
    (Stream.ofTokens tokens source).descend.stream.position
      = (Stream.ofTokens tokens' source').descend.stream.position ∧
    ∀ s : Stream, s.descend = s.parse := by
  rw [Stream.takeWhile_complete, Stream.takeWhile_complete, ← Stream.terminals_ofTokens _ source,
    ← Stream.terminals_ofTokens _ source'] at h
  have hdescend : Stream.descend = Stream.parse := funext Stream.descend_eq_parse
  refine ⟨?_, ?_, Stream.descend_eq_parse⟩
  · rw [hdescend]
    exact readLike_of_terminals_eq h
  · rw [hdescend]
    exact position_run_congr h (by simp [Stream.position])

/-- A conditional that breaks off, before an end token with a spelling of its own. -/
def brokenOff : List Token :=
  [⟨⟨.newline, "\n"⟩, .at ⟨1, 1⟩⟩, ⟨⟨.keyword, "let"⟩, .at ⟨1, 1⟩⟩, ⟨⟨.name, "x"⟩, .at ⟨1, 5⟩⟩,
    ⟨⟨.symbol, "="⟩, .at ⟨1, 7⟩⟩, ⟨⟨.keyword, "if"⟩, .at ⟨1, 9⟩⟩, ⟨⟨.eof, "end"⟩, .at ⟨1, 12⟩⟩,
    ⟨⟨.name, "y"⟩, .at ⟨1, 13⟩⟩]

def displaced : List Token := (brokenOff.take 5).map fun t => ⟨t.toTerminal, .at ⟨3, 2⟩⟩

theorem parse_brokenOff :
    ∃ d d', (Stream.ofTokens brokenOff "let x = if y").descend.result = .error d ∧
      (Stream.ofTokens displaced "").descend.result = .error d' ∧ d.cause = d'.cause := by
  obtain ⟨hlike, -, hparse⟩ :=
    parse_decided_by_terminals brokenOff displaced "let x = if y" "" (by decide +kernel)
  obtain ⟨d, hd⟩ : ∃ d, (Stream.ofTokens brokenOff "let x = if y").parse.result = .error d :=
    exists_eq_error (by decide +kernel)
  obtain ⟨p, hp, -⟩ | ⟨cause, i, t, t', -, -, ht, ht'⟩ := hlike
  · rw [hparse, hd] at hp
    cases hp
  · exact ⟨_, _, ht, ht', rfl⟩

end LetIf
