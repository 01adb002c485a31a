import LetIf.Proofs.Grammar.Vocabulary
import LetIf.Proofs.Parse

/-!
# What rules take from a stream

A rule that succeeds takes as many tokens as its result has terminals. A rule
that fails stops before the token its diagnostic is about. Only the spelling of
a literal is found wrong after the literal was taken.
-/

namespace LetIf

open Grammar

variable {α : Type}

def Expr.size : Expr → Nat
  | .ite c y n => 3 + c.size + y.size + n.size
  | .name _ | .bool _ | .num _ => 1

def Binding.size (b : Binding) : Nat := 3 + b.args.length + b.body.size

/-- The bindings of a program, each with the start of its row. -/
def Program.size (p : Program) : Nat := p.bindings.foldr (fun b n => 1 + b.size + n) 0

namespace Grammar

theorem DerivesExpr.length_eq {ts : List Terminal} {e : Expr} (h : DerivesExpr ts e) :
    ts.length = e.size := by
  induction h with
  | ite _ _ _ ihc ihy ihn =>
    simp only [List.length_append, List.length_cons, Expr.size, ihc, ihy, ihn]
    omega
  | name | num | true | false => rfl

theorem DerivesBranches.length_eq {ts : List Terminal} {e : Expr} (h : DerivesBranches ts e) :
    ts.length = e.size - 1 := by
  have hlen := DerivesExpr.length_eq h
  rw [List.length_cons] at hlen
  omega

theorem DerivesBinding.length_eq {ts : List Terminal} {b : Binding} (h : DerivesBinding ts b) :
    ts.length = b.size := by
  cases h with
  | mk name args he =>
    simp only [List.length_append, List.length_cons, List.length_map, Binding.size, he.length_eq]
    omega

theorem DerivesProgram.length_eq {ts : List Terminal} {p : Program} (h : DerivesProgram ts p) :
    ts.length = p.size := by
  induction h with
  | nil => rfl
  | cons text hb _ ih =>
    simp only [List.length_append, List.length_cons, hb.length_eq, ih, Program.size,
      List.foldr_cons]
    omega

end Grammar

-- ---------------------------------------------------------------------------
-- What a failure leaves
-- ---------------------------------------------------------------------------

def Diagnostic.At (source : String) (t : Token) (d : Diagnostic) : Prop :=
  d.position = t.span.start ∧ d.line = Text.lineAt source t.span.start.row

/-- The diagnostic is about the token taken last on the way from `s`, which has
this terminal. -/
def Stream.BlamesTaken (s after : Stream) (w : Terminal) (d : Diagnostic) : Prop :=
  s.position < after.position ∧
    ∃ t, after.tokens[after.position - 1]? = some t ∧ t.toTerminal = w ∧ d.At s.source t

/-- A run from `s` fails here: at a token that it leaves, or at a literal that
it has just taken. -/
def Stream.FailsAt (s after : Stream) (d : Diagnostic) : Prop :=
  match d.cause with
  | .unexpectedToken _ found | .unrecognisedExpression found =>
    d.At s.source after.next ∧ found = after.next.describe
  | .malformedNumber text => s.BlamesTaken after ⟨.number, text⟩ d
  | .malformedBoolean text => s.BlamesTaken after ⟨.boolean, text⟩ d
  | .unrecognisedToken _ | .numberOutOfRange _ => False

structure Stream.Accounts (s : Stream) (size : α → Nat) (out : Outcome α) : Prop where
  tokens_eq : out.stream.tokens = s.tokens
  source_eq : out.stream.source = s.source
  position_eq : ∀ a, out.result = .ok a → out.stream.position = s.position + size a
  failsAt : ∀ d, out.result = .error d → s.FailsAt out.stream d

def Grammar.Finds (next : Option Terminal) : Cause → Prop
  | .unexpectedToken _ found | .unrecognisedExpression found => found = describeNext next.toList
  | .malformedNumber text => next = some ⟨.number, text⟩
  | .malformedBoolean text => next = some ⟨.boolean, text⟩
  | .unrecognisedToken _ | .numberOutOfRange _ => False

theorem Grammar.Explains.finds {L : List Terminal → α → Prop} {before : List Terminal}
    {next : Option Terminal} {cause : Cause} (h : Explains L before next cause) :
    Finds next cause := by
  cases cause with
  | unrecognisedToken | numberOutOfRange => exact h
  | _ => exact h.1

section
variable {s : Stream} {before tail rest : List Terminal}

theorem blamesTaken_latest {w : Terminal} (cause : Cause) (hs : s.terminals = before ++ tail)
    (hl : leaves tail .latest rest) (hw : tail.head? = some w) :
    s.BlamesTaken (s.skip (s.word.length - rest.length)) w
      (s.diagnosticAt cause (s.skip (s.word.length - rest.length)).latest) := by
  have hblamed := ahead_cases hs (getElem?_ahead_blamed hs hl)
  obtain ⟨u, rfl⟩ := hl
  have hlen : s.word.length = before.length + (rest.length + 1) := by
    simpa [Stream.terminals] using congrArg List.length hs
  have hpos : s.position < (s.skip (s.word.length - rest.length)).position := by
    rw [Stream.position_skip (Nat.sub_le _ _)]
    omega
  refine ⟨hpos, _, Stream.getElem?_tokens_latest (by omega), ?_, rfl, rfl⟩
  rcases hblamed with ⟨-, hnone⟩ | ⟨-, hsome⟩
  · cases hnone
  · exact Option.some.inj (hsome.symm.trans hw)

theorem failsAt_of_usual {f : Refusal} (hs : s.terminals = before ++ tail)
    (hl : leaves tail f.blame rest) (hf : Finds tail.head? f.cause) (hu : Usual f) :
    s.FailsAt (s.skip (s.word.length - rest.length))
      (s.diagnosticAt f.cause ((s.skip (s.word.length - rest.length)).blamed f.blame)) := by
  have hblamed := ahead_cases hs (getElem?_ahead_blamed hs hl)
  cases hu with
  | missing => exact ⟨⟨rfl, rfl⟩, hf.trans (describeNext_eq hblamed)⟩
  | unrecognised => exact ⟨⟨rfl, rfl⟩, hf.trans (describeNext_eq hblamed)⟩
  | number => exact blamesTaken_latest _ hs hl hf
  | boolean => exact blamesTaken_latest _ hs hl hf

end

-- ---------------------------------------------------------------------------
-- Rules
-- ---------------------------------------------------------------------------

section
variable {s : Stream} {rule : List Terminal → Reading α} {size : α → Nat}

theorem accounts_run
    (hok : ∀ a, (rule s.terminals).result = .ok a →
      ∃ v, s.terminals = v ++ (rule s.terminals).rest ∧ v.length = size a)
    (herror : ∀ f, (rule s.terminals).result = .error f →
      ∃ before tail, s.terminals = before ++ tail ∧
        leaves tail f.blame (rule s.terminals).rest ∧ Finds tail.head? f.cause)
    (hu : RefusesUsually (rule s.terminals)) : s.Accounts size (s.run rule) where
  tokens_eq := by rw [Stream.stream_run, Stream.tokens_skip]
  source_eq := by rw [Stream.stream_run, Stream.source_skip]
  position_eq := by
    intro a ha
    obtain ⟨v, hv, hsize⟩ := hok a (Stream.run_eq_ok_iff.1 ha)
    have hlen : s.word.length = v.length + (rule s.terminals).rest.length := by
      simpa [Stream.terminals] using congrArg List.length hv
    rw [Stream.stream_run, Stream.position_skip (Nat.sub_le _ _), hlen, Nat.add_sub_cancel, hsize]
  failsAt := by
    intro d hd
    obtain ⟨f, hf, rfl⟩ := run_error hd
    obtain ⟨before, tail, hs, hl, hfinds⟩ := herror f hf
    rw [Stream.stream_run]
    exact failsAt_of_usual hs hl hfinds (hu f hf)

theorem Grammar.Judges.accounts {L : List Terminal → α → Prop}
    (hj : Judges L s.terminals (rule s.terminals)) (hsize : ∀ {v a}, L v a → v.length = size a)
    (hu : RefusesUsually (rule s.terminals)) : s.Accounts size (s.run rule) := by
  refine accounts_run (fun a ha => ?_) (fun f hf => ?_) hu
  · obtain ⟨v, hv, hrest⟩ := (judges_of_ok ha).1 hj
    exact ⟨v, hrest, hsize hv⟩
  · obtain ⟨before, tail, hs, hl, hfault⟩ := (judges_of_error hf).1 hj
    exact ⟨before, tail, hs, hl, hfault.explains.finds⟩

end

theorem accounts_program (s : Stream) : s.Accounts Program.size (s.run program) := by
  refine accounts_run (fun p hp => ?_) (fun f hf => ?_) (refusesUsually_program _)
  · obtain ⟨v, hv, hrest, -⟩ := program_ok hp
    exact ⟨v, hrest, hv.length_eq⟩
  · obtain ⟨before, tail, hs, hl, row, hexplains⟩ := program_error hf
    exact ⟨before, tail, hs, hl, hexplains.finds⟩

theorem next_run_program {s : Stream} {p : Program} (h : (s.run program).result = .ok p) :
    (s.run program).stream.next.kind ≠ .newline := by
  obtain ⟨v, -, hrest, hhead⟩ := program_ok (Stream.run_eq_ok_iff.1 h)
  have hleaves : leaves (program s.terminals).rest .next (program s.terminals).rest := rfl
  have hnext : s.ahead[v.length]? = some (s.run program).stream.next := by
    rw [Stream.stream_run]
    exact getElem?_ahead_blamed hrest hleaves
  rcases ahead_cases hrest hnext with ⟨hk, -⟩ | ⟨-, hk⟩
  · simp [hk]
  · exact hhead _ hk

theorem frame_found (s : Stream) (expected : Expected) :
    (s.found expected).2.tokens = s.tokens ∧ (s.found expected).2.source = s.source := by
  unfold Stream.found
  split
  · exact ⟨s.tokens_pop, s.source_pop⟩
  · exact ⟨rfl, rfl⟩

/-- A terminal that is not as asked leaves the stream where it is. Rules take as
many tokens as their result has terminals, a program up to a token that opens no
row, and where they fail they stop at the token they are about, or after it if it
is a literal. Tokens and source stay as they are. -/
theorem rules_account_for_tokens (s : Stream) :
    (∀ expected : Expected,
      (s.found expected).2.tokens = s.tokens ∧ (s.found expected).2.source = s.source ∧
      (s.expect expected).2 = (s.found expected).2) ∧
    (∀ expected : Expected, ¬expected.admits s.next.toTerminal →
      s.found expected = (none, s) ∧
      ∃ d, s.expect expected = (.error d, s) ∧
        d.cause = .unexpectedToken expected s.next.describe ∧ s.FailsAt s d) ∧
    s.Accounts Expr.size (s.run expression) ∧
    s.Accounts (fun e => e.size - 1) (s.run branches) ∧
    s.Accounts Binding.size (s.run binding) ∧
    s.Accounts Program.size (s.run program) ∧
    ∀ p, (s.run program).result = .ok p → (s.run program).stream.next.kind ≠ .newline := by
  refine ⟨fun expected => ?_, fun expected h => ?_, ?_⟩
  · exact ⟨(frame_found s expected).1, (frame_found s expected).2, s.snd_expect expected⟩
  · exact ⟨Stream.found_eq_none h, _, Stream.expect_eq_error h, rfl, ⟨rfl, rfl⟩, rfl⟩
  refine ⟨?_, ?_, ?_, accounts_program s, fun p => next_run_program⟩
  · exact (judges_expression _).accounts DerivesExpr.length_eq (refusesUsually_expression _)
  · exact (judges_branches fun us _ => judges_expression us).accounts DerivesBranches.length_eq
      (refusesUsually_branches _)
  · exact (judges_binding _).accounts DerivesBinding.length_eq (refusesUsually_binding _)

/-- Past the keyword of a conditional whose second number is none, and which an
end token cuts off. -/
def midway : Stream :=
  (Stream.ofTokens
    [⟨⟨.keyword, "if"⟩, .at ⟨1, 1⟩⟩, ⟨⟨.number, "1"⟩, .at ⟨1, 4⟩⟩, ⟨⟨.keyword, "then"⟩, .at ⟨1, 6⟩⟩,
      ⟨⟨.number, "1x"⟩, .at ⟨2, 3⟩⟩, ⟨⟨.eof, ""⟩, .at ⟨2, 5⟩⟩, ⟨⟨.keyword, "else"⟩, .at ⟨2, 6⟩⟩]
    "if 1 then\n  1x else").skip 1

theorem rules_account_for_midway :
    midway.found (.kind .name) = (none, midway) ∧
    (∃ e, (midway.run expression).result = .ok e ∧
      (midway.run expression).stream.position = midway.position + e.size) ∧
    ∃ d, (midway.run branches).result = .error d ∧
      midway.FailsAt (midway.run branches).stream d := by
  obtain ⟨-, hfound, hexpression, hbranches, -⟩ := rules_account_for_tokens midway
  obtain ⟨e, he⟩ : ∃ e, (midway.run expression).result = .ok e := exists_eq_ok (by decide +kernel)
  obtain ⟨d, hd⟩ : ∃ d, (midway.run branches).result = .error d :=
    exists_eq_error (by decide +kernel)
  refine ⟨(hfound _ (by decide +kernel)).1, ⟨e, he, ?_⟩, d, hd, ?_⟩
  · exact hexpression.position_eq e he
  · exact hbranches.failsAt d hd

end LetIf
