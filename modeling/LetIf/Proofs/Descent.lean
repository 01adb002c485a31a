import LetIf.Descent
import LetIf.Proofs.Grammar.Programs
import LetIf.Proofs.Stream

/-!
# Descent and readings

Every rule by descent does on a stream what its reading of the terminals says:
it gives the same result, takes as many tokens, and notes the same events.
-/

namespace LetIf

variable {α β γ : Type}

namespace Stream

def lift (s : Stream) (r : Reading α) : Outcome α := s.run fun _ => r

theorem skip_add (s : Stream) (m n : Nat) : s.skip (m + n) = (s.skip m).skip n := by
  induction m generalizing s with
  | zero => rw [Nat.zero_add, skip]
  | succ m ih => rw [Nat.succ_add, skip, skip, ih]

theorem terminals_skip (s : Stream) (n : Nat) : (s.skip n).terminals = s.terminals.drop n := by
  rw [terminals, word_skip, List.map_drop, terminals]

theorem length_terminals (s : Stream) : s.terminals.length = s.word.length :=
  List.length_map _

theorem terminals_skip_of_suffix {s : Stream} {rest : List Terminal} (h : rest <:+ s.terminals) :
    (s.skip (s.word.length - rest.length)).terminals = rest := by
  rw [terminals_skip, ← s.length_terminals]
  exact (List.suffix_iff_eq_drop.1 h).symm

theorem terminals_of_ne_nil {s : Stream} (h : s.word ≠ []) :
    s.terminals = s.next.toTerminal :: s.pop.terminals := by
  obtain ⟨t, word, hw⟩ := List.exists_cons_of_ne_nil h
  simp [terminals, next, hw]

theorem latest_pop {s : Stream} (h : s.word ≠ []) : s.pop.latest = s.next := by
  obtain ⟨t, word, hw⟩ := List.exists_cons_of_ne_nil h
  simp [latest, next, taken_pop, hw]

/-- A reading has one outcome, wherever before its end it is taken up. -/
theorem lift_skip {s : Stream} {n : Nat} {r : Reading α} (hn : n ≤ s.word.length)
    (h : r.rest <:+ (s.skip n).terminals) : (s.skip n).lift r = s.lift r := by
  have hle : r.rest.length ≤ s.word.length - n := by
    simpa [terminals_skip, length_terminals] using h.length_le
  have hskip : (s.skip n).skip ((s.skip n).word.length - r.rest.length)
      = s.skip (s.word.length - r.rest.length) := by
    rw [← skip_add, word_skip, List.length_drop]
    congr 1
    omega
  simp only [lift, run, hskip]

theorem lift_ok {s : Stream} {r : Reading α} {a : α} (h : r.result = .ok a) :
    s.lift r = ⟨.ok a, s.skip (s.word.length - r.rest.length), r.events⟩ := by
  simp only [lift, run, h]

theorem lift_error {s : Stream} {r : Reading α} {f : Refusal} (h : r.result = .error f) :
    s.lift r =
      let stream := s.skip (s.word.length - r.rest.length)
      ⟨.error (stream.diagnosticAt f.cause (stream.blamed f.blame)), stream,
        r.events ++ [.refused f.cause (stream.blamed f.blame).span.start]⟩ := by
  simp only [lift, run, h]

theorem lift_events (s : Stream) (r : Reading α) (before : List Event) :
    s.lift ⟨r.result, r.rest, before ++ r.events⟩ =
      ⟨(s.lift r).result, (s.lift r).stream, before ++ (s.lift r).events⟩ := by
  simp only [lift, run]
  cases r.result <;> simp

theorem lift_self {s : Stream} (result : Except Refusal α) (events : List Event) :
    s.lift ⟨result, s.terminals, events⟩ =
      match result with
      | .ok a => ⟨.ok a, s, events⟩
      | .error f => ⟨.error (s.diagnosticAt f.cause (s.blamed f.blame)), s,
          events ++ [.refused f.cause (s.blamed f.blame).span.start]⟩ := by
  have hskip : s.skip (s.word.length - s.terminals.length) = s := by
    rw [length_terminals, Nat.sub_self, skip]
  cases result <;> simp only [lift, run, hskip]

end Stream

namespace Descent

/-- The descent gives what its reading says. -/
structure Runs {s : Stream} (d : Descent s α) (r : Reading α) : Prop where
  suffix : r.rest <:+ s.terminals
  outcome_eq : d.toOutcome = s.lift r

variable {s : Stream}

theorem runs_done (a : α) (s : Stream) : Runs (done a s) (.done a s.terminals) :=
  ⟨List.suffix_refl _, (Stream.lift_self (.ok a) []).symm⟩

theorem runs_refuse (cause : Cause) (s : Stream) :
    Runs (α := α) (fail s cause s.next) (.refuse cause s.terminals) :=
  ⟨List.suffix_refl _, (Stream.lift_self (.error ⟨cause, .next⟩) []).symm⟩

theorem runs_reject (cause : Cause) (hs : s.word ≠ []) :
    Runs (α := α) (fail s.pop cause s.next) (.reject cause s.pop.terminals) := by
  refine ⟨List.suffix_refl _, ?_⟩
  rw [← Stream.latest_pop hs]
  exact (Stream.lift_self (.error ⟨cause, .latest⟩) []).symm

theorem Runs.note {d : Descent s α} {r : Reading α} (h : Runs d r) (event : Event) :
    Runs (d.note event) (r.note event) := by
  refine ⟨h.suffix, ?_⟩
  simp only [Descent.note, h.outcome_eq, Stream.lift, Stream.run, Reading.note]
  cases r.result <;> rfl

theorem Runs.map {d : Descent s α} {r : Reading α} (h : Runs d r) (f : α → β) :
    Runs (d.map f) (r.map f) := by
  refine ⟨h.suffix, ?_⟩
  simp only [Descent.map, h.outcome_eq, Stream.lift, Stream.run, Reading.map]
  cases r.result <;> rfl

theorem Runs.after {d : Descent s.pop α} {r : Reading α} (h : Runs d r) (hs : s.word ≠ [])
    (hle : s.pop.word.length ≤ s.word.length) : Runs (d.after hle) r := by
  have hpop : s.pop.terminals <:+ s.terminals := by
    rw [Stream.terminals, Stream.word_pop, ← List.drop_one, List.map_drop]
    exact List.drop_suffix 1 _
  refine ⟨h.suffix.trans hpop, h.outcome_eq.trans ?_⟩
  exact Stream.lift_skip (n := 1) (List.length_pos_iff.2 hs) h.suffix

theorem map_id (d : Descent s α) : d.map id = d := by
  obtain ⟨⟨result, stream, events⟩, h⟩ := d
  cases result <;> rfl

/-- The reading may keep less of the first result than the descent does. -/
theorem Runs.andThen_map {d : Descent s α} {f : α → γ} {r : Reading γ}
    {next : α → (rest : Stream) → rest.word.length ≤ s.word.length → Descent rest β}
    {rule : γ → List Terminal → Reading β} (h : Runs (d.map f) r)
    (hn : ∀ a rest hle, Runs (next a rest hle) (rule (f a) rest.terminals)) :
    Runs (d.andThen next) (r.andThen rule) := by
  obtain ⟨⟨result, rest, events⟩, hle⟩ := d
  have heq : ⟨result.map f, rest, events⟩ = s.lift r := h.outcome_eq
  cases hr : r.result with
  | error g =>
    rw [Stream.lift_error hr] at heq
    cases result with
    | ok a => simp [Except.map] at heq
    | error e =>
      refine ⟨by simpa [Reading.andThen, hr] using h.suffix, ?_⟩
      rw [Reading.andThen, hr, Stream.lift_error rfl]
      simpa [Except.map, Descent.andThen] using heq
  | ok c =>
    rw [Stream.lift_ok hr] at heq
    cases result with
    | error e => simp [Except.map] at heq
    | ok a =>
      simp only [Except.map, Outcome.mk.injEq, Except.ok.injEq] at heq
      obtain ⟨rfl, hrest, rfl⟩ := heq
      have hterminals : rest.terminals = r.rest := by
        rw [hrest, Stream.terminals_skip_of_suffix h.suffix]
      have hlater : Runs (next a rest hle) (rule (f a) r.rest) := hterminals ▸ hn a rest hle
      have hsuffix : (rule (f a) r.rest).rest <:+ rest.terminals := hlater.suffix
      have hlift : rest.lift (rule (f a) r.rest) = s.lift (rule (f a) r.rest) := by
        rw [hrest] at hsuffix ⊢
        exact Stream.lift_skip (Nat.sub_le _ _) hsuffix
      rw [hterminals] at hsuffix
      refine ⟨by simpa [Reading.andThen, hr] using hsuffix.trans h.suffix, ?_⟩
      simp only [Descent.andThen, Reading.andThen, hr, hlater.outcome_eq, hlift, Stream.lift_events]

theorem Runs.andThen {d : Descent s α} {r : Reading α}
    {next : α → (rest : Stream) → rest.word.length ≤ s.word.length → Descent rest β}
    {rule : α → List Terminal → Reading β} (h : Runs d r)
    (hn : ∀ a rest hle, Runs (next a rest hle) (rule a rest.terminals)) :
    Runs (d.andThen next) (r.andThen rule) :=
  Runs.andThen_map (f := id) (d.map_id.symm ▸ h) hn

-- ---------------------------------------------------------------------------
-- Single tokens
-- ---------------------------------------------------------------------------

theorem word_ne_nil {expected : Expected} (h : expected.admits s.next.toTerminal)
    (hk : expected.sort ≠ .eof) : s.word ≠ [] := by
  intro hw
  have hnext : s.next = s.stop := by simp [Stream.next, hw]
  rw [hnext] at h
  cases expected <;> simp_all [Expected.admits, Expected.sort, Terminal.is, s.kind_stop]

theorem describe_next (s : Stream) : s.next.describe = describeNext s.terminals := by
  by_cases hs : s.word = []
  · simp [Stream.next, Stream.terminals, hs, Terminal.describe, describeNext, s.kind_stop,
      Terminal.eof]
  · rw [Stream.terminals_of_ne_nil hs, describeNext]

theorem eq_next_of_mem_head? {t : Terminal} (h : t ∈ s.terminals.head?) :
    s.next.toTerminal = t := by
  by_cases hs : s.word = []
  · simp [Stream.terminals, hs] at h
  · simpa [Stream.terminals_of_ne_nil hs] using h

theorem terminal_of_not_admits {expected : Expected} {ts : List Terminal}
    (h : ∀ t ∈ ts.head?, ¬expected.admits t) :
    Grammar.terminal expected ts = .refuse (.unexpectedToken expected (describeNext ts)) ts := by
  cases ts with
  | nil => rfl
  | cons t ts => exact if_neg (h t rfl)

theorem token_of_admits {expected : Expected} (h : expected.admits s.next.toTerminal) :
    token s expected = after s.length_pop_le (done s.next s.pop) := by
  simp [token, Stream.expect_eq_ok h, after, done]

theorem token_of_not_admits {expected : Expected} (h : ¬expected.admits s.next.toTerminal) :
    token s expected = fail s (.unexpectedToken expected s.next.describe) s.next := by
  simp only [token, Stream.expect_eq_error h]
  rfl

theorem runs_token (s : Stream) {expected : Expected} (hk : expected.sort ≠ .eof) :
    Runs ((token s expected).map Token.toTerminal) (Grammar.terminal expected s.terminals) := by
  by_cases h : expected.admits s.next.toTerminal
  · have hs := word_ne_nil h hk
    rw [token_of_admits h, Stream.terminals_of_ne_nil hs, Grammar.terminal, if_pos h]
    exact ((runs_done s.next s.pop).after hs _).map _
  · rw [token_of_not_admits h, describe_next,
      terminal_of_not_admits fun t ht => eq_next_of_mem_head? ht ▸ h]
    exact runs_refuse _ s

theorem of_found_some {expected : Expected} {t : Token} {rest : Stream}
    (h : s.found expected = (some t, rest)) :
    t = s.next ∧ rest = s.pop ∧ expected.admits s.next.toTerminal := by
  by_cases ha : expected.admits s.next.toTerminal
  · rw [Stream.found_eq_some ha] at h
    cases h
    exact ⟨rfl, rfl, ha⟩
  · rw [Stream.found_eq_none ha] at h
    cases h

theorem kind_of_found {k : Kind} {t : Token} {rest : Stream}
    (h : s.found (.kind k) = (some t, rest)) (hk : k ≠ .eof) :
    t = s.next ∧ rest = s.pop ∧ s.next.kind = k ∧ s.word ≠ [] := by
  obtain ⟨ht, hrest, ha⟩ := of_found_some h
  exact ⟨ht, hrest, by simpa [Expected.admits] using ha, word_ne_nil ha hk⟩

theorem of_found_none {expected : Expected} {rest : Stream} (h : s.found expected = (none, rest)) :
    ¬expected.admits s.next.toTerminal := by
  intro ha
  rw [Stream.found_eq_some ha] at h
  cases h

-- ---------------------------------------------------------------------------
-- Expressions
-- ---------------------------------------------------------------------------

theorem expression_eq_leaf (hs : s.word ≠ [])
    (h : ¬(Expected.spelled .keyword "if").admits s.next.toTerminal) :
    Grammar.expression s.terminals = Grammar.leaf s.next.toTerminal s.pop.terminals := by
  rw [Stream.terminals_of_ne_nil hs, Grammar.expression_cons]
  exact if_neg h

theorem runs_leaf (h : ¬(Expected.spelled .keyword "if").admits s.next.toTerminal) :
    Runs (leaf s) (Grammar.expression s.terminals) := by
  fun_cases leaf s with
  | case1 t rest hf =>
    obtain ⟨rfl, rfl, hk, hs⟩ := kind_of_found hf (by decide)
    rw [expression_eq_leaf hs h]
    simp only [Grammar.leaf, hk]
    exact ((runs_done _ s.pop).note _).after hs _
  | case2 _ _ t rest hf =>
    obtain ⟨rfl, rfl, hk, hs⟩ := kind_of_found hf (by decide)
    rw [expression_eq_leaf hs h]
    simp only [Grammar.leaf, hk]
    refine Runs.after ?_ hs _
    cases Numeral.read? s.next.text with
    | some n => exact runs_done _ s.pop
    | none => exact runs_reject (.malformedNumber s.next.text) hs
  | case3 _ _ _ _ t rest hf =>
    obtain ⟨rfl, rfl, hk, hs⟩ := kind_of_found hf (by decide)
    rw [expression_eq_leaf hs h]
    simp only [Grammar.leaf, hk]
    refine Runs.after ?_ hs _
    cases s.next.bool? with
    | some b => exact runs_done _ s.pop
    | none => exact runs_reject (.malformedBoolean s.next.text) hs
  | case4 _ hname _ hnumber _ hboolean =>
    have hrefuse := runs_refuse (α := Expr) (.unrecognisedExpression s.next.describe) s
    by_cases hs : s.word = []
    · rw [describe_next] at hrefuse ⊢
      simpa [Stream.terminals, hs, Grammar.expression_nil] using hrefuse
    · rw [expression_eq_leaf hs h]
      have hleaf : Grammar.leaf s.next.toTerminal s.pop.terminals =
          .refuse (.unrecognisedExpression s.next.describe) s.terminals := by
        have := of_found_none hname
        have := of_found_none hnumber
        have := of_found_none hboolean
        rw [Stream.terminals_of_ne_nil hs]
        unfold Grammar.leaf
        split <;> simp_all [Expected.admits]
      rw [hleaf]
      exact hrefuse

theorem runs_branches_of
    (h : ∀ rest : Stream, rest.word.length ≤ s.word.length →
      Runs (expression rest) (Grammar.expression rest.terminals)) :
    Runs (branches s) (Grammar.branches s.terminals) := by
  rw [branches, Grammar.branches_eq]
  refine Runs.note ?_ _
  refine (h s (Nat.le_refl _)).andThen fun condition s₁ h₁ => ?_
  refine (runs_token s₁ (by decide)).andThen_map fun _ s₂ h₂ => ?_
  refine (h s₂ (by omega)).andThen fun yes s₃ h₃ => ?_
  refine (runs_token s₃ (by decide)).andThen_map fun _ s₄ h₄ => ?_
  exact (h s₄ (by omega)).map _

theorem runs_expression (s : Stream) :
    Runs (expression s) (Grammar.expression s.terminals) := by
  -- The branches of a conditional are read from what the keyword and the parts
  -- before them leave, so the induction is on the number of tokens.
  induction hn : s.word.length using Nat.strongRecOn generalizing s with
  | ind n ih =>
    subst hn
    rw [expression]
    split
    next t rest hf =>
      obtain ⟨-, rfl, ha⟩ := of_found_some hf
      have hs := word_ne_nil ha (by decide)
      have hlt := lt_of_found hf (by decide)
      have hif : s.next.is .keyword "if" := ha
      rw [Stream.terminals_of_ne_nil hs, Grammar.expression_cons, if_pos hif]
      refine Runs.after (runs_branches_of fun rest hle => ?_) hs _
      exact ih _ (by omega) rest rfl
    next hf => exact runs_leaf (of_found_none hf)

-- ---------------------------------------------------------------------------
-- Bindings and programs
-- ---------------------------------------------------------------------------

theorem runs_names (s : Stream) : Runs (names s) (Grammar.names s.terminals) := by
  fun_induction names s with
  | case1 s t rest hf ih =>
    obtain ⟨rfl, rfl, hk, hs⟩ := kind_of_found hf (by decide)
    have hnames : Grammar.names s.terminals =
        (Grammar.names s.pop.terminals).map (s.next.text :: ·) := by
      rw [Stream.terminals_of_ne_nil hs]
      simp [Grammar.names, hk, Reading.map, Reading.done, Except.map]
    rw [hnames]
    exact (ih.map _).after hs _
  | case2 s _ hf =>
    have hnames : Grammar.names s.terminals = .done [] s.terminals := by
      have := of_found_none hf
      by_cases hs : s.word = []
      · simp [Grammar.names, Stream.terminals, hs]
      · rw [Stream.terminals_of_ne_nil hs]
        simp_all [Grammar.names, Expected.admits]
    rw [hnames]
    exact runs_done [] s

theorem runs_binding (s : Stream) : Runs (binding s) (Grammar.binding s.terminals) := by
  refine (runs_token s (by decide)).andThen_map fun _ s₁ _ => ?_
  refine (runs_token s₁ (by decide)).andThen_map fun name s₂ _ => ?_
  refine Runs.note ?_ _
  refine (runs_names s₂).andThen fun args s₃ _ => ?_
  refine (runs_token s₃ (by decide)).andThen_map fun _ s₄ _ => ?_
  exact (runs_expression s₄).map _

theorem runs_bindings (s : Stream) : Runs (bindings s) (Grammar.bindings s.terminals) := by
  fun_induction bindings s with
  | case1 s t rest hf ih =>
    obtain ⟨-, rfl, hk, hs⟩ := kind_of_found hf (by decide)
    rw [Stream.terminals_of_ne_nil hs, Grammar.bindings_cons_newline _ hk]
    refine Runs.after ?_ hs _
    exact (runs_binding s.pop).andThen fun first s₁ hle => (ih s₁ hle).map _
  | case2 s _ hf =>
    rw [Grammar.bindings_of_ne_newline fun t ht => ?_]
    · exact runs_done [] s
    · simpa [Expected.admits, eq_next_of_mem_head? ht] using of_found_none hf

theorem runs_program (s : Stream) : Runs (program s) (Grammar.program s.terminals) :=
  (runs_bindings s).map _

theorem runs_end (p : Program) (s : Stream) :
    Runs ((token s (.kind .eof)).andThen fun _ rest _ =>
        (done p rest).note (.parsed p.bindings.length))
      (match s.terminals with
        | [] => (Reading.done p []).note (.parsed p.bindings.length)
        | t :: rest => .refuse (.unexpectedToken (.kind .eof) t.describe) (t :: rest)) := by
  by_cases hs : s.word = []
  · have ha : (Expected.kind .eof).admits s.next.toTerminal := by
      simp [Expected.admits, Stream.next, hs, s.kind_stop]
    have hpop : s.pop = s := by
      unfold Stream.pop
      split
      · rfl
      next h => simp [hs] at h
    have hnil : s.terminals = [] := by simp [Stream.terminals, hs]
    have hdone := (runs_done p s).note (.parsed p.bindings.length)
    rw [hnil] at hdone ⊢
    refine ⟨hdone.suffix, hdone.outcome_eq ▸ ?_⟩
    simp [token_of_admits ha, after, Descent.andThen, done, Descent.note, hpop]
  · have ha : ¬(Expected.kind .eof).admits s.next.toTerminal := by
      obtain ⟨t, word, hw⟩ := List.exists_cons_of_ne_nil hs
      have ht := s.kind_ne_eof t (by simp [hw])
      simpa [Expected.admits, Stream.next, hw] using ht
    have hrefuse := runs_refuse (α := Program) (.unexpectedToken (.kind .eof) s.next.describe) s
    rw [Stream.terminals_of_ne_nil hs] at hrefuse ⊢
    rw [token_of_not_admits ha]
    exact hrefuse

theorem runs_whole (s : Stream) : Runs (whole s) (Grammar.whole s.terminals) :=
  (runs_program s).andThen fun p rest _ => runs_end p rest

end Descent

/-- Descending through a stream is parsing it. -/
theorem Stream.descend_eq_parse (s : Stream) : s.descend = s.parse :=
  (Descent.runs_whole s).outcome_eq

end LetIf
