import LetIf.Proofs.Grammar.Vocabulary
import LetIf.Proofs.Records

/-!
# What rules note

A rule notes the bindings, conditionals and names that it reads, as it comes to
them. So what it has noted when it succeeds is its result gone through in order,
each node ahead of its parts.
-/

namespace LetIf

/-- The records of an expression: one for each conditional, ahead of those of
its three parts, and one for each name. Literals leave none. -/
def Expr.log : Expr → List String
  | .ite c y n => "[DEBUG] Entering if expression" :: (c.log ++ y.log ++ n.log)
  | .name text => ["[TRACE] name `" ++ text ++ "`"]
  | .bool _ | .num _ => []

def Binding.log (b : Binding) : List String :=
  ("[DEBUG] Entering let binding `" ++ b.name ++ "`") :: b.body.log

def Program.log (p : Program) : List String := p.bindings.flatMap Binding.log

namespace Grammar

variable {α β : Type}

def logOf (r : Reading α) : List String := r.events.map Event.record

/-- A sequence succeeds if its parts do, one after the other, and what they
noted is joined. -/
theorem andThen_eq_ok {r : Reading α} {next : α → List Terminal → Reading β} {b : β}
    (h : (r.andThen next).result = .ok b) :
    ∃ a, r.result = .ok a ∧ (next a r.rest).result = .ok b ∧
      logOf (r.andThen next) = logOf r ++ logOf (next a r.rest) := by
  unfold Reading.andThen at h ⊢
  cases hr : r.result with
  | error refusal => simp [hr] at h
  | ok a =>
    simp only [hr] at h ⊢
    exact ⟨a, rfl, h, List.map_append⟩

theorem map_eq_ok {r : Reading α} {f : α → β} {b : β} (h : (r.map f).result = .ok b) :
    ∃ a, r.result = .ok a ∧ f a = b := by
  unfold Reading.map at h
  cases hr : r.result with
  | error refusal => simp [hr, Except.map] at h
  | ok a => exact ⟨a, rfl, by simpa [hr, Except.map] using h⟩

@[simp] theorem logOf_map (r : Reading α) (f : α → β) : logOf (r.map f) = logOf r := rfl

@[simp] theorem logOf_note (r : Reading α) (event : Event) :
    logOf (r.note event) = event.record :: logOf r := rfl

theorem events_terminal (expected : Expected) (ts : List Terminal) :
    (terminal expected ts).events = [] := by
  unfold terminal
  split
  · rfl
  · split <;> rfl

@[simp] theorem logOf_terminal (expected : Expected) (ts : List Terminal) :
    logOf (terminal expected ts) = [] := by
  rw [logOf, events_terminal, List.map_nil]

@[simp] theorem logOf_names (ts : List Terminal) : logOf (names ts) = [] := rfl

def Mirrors (log : α → List String) (r : Reading α) : Prop :=
  ∀ a, r.result = .ok a → logOf r = log a

theorem mirrors_leaf (t : Terminal) (rest : List Terminal) : Mirrors Expr.log (leaf t rest) := by
  intro e h
  fun_cases leaf t rest with
  | case1 =>
    simp only [leaf, *] at h ⊢
    cases h
    rw [logOf_note, record_name]
    rfl
  | case2 | case4 =>
    simp only [leaf, *] at h ⊢
    cases h
    rfl
  | case3 | case5 | case6 =>
    simp only [leaf, *] at h
    cases h

theorem mirrors_branches_of {ts : List Terminal}
    (ih : ∀ us, us <:+ ts → Mirrors Expr.log (expression us)) :
    Mirrors Expr.log (branches ts) := by
  intro e h
  rw [branches_eq] at h ⊢
  -- Each part is read from what the parts before it left, which is a suffix.
  obtain ⟨c, hc, h, hlog₁⟩ := andThen_eq_ok h
  have hs₁ := suffix_expression ts
  obtain ⟨-, -, h, hlog₂⟩ := andThen_eq_ok h
  have hs₂ := (suffix_terminal (.spelled .keyword "then") _).trans hs₁
  obtain ⟨y, hy, h, hlog₃⟩ := andThen_eq_ok h
  have hs₃ := (suffix_expression _).trans hs₂
  obtain ⟨-, -, h, hlog₄⟩ := andThen_eq_ok h
  have hs₄ := (suffix_terminal (.spelled .keyword "else") _).trans hs₃
  obtain ⟨n, hn, rfl⟩ := map_eq_ok h
  rw [logOf_note, hlog₁, hlog₂, hlog₃, hlog₄, ih ts (List.suffix_refl ts) c hc, ih _ hs₂ y hy,
    logOf_map, ih _ hs₄ n hn]
  simp [Expr.log, record_conditional]

theorem mirrors_expression (ts : List Terminal) : Mirrors Expr.log (expression ts) := by
  induction hn : ts.length using Nat.strongRecOn generalizing ts with
  | ind n ih =>
    cases ts with
    | nil =>
      intro e h
      rw [expression_nil] at h
      cases h
    | cons t rest =>
      rw [expression_cons]
      split
      · refine mirrors_branches_of fun us hus => ih us.length ?_ us rfl
        have := hus.length_le
        simp only [← hn, List.length_cons]
        omega
      · exact mirrors_leaf t rest

theorem mirrors_binding (ts : List Terminal) : Mirrors Binding.log (binding ts) := by
  intro b h
  unfold binding at h ⊢
  obtain ⟨-, -, h, hlog₁⟩ := andThen_eq_ok h
  obtain ⟨name, -, h, hlog₂⟩ := andThen_eq_ok h
  rw [hlog₁, hlog₂, logOf_note]
  obtain ⟨args, -, h, hlog₃⟩ := andThen_eq_ok h
  obtain ⟨-, -, h, hlog₄⟩ := andThen_eq_ok h
  obtain ⟨e, he, rfl⟩ := map_eq_ok h
  rw [hlog₃, hlog₄, logOf_map, mirrors_expression _ e he]
  simp [Binding.log, record_binding]

theorem mirrors_bindings (ts : List Terminal) :
    Mirrors (List.flatMap Binding.log) (bindings ts) := by
  induction ts using bindings.induct with
  | case1 =>
    intro bs h
    rw [bindings] at h ⊢
    cases h
    rfl
  | case2 t rest ht r ih =>
    intro bs h
    rw [bindings_cons_newline rest ht] at h ⊢
    obtain ⟨b, hb, h, hlog⟩ := andThen_eq_ok h
    obtain ⟨bs, hbs, rfl⟩ := map_eq_ok h
    rw [hlog, logOf_map, mirrors_binding rest b hb, List.flatMap_cons]
    exact congrArg _ (ih bs hbs)
  | case3 t rest ht =>
    intro bs h
    rw [bindings_of_ne_newline (by simpa using ht)] at h ⊢
    cases h
    rfl

theorem events_whole (ts : List Terminal) :
    (whole ts).events = (bindings ts).events ++
      match (whole ts).result with
      | .ok p => [.parsed p.bindings.length]
      | .error _ => [] := by
  cases hr : (bindings ts).result with
  | error f =>
    rw [(whole_of_error hr).1]
    simp [whole, program, Reading.andThen, Reading.map, hr, Except.map]
  | ok bs =>
    cases hrest : (bindings ts).rest with
    | nil =>
      rw [whole_of_rest_nil hr hrest]
      simp [whole, program, Reading.andThen, Reading.map, Reading.note, Reading.done, hr, hrest,
        Except.map]
    | cons t rest =>
      rw [(whole_of_rest_cons hr hrest).1]
      simp [whole, program, Reading.andThen, Reading.map, Reading.refuse, hr, hrest, Except.map]

theorem bindings_of_whole {ts : List Terminal} {p : Program} (h : (whole ts).result = .ok p) :
    (bindings ts).result = .ok p.bindings := by
  obtain ⟨q, hq, hp, -⟩ := andThen_eq_ok h
  obtain ⟨bs, hbs, rfl⟩ := map_eq_ok hq
  split at hp
  · cases hp
    exact hbs
  · cases hp

theorem logOf_whole {ts : List Terminal} {p : Program} (h : (whole ts).result = .ok p) :
    logOf (whole ts) = p.log ++ ["[INFO] parsed " ++ p.bindings.length.repr ++ " binding(s)"] := by
  rw [logOf, events_whole, h, List.map_append, ← record_parsed]
  exact congrArg (· ++ _) (mirrors_bindings ts _ (bindings_of_whole h))

def StepsOnly (r : Reading α) : Prop := ∀ e ∈ r.events, e.isStep

theorem stepsOnly_of_eq_nil {r : Reading α} (h : r.events = []) : StepsOnly r := by
  simp [StepsOnly, h]

theorem StepsOnly.note {r : Reading α} {event : Event} (he : event.isStep) (h : StepsOnly r) :
    StepsOnly (r.note event) :=
  List.forall_mem_cons.2 ⟨he, h⟩

theorem StepsOnly.andThen {r : Reading α} {next : α → List Terminal → Reading β}
    (h : StepsOnly r) (hn : ∀ a, StepsOnly (next a r.rest)) : StepsOnly (r.andThen next) := by
  unfold Reading.andThen
  split
  · exact h
  next a _ =>
    intro e he
    rcases List.mem_append.1 he with he | he
    · exact h e he
    · exact hn a e he

theorem stepsOnly_leaf (t : Terminal) (rest : List Terminal) : StepsOnly (leaf t rest) := by
  fun_cases leaf t rest with
  | case1 => exact StepsOnly.note rfl (stepsOnly_of_eq_nil rfl)
  | _ => exact stepsOnly_of_eq_nil rfl

theorem closed_stepsOnly : Closed fun _ => StepsOnly where
  done _ _ := stepsOnly_of_eq_nil rfl
  unrecognised _ _ := stepsOnly_of_eq_nil rfl
  terminal _ _ := stepsOnly_of_eq_nil (events_terminal _ _)
  leaf := stepsOnly_leaf
  note := StepsOnly.note
  map _ h := h
  andThen := StepsOnly.andThen

theorem stepsOnly_whole_of_error {ts : List Terminal} {f : Refusal}
    (h : (whole ts).result = .error f) : StepsOnly (whole ts) := by
  rw [StepsOnly, events_whole, h, List.append_nil]
  exact closed_stepsOnly.bindings ts

end Grammar

end LetIf
