import LetIf.Proofs.Grammar.Programs

/-!
# What the rules refuse

A property of readings that single terminals have, and that is kept where
readings are put together (`Closed`), holds of every rule. That refusals are of
a few kinds is such a property: only the spelling of a literal is refused after
it was read.
-/

namespace LetIf

def Event.isStep : Event → Bool
  | .binding _ | .conditional | .name _ => true
  | _ => false

namespace Grammar

variable {α β : Type}

def vocabulary : List Expected :=
  [.spelled .keyword "let", .spelled .keyword "then", .spelled .keyword "else",
    .spelled .symbol "=", .kind .name, .kind .eof]

/-- A property of readings that single terminals have and that every way to put
readings together keeps. -/
structure Closed (P : (α : Type) → Reading α → Prop) : Prop where
  done : ∀ {α : Type} (a : α) (rest : List Terminal), P α (.done a rest)
  unrecognised : ∀ (found : String) (rest : List Terminal),
    P Expr (.refuse (.unrecognisedExpression found) rest)
  terminal : ∀ {expected : Expected}, expected ∈ vocabulary →
    ∀ ts, P Terminal (terminal expected ts)
  leaf : ∀ (t : Terminal) (rest : List Terminal), P Expr (leaf t rest)
  note : ∀ {α : Type} {r : Reading α} {event : Event}, event.isStep → P α r →
    P α (r.note event)
  map : ∀ {α β : Type} {r : Reading α} (f : α → β), P α r → P β (r.map f)
  andThen : ∀ {α β : Type} {r : Reading α} {next : α → List Terminal → Reading β}, P α r →
    (∀ a, P β (next a r.rest)) → P β (r.andThen next)

namespace Closed

variable {P : (α : Type) → Reading α → Prop}

theorem branches_of (h : Closed P) {ts : List Terminal}
    (ih : ∀ us, us <:+ ts → P Expr (expression us)) : P Expr (branches ts) := by
  rw [branches_eq]
  refine h.note rfl ?_
  have hc := suffix_expression ts
  refine h.andThen (ih ts (List.suffix_refl ts)) fun c => ?_
  have ht := (suffix_terminal (.spelled .keyword "then") (Grammar.expression ts).rest).trans hc
  refine h.andThen (h.terminal (by decide) _) fun _ => ?_
  have hy := (suffix_expression _).trans ht
  refine h.andThen (ih _ ht) fun y => ?_
  have he := (suffix_terminal (.spelled .keyword "else") _).trans hy
  exact h.andThen (h.terminal (by decide) _) fun _ => h.map _ (ih _ he)

theorem expression (h : Closed P) (ts : List Terminal) : P Expr (expression ts) := by
  induction hn : ts.length using Nat.strongRecOn generalizing ts with
  | ind n ih =>
    cases ts with
    | nil =>
      rw [expression_nil]
      exact h.unrecognised _ _
    | cons t rest =>
      rw [expression_cons]
      split
      · refine h.branches_of fun us hus => ih us.length ?_ us rfl
        have := hus.length_le
        simp only [← hn, List.length_cons]
        omega
      · exact h.leaf t rest

theorem branches (h : Closed P) (ts : List Terminal) : P Expr (branches ts) :=
  h.branches_of fun us _ => h.expression us

theorem binding (h : Closed P) (ts : List Terminal) : P Binding (binding ts) := by
  refine h.andThen (h.terminal (by decide) ts) fun _ => ?_
  refine h.andThen (h.terminal (by decide) _) fun name => h.note rfl ?_
  refine h.andThen (h.done _ _) fun args => ?_
  exact h.andThen (h.terminal (by decide) _) fun _ => h.map _ (h.expression _)

theorem bindings (h : Closed P) (ts : List Terminal) : P (List Binding) (bindings ts) := by
  induction ts using bindings.induct with
  | case1 =>
    rw [Grammar.bindings]
    exact h.done _ _
  | case2 t rest ht r ih =>
    rw [bindings_cons_newline rest ht]
    exact h.andThen (h.binding rest) fun _ => h.map _ ih
  | case3 t rest ht =>
    rw [bindings_of_ne_newline (by simpa using ht)]
    exact h.done _ _

theorem program (h : Closed P) (ts : List Terminal) : P Program (program ts) :=
  h.map _ (h.bindings ts)

end Closed

def Asked : Cause → Prop
  | .unexpectedToken expected _ => expected ∈ vocabulary
  | _ => True

def Asks (r : Reading α) : Prop := ∀ f, r.result = .error f → Asked f.cause

/-- The refusals that rules make, and the terminal each of them is about. -/
inductive Usual : Refusal → Prop
  | missing {expected : Expected} {found : String} :
      expected ∈ vocabulary → Usual ⟨.unexpectedToken expected found, .next⟩
  | unrecognised {found : String} : Usual ⟨.unrecognisedExpression found, .next⟩
  | number {text : String} : Usual ⟨.malformedNumber text, .latest⟩
  | boolean {text : String} : Usual ⟨.malformedBoolean text, .latest⟩

theorem Usual.asked {f : Refusal} (h : Usual f) : Asked f.cause := by
  cases h with
  | missing hv => exact hv
  | _ => trivial

def RefusesUsually (r : Reading α) : Prop := ∀ f, r.result = .error f → Usual f

theorem refusesUsually_of_ok {r : Reading α} {a : α} (h : r.result = .ok a) :
    RefusesUsually r := by
  intro f hf
  rw [h] at hf
  cases hf

theorem refusesUsually_of_error {r : Reading α} {f : Refusal} (h : r.result = .error f)
    (hf : Usual f) : RefusesUsually r := by
  intro g hg
  rw [h] at hg
  cases hg
  exact hf

theorem refusesUsually_terminal {expected : Expected} (h : expected ∈ vocabulary)
    (ts : List Terminal) : RefusesUsually (terminal expected ts) := by
  unfold terminal
  split
  · exact refusesUsually_of_error rfl (.missing h)
  · split
    · exact refusesUsually_of_ok rfl
    · exact refusesUsually_of_error rfl (.missing h)

theorem refusesUsually_leaf (t : Terminal) (rest : List Terminal) :
    RefusesUsually (leaf t rest) := by
  fun_cases leaf t rest with
  | case1 | case2 | case4 => exact refusesUsually_of_ok rfl
  | case3 => exact refusesUsually_of_error rfl .number
  | case5 => exact refusesUsually_of_error rfl .boolean
  | case6 => exact refusesUsually_of_error rfl .unrecognised

theorem RefusesUsually.map {r : Reading α} (h : RefusesUsually r) (f : α → β) :
    RefusesUsually (r.map f) := by
  cases hr : r.result with
  | ok a => exact refusesUsually_of_ok (a := f a) (by simp [Reading.map, hr, Except.map])
  | error e =>
    exact refusesUsually_of_error (f := e) (by simp [Reading.map, hr, Except.map]) (h e hr)

theorem RefusesUsually.andThen {r : Reading α} {next : α → List Terminal → Reading β}
    (h : RefusesUsually r) (hn : ∀ a, RefusesUsually (next a r.rest)) :
    RefusesUsually (r.andThen next) := by
  cases hr : r.result with
  | ok a =>
    intro f hf
    exact hn a f (by simpa [Reading.andThen, hr] using hf)
  | error e =>
    exact refusesUsually_of_error (f := e) (by simp [Reading.andThen, hr]) (h e hr)

theorem closed_refusesUsually : Closed fun _ => RefusesUsually where
  done _ _ := refusesUsually_of_ok rfl
  unrecognised _ _ := refusesUsually_of_error rfl .unrecognised
  terminal := refusesUsually_terminal
  leaf := refusesUsually_leaf
  note _ h := h
  map f h := h.map f
  andThen := RefusesUsually.andThen

theorem refusesUsually_expression (ts : List Terminal) : RefusesUsually (expression ts) :=
  closed_refusesUsually.expression ts

theorem refusesUsually_branches (ts : List Terminal) : RefusesUsually (branches ts) :=
  closed_refusesUsually.branches ts

theorem refusesUsually_binding (ts : List Terminal) : RefusesUsually (binding ts) :=
  closed_refusesUsually.binding ts

theorem refusesUsually_program (ts : List Terminal) : RefusesUsually (program ts) :=
  closed_refusesUsually.program ts

theorem refusesUsually_whole (ts : List Terminal) : RefusesUsually (whole ts) := by
  refine (refusesUsually_program ts).andThen fun p => ?_
  split
  · exact refusesUsually_of_ok rfl
  · exact refusesUsually_of_error rfl (.missing (by decide))

theorem asks_whole (ts : List Terminal) : Asks (whole ts) := fun f hf =>
  (refusesUsually_whole ts f hf).asked

end Grammar

end LetIf
