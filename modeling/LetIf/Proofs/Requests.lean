import LetIf.Proofs.Arguments
import LetIf.Proofs.Command

/-!
# What arguments ask for

The kinds that pass the check of the arguments are the kinds that can be read, so
the text of a value that passed is never refused.
-/

namespace LetIf

open Text (Bytes encode)

-- ---------------------------------------------------------------------------
-- Accepted items
-- ---------------------------------------------------------------------------

/-- One path, the option at most once and with the spelling of the kind, and the
flag at most once. -/
structure Requests (items : List Item) (o : Options) : Prop where
  path : Options.paths items = [o.path]
  emit : Options.emits items = [some (encode o.emit.spelling)] ∨
    (Options.emits items = [] ∧ o.emit = .ast)
  verbose : items.count .verbose = if o.verbose then 1 else 0

theorem isSpelling_iff {value : Bytes} :
    Options.isSpelling value ↔ ∃ emit : Emit, value = encode emit.spelling := by
  unfold Options.isSpelling
  constructor
  · intro h
    obtain ⟨emit, -, he⟩ := List.any_eq_true.1 h
    exact ⟨emit, (of_decide_eq_true he).symm⟩
  · rintro ⟨emit, rfl⟩
    refine List.any_eq_true.2 ⟨emit, ?_, by simp⟩
    cases emit <;> simp [Emit.all]

theorem ofText_spelling (emit : Emit) : Emit.ofText emit.spelling = .ok emit := by
  cases emit <;> exact eq_ok_of_toOption (by decide +kernel)

theorem display_spelling (emit : Emit) : Text.display (encode emit.spelling) = emit.spelling := by
  cases emit <;> decide +kernel

theorem choice_spelling (emit : Emit) :
    Options.choice (some (encode emit.spelling)) = .ok emit := by
  simp [Options.choice, display_spelling, ofText_spelling]

theorem Options.Describes.emits_eq {items : List Item} {o : Options} (h : Describes items o) :
    emits items = [some (encode o.emit.spelling)] ∨ (emits items = [] ∧ o.emit = .ast) := by
  obtain ⟨-, -, hvalue, hspell, honce, hemit, -⟩ := h
  match hg : emits items with
  | [] =>
    rw [hg] at hemit
    exact .inr ⟨rfl, (Except.ok.inj hemit).symm⟩
  | [none] => simp [hg] at hvalue
  | [some value] =>
    rw [hg] at hemit hspell
    obtain ⟨emit, rfl⟩ := isSpelling_iff.1 (by simpa using hspell)
    have hchoice : choice (some (encode emit.spelling)) = .ok o.emit := hemit
    rw [choice_spelling] at hchoice
    rw [Except.ok.inj hchoice]
    exact .inl rfl
  | _ :: _ :: _ => simp [hg] at honce

theorem Options.Describes.usable {items : List Item} {o : Options} (h : Describes items o) :
    ∀ item ∈ items, item.Usable := by
  intro item hi
  have hstop := (stop?_eq_none_iff.1 h.stop).1 item hi
  cases item with
  | path | verbose => trivial
  | help | version | unknown => simp at hstop
  | emit value =>
    cases value with
    | none => exact absurd hi h.emit_none_not_mem
    | some value => trivial

theorem Options.Describes.requests {items : List Item} {o : Options} (h : Describes items o) :
    Requests items o := by
  refine ⟨h.path, h.emits_eq, ?_⟩
  have honce := h.once
  rw [h.verbose]
  by_cases hc : items.count .verbose = 0
  · simp [hc]
  · rw [if_pos (by simpa using hc)]
    omega

theorem Requests.describes {items : List Item} {o : Options} (h : Requests items o)
    (hu : ∀ item ∈ items, item.Usable) : Options.Describes items o := by
  have hstops : ∀ item ∈ items, item ∉ [.help, .version, .unknown] := by
    intro item hi
    have := hu item hi
    cases item <;> simp_all [Item.Usable]
  have hverbose : items.count .verbose ≤ 1 ∧ o.verbose = decide (items.count .verbose ≠ 0) := by
    rw [h.verbose]
    cases o.verbose <;> decide
  have hstop : Options.stop? false items = none :=
    Options.stop?_eq_none_iff.2 ⟨hstops, by simp [h.path]⟩
  rcases h.emit with he | ⟨he, hast⟩
  · have hspell : Options.isSpelling (encode o.emit.spelling) := isSpelling_iff.2 ⟨_, rfl⟩
    refine ⟨hstop, h.path, by simp [he], by simp [he, hspell], by simp [he, hverbose.1], ?_,
      hverbose.2⟩
    rw [he]
    exact choice_spelling o.emit
  · refine ⟨hstop, h.path, by simp [he], by simp [he], by simp [he, hverbose.1], ?_, hverbose.2⟩
    rw [he, hast]
    rfl

theorem ofArgs_eq_ok_iff {args : List Bytes} {o : Options} :
    Options.ofArgs args = .ok o ↔ ∃ items, Asks args items ∧ Requests items o := by
  unfold Options.ofArgs
  rw [Options.ofItems_eq_ok_iff]
  constructor
  · intro h
    exact ⟨_, asks_iff.2 ⟨rfl, h.usable⟩, h.requests⟩
  · rintro ⟨items, ha, hr⟩
    obtain ⟨rfl, hu⟩ := asks_iff.1 ha
    exact hr.describes hu

-- ---------------------------------------------------------------------------
-- Reading the kind to print
-- ---------------------------------------------------------------------------

namespace Checked

def options? (c : Checked) : Option (Except Stop Options) :=
  match c.value with
  | none => some (.ok ⟨c.path, .ast, c.verbose⟩)
  | some value =>
    (String.fromUTF8? ⟨value.toArray⟩).map fun text =>
      (Emit.ofText text).map (⟨c.path, ·, c.verbose⟩)

theorem stop?_ne_unknownEmit (seen : Bool) (items : List Item) (text : String) :
    Options.stop? seen items ≠ some (.unknownEmit text) := by
  fun_induction Options.stop? seen items <;> simp_all

theorem ofItems_ne_unknownEmit (items : List Item) (text : String) :
    ofItems items ≠ .error (.unknownEmit text) := by
  unfold ofItems
  split
  next hstop =>
    intro h
    rw [Except.error.inj h] at hstop
    exact stop?_ne_unknownEmit false items text hstop
  · simp
  · simp only
    repeat' split
    all_goals simp

theorem isSpelling_of_ofItems {items : List Item} {c : Checked} (h : ofItems items = .ok c) :
    ∀ value ∈ c.value, Options.isSpelling value := by
  unfold ofItems at h
  split at h
  · cases h
  · cases h
  · simp only at h
    split at h
    · cases h
    split at h
    · cases h
    next hspell =>
      split at h
      · cases h
      · cases h
        intro value hv
        have hall : ((Options.emits items).filterMap id).all Options.isSpelling := by
          simpa using hspell
        exact List.all_eq_true.1 hall value (List.mem_of_head? hv)

theorem fromUTF8?_encode (text : String) : String.fromUTF8? ⟨(encode text).toArray⟩ = some text :=
  fromUTF8?_eq_some_iff.2 (by simp [encode])

theorem options_of_isSpelling {c : Checked} (h : ∀ value ∈ c.value, Options.isSpelling value) :
    ∃ o, c.options = .ok o ∧ c.options? = some (.ok o) := by
  unfold options options?
  cases hc : c.value with
  | none => exact ⟨_, rfl, rfl⟩
  | some value =>
    obtain ⟨emit, rfl⟩ := isSpelling_iff.1 (h value hc)
    simp only [choice_spelling, fromUTF8?_encode, Option.map_some, ofText_spelling]
    exact ⟨_, rfl, rfl⟩

/-- Reads the options, the value as a text. There is no answer where the value
passes the checks without being a text. -/
def read? (args : List Bytes) : Option (Except Stop Options) :=
  match ofItems (Item.ofArgs args) with
  | .error stop => some (.error stop)
  | .ok c => c.options?

theorem read?_eq (args : List Bytes) :
    read? args = some (Options.ofArgs args) ∧
      ∀ text, Options.ofArgs args ≠ .error (.unknownEmit text) := by
  rw [Options.ofArgs, Options.ofItems, read?]
  cases hc : ofItems (Item.ofArgs args) with
  | error stop =>
    refine ⟨rfl, fun text h => ofItems_ne_unknownEmit (Item.ofArgs args) text ?_⟩
    rw [hc, Except.error.inj h]
  | ok c =>
    obtain ⟨o, ho, ho'⟩ := options_of_isSpelling (isSpelling_of_ofItems hc)
    simp [Except.bind, ho, ho']

end Checked

/-- Arguments are read for every value of the option, and no value that passes
the checks is refused when it is read. They are accepted exactly if they ask for
one path, for at most one kind by its spelling, and for a log at most once, and
they can be understood in one way only. So the exit code two is never about the
arguments. -/
theorem arguments_give_what_they_ask (args : List Bytes) :
    Checked.read? args = some (Options.ofArgs args) ∧
    (∀ text, Options.ofArgs args ≠ .error (.unknownEmit text)) ∧
    (∀ o, Options.ofArgs args = .ok o ↔ ∃ items, Asks args items ∧ Requests items o) ∧
    (∀ items items', Asks args items → Asks args items' → items' = items) ∧
    (∀ read stop, Options.ofArgs args = .error stop → (Command.run read args).exit ≠ 2) := by
  obtain ⟨hread, hemit⟩ := Checked.read?_eq args
  refine ⟨hread, hemit, fun o => ofArgs_eq_ok_iff, ?_, ?_⟩
  · intro items items' h h'
    rw [← (asks_iff.1 h).1, ← (asks_iff.1 h').1]
  · intro read stop hstop
    simp only [Command.run, hstop]
    cases stop with
    | help | version | misuse => simp [Command.stopped]
    | unknownEmit text => exact absurd hstop (hemit text)

/-- The flag and the option in a bundle, the value in the next argument, and a
path that looks like an option. -/
def bundled : List Bytes := [encode "-ve", encode "tokens", encode "--", encode "-f"]

def misspelled (value : Bytes) : List Bytes := [encode "f", encode "--emit", value]

/-- With blanks around it a kind can be read, but it does not pass the check, and
neither do bytes that are no text. -/
theorem arguments_bundled :
    (∃ items, Asks bundled items ∧ Requests items ⟨encode "-f", .tokens, true⟩) ∧
    (∀ value ∈ [encode " ast", [0xff]], ∃ stop, Options.ofArgs (misspelled value) = .error stop ∧
      Checked.read? (misspelled value) = some (.error stop) ∧
      (Command.run (oneFile "") (misspelled value)).exit ≠ 2) := by
  have ho : Options.ofArgs bundled = .ok ⟨encode "-f", .tokens, true⟩ :=
    eq_ok_of_toOption (by decide +kernel)
  refine ⟨((arguments_give_what_they_ask bundled).2.2.1 _).1 ho, fun value hv => ?_⟩
  have hnone : (Options.ofArgs (misspelled value)).toOption.isNone := by
    revert value
    decide +kernel
  obtain ⟨stop, hs⟩ := exists_eq_error hnone
  obtain ⟨hread, -, -, -, hexit⟩ := arguments_give_what_they_ask (misspelled value)
  exact ⟨stop, hs, hs ▸ hread, hexit (oneFile "") stop hs⟩

end LetIf
