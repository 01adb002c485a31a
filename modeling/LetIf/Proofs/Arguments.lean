import LetIf.Proofs.Lexeme
import LetIf.Proofs.Options

/-!
# Written arguments

Arguments that can be accepted are written in a small language, by long names or
in bundles of letters. Sorting arguments into items undoes the writing.
-/

namespace LetIf

open Text (Bytes encode)

def Plain (arg : Bytes) : Prop := arg = [dash] ∨ arg.head? ≠ some dash

/-- The value written behind an option, after any number of equals signs. -/
def Carries (tail value : Bytes) : Prop :=
  (∃ n, tail = List.replicate n equalsSign ++ value) ∧ value.head? ≠ some equalsSign

def longOption (n : Nat) (name : String) : Bytes := List.replicate (n + 2) dash ++ encode name

/-- The letters after one dash. Only the last one may take a value. -/
inductive Letters : Bytes → Cluster → Prop
  | done : Letters [] { items := [] }
  | verbose {bs : Bytes} {c : Cluster} : Letters bs c →
      Letters ('v'.toUInt8 :: bs) { c with items := .verbose :: c.items }
  | emit : Letters ['e'.toUInt8] ⟨[], true⟩
  | value {tail value : Bytes} : tail ≠ [] → Carries tail value →
      Letters ('e'.toUInt8 :: tail) { items := [.emit (some value)] }

inductive Spells : Bytes → Cluster → Prop
  | verbose (n : Nat) {tail : Bytes} : (∀ b ∈ tail.head?, b = equalsSign) →
      Spells (longOption n "verbose" ++ tail) { items := [.verbose] }
  | emit (n : Nat) : Spells (longOption n "emit") ⟨[], true⟩
  | value (n : Nat) {tail value : Bytes} : tail.head? = some equalsSign → Carries tail value →
      Spells (longOption n "emit" ++ tail) { items := [.emit (some value)] }
  | letters {bs : Bytes} {c : Cluster} : bs ≠ [] → Letters bs c → Spells (dash :: bs) c

/-- Arguments that can be accepted, and the items they are written for. -/
inductive Asks : List Bytes → List Item → Prop
  | nil : Asks [] []
  | paths (args : List Bytes) : Asks ([dash, dash] :: args) (args.map .path)
  | path {arg : Bytes} {args : List Bytes} {items : List Item} : Plain arg → Asks args items →
      Asks (arg :: args) (.path arg :: items)
  | option {arg : Bytes} {args : List Bytes} {given items : List Item} :
      Spells arg ⟨given, false⟩ → Asks args items → Asks (arg :: args) (given ++ items)
  | value {arg value : Bytes} {args : List Bytes} {given items : List Item} :
      Spells arg ⟨given, true⟩ → Plain value → Asks args items →
      Asks (arg :: value :: args) (given ++ .emit (some value) :: items)

def Item.Usable : Item → Prop
  | .path _ | .emit (some _) | .verbose => True
  | .emit none | .help | .version | .unknown => False

theorem exists_replicate_append (b : UInt8) (bs : Bytes) :
    ∃ n, bs = List.replicate n b ++ bs.dropWhile (· = b) := by
  have hrun : ∀ c ∈ bs.takeWhile (· = b), c = b := fun c hc => by
    simpa using List.all_eq_true.1 List.all_takeWhile c hc
  refine ⟨(bs.takeWhile (· = b)).length, ?_⟩
  rw [← List.eq_replicate_of_mem hrun, List.takeWhile_append_dropWhile]

theorem dropWhile_replicate_append {b : UInt8} (n : Nat) {rest : Bytes}
    (h : rest.head? ≠ some b) : (List.replicate n b ++ rest).dropWhile (· = b) = rest := by
  refine (Lexeme.span_append ?_ ?_).2
  · simp [List.mem_replicate]
  · intro c hc
    simpa using fun hb : c = b => h (hb ▸ hc)

theorem carries_iff {tail value : Bytes} :
    Carries tail value ↔ tail.dropWhile (· = equalsSign) = value := by
  constructor
  · rintro ⟨⟨n, rfl⟩, hv⟩
    exact dropWhile_replicate_append n hv
  · rintro rfl
    refine ⟨exists_replicate_append equalsSign tail, fun h => ?_⟩
    simpa using Lexeme.ends_dropWhile tail equalsSign h

theorem plain_iff {arg : Bytes} : Plain arg ↔ Cluster.ofArg? arg = none := by
  unfold Plain Cluster.ofArg?
  split
  next b c rest => by_cases hb : b = dash <;> by_cases hc : c = dash <;> simp [hb, hc]
  next h =>
    match arg with
    | [] => simp
    | [b] => simp [Classical.em]
    | b :: c :: rest => exact absurd rfl (h b c rest)

theorem short_value {tail : Bytes} (h : tail ≠ []) :
    Cluster.short ('e'.toUInt8 :: tail) =
      { items := [.emit (some (tail.dropWhile (· = equalsSign)))] } := by
  have hempty : tail.isEmpty = false := by simpa using h
  simp only [Cluster.short, hempty]
  rfl

theorem letters_iff {bs : Bytes} {c : Cluster} :
    Letters bs c ↔ Cluster.short bs = c ∧ ∀ item ∈ c.items, item.Usable := by
  constructor
  · intro h
    induction h with
    | done => exact ⟨rfl, by simp⟩
    | verbose _ ih =>
      refine ⟨?_, List.forall_mem_cons.2 ⟨trivial, ih.2⟩⟩
      rw [Cluster.short, if_pos rfl, ih.1]
    | emit => exact ⟨rfl, by simp⟩
    | value hne hv =>
      refine ⟨?_, by simp [Item.Usable]⟩
      rw [short_value hne, carries_iff.1 hv]
  · rintro ⟨rfl, hu⟩
    induction bs with
    | nil => exact .done
    | cons b bs ih =>
      by_cases he : b = 'e'.toUInt8
      · subst he
        by_cases hne : bs = []
        · subst hne
          exact .emit
        · rw [short_value hne]
          exact .value hne (carries_iff.2 rfl)
      unfold Cluster.short at hu ⊢
      split at hu
      next hb =>
        subst hb
        exact .verbose (ih (List.forall_mem_cons.1 hu).2)
      · -- The other letters stop the command.
        split at hu
        · cases hu _ List.mem_cons_self
        split at hu <;> cases hu _ List.mem_cons_self

theorem longOption_parts (n : Nat) (name : String) {tail : Bytes}
    (hdash : (encode name).head?.any (· ≠ dash)) (hname : equalsSign ∉ encode name)
    (htail : ∀ b ∈ tail.head?, b = equalsSign) :
    let body := (longOption n name ++ tail).dropWhile (· = dash)
    body.takeWhile (· ≠ equalsSign) = encode name ∧ body.dropWhile (· ≠ equalsSign) = tail := by
  obtain ⟨b, hb, hne⟩ := (Option.any_eq_true _ _).1 hdash
  have hbody : (longOption n name ++ tail).dropWhile (· = dash) = encode name ++ tail := by
    rw [longOption, List.append_assoc, dropWhile_replicate_append]
    simpa [List.head?_append, hb] using hne
  rw [hbody]
  refine Lexeme.span_append (fun c hc => ?_) (by simpa using htail)
  simpa using fun h : c = equalsSign => hname (h ▸ hc)

theorem long_verbose (n : Nat) {tail : Bytes} (h : ∀ b ∈ tail.head?, b = equalsSign) :
    Cluster.long (longOption n "verbose" ++ tail) = { items := [.verbose] } := by
  obtain ⟨hname, -⟩ := longOption_parts n "verbose" (by decide +kernel) (by decide +kernel) h
  simp only [Cluster.long, hname]
  rfl

theorem long_emit (n : Nat) {tail : Bytes} (h : ∀ b ∈ tail.head?, b = equalsSign) :
    Cluster.long (longOption n "emit" ++ tail) =
      if tail.isEmpty then ⟨[], true⟩
      else { items := [.emit (some (tail.dropWhile (· = equalsSign)))] } := by
  obtain ⟨hname, htail⟩ := longOption_parts n "emit" (by decide +kernel) (by decide +kernel) h
  simp only [Cluster.long, hname, htail]
  rfl

theorem long_cases (rest : Bytes) :
    (∃ n tail, (∀ b ∈ tail.head?, b = equalsSign) ∧
      (dash :: dash :: rest = longOption n "verbose" ++ tail ∨
        dash :: dash :: rest = longOption n "emit" ++ tail)) ∨
    ∃ item, (Cluster.long (dash :: dash :: rest)).items = [item] ∧ ¬item.Usable := by
  obtain ⟨n, hn⟩ := exists_replicate_append dash rest
  let body := rest.dropWhile (· = dash)
  have hbody : (dash :: dash :: rest).dropWhile (· = dash) = body := by simp [body]
  have hends : ∀ b ∈ (body.dropWhile (· ≠ equalsSign)).head?, b = equalsSign := by
    simpa using Lexeme.ends_dropWhile (p := (· ≠ equalsSign)) body
  have harg : dash :: dash :: rest =
      List.replicate (n + 2) dash ++ (body.takeWhile (· ≠ equalsSign) ++
        body.dropWhile (· ≠ equalsSign)) := by
    rw [List.takeWhile_append_dropWhile, List.replicate_succ, List.replicate_succ,
      List.cons_append, List.cons_append, ← hn]
  by_cases he : body.takeWhile (· ≠ equalsSign) = encode "emit"
  · rw [he, ← List.append_assoc] at harg
    exact .inl ⟨n, _, hends, .inr harg⟩
  by_cases hv : body.takeWhile (· ≠ equalsSign) = encode "verbose"
  · rw [hv, ← List.append_assoc] at harg
    exact .inl ⟨n, _, hends, .inl harg⟩
  · refine .inr ?_
    simp only [Cluster.long, hbody, if_neg he, if_neg hv]
    split
    · exact ⟨_, rfl, id⟩
    split <;> exact ⟨_, rfl, id⟩

theorem spells_of_long {rest : Bytes}
    (hu : ∀ item ∈ (Cluster.long (dash :: dash :: rest)).items, item.Usable) :
    Spells (dash :: dash :: rest) (Cluster.long (dash :: dash :: rest)) := by
  obtain ⟨n, tail, ht, harg | harg⟩ | ⟨item, hitems, hitem⟩ := long_cases rest
  · rw [harg, long_verbose n ht]
    exact .verbose n ht
  · rw [harg, long_emit n ht]
    cases tail with
    | nil =>
      rw [List.append_nil]
      exact .emit n
    | cons b tail => exact .value n (by simpa using ht) (carries_iff.2 rfl)
  · exact absurd (hu item (by simp [hitems])) hitem

theorem Letters.head_ne {b : UInt8} {bs : Bytes} {c : Cluster} (h : Letters (b :: bs) c) :
    b ≠ dash := by
  cases h <;> decide

theorem spells_iff {arg : Bytes} {c : Cluster} :
    Spells arg c ↔ Cluster.ofArg? arg = some c ∧ ∀ item ∈ c.items, item.Usable := by
  constructor
  · intro h
    cases h with
    | verbose n ht => exact ⟨congrArg some (long_verbose n ht), by simp [Item.Usable]⟩
    | emit n =>
      have hlong := long_emit n (by simp : ∀ b ∈ ([] : Bytes).head?, b = equalsSign)
      rw [List.append_nil] at hlong
      exact ⟨congrArg some hlong, by simp⟩
    | @value n tail value ht hv =>
      have hlong := long_emit n (by simp [ht] : ∀ b ∈ tail.head?, b = equalsSign)
      have hempty : tail.isEmpty = false := by cases tail <;> simp_all
      rw [hempty, carries_iff.1 hv] at hlong
      exact ⟨congrArg some hlong, by simp [Item.Usable]⟩
    | @letters bs _ hne hl =>
      obtain ⟨b, rest, rfl⟩ := List.exists_cons_of_ne_nil hne
      obtain ⟨hshort, hu⟩ := letters_iff.1 hl
      exact ⟨by simp [Cluster.ofArg?, hl.head_ne, hshort], hu⟩
  · rintro ⟨h, hu⟩
    unfold Cluster.ofArg? at h
    split at h
    next b b' rest =>
      split at h
      · cases h
      next hb =>
        obtain rfl : b = dash := by simpa using hb
        split at h
        next hb' =>
          subst hb'
          cases h
          exact spells_of_long hu
        next =>
          cases h
          exact .letters (List.cons_ne_nil _ _) (letters_iff.2 ⟨rfl, hu⟩)
    · cases h

theorem Spells.ofArgs {arg : Bytes} {c : Cluster} (h : Spells arg c) (args : List Bytes) :
    Item.ofArgs (arg :: args) =
      c.items ++ if c.awaits then Item.awaited args else Item.ofArgs args := by
  obtain ⟨hc, hu⟩ := spells_iff.1 h
  have hunknown : .unknown ∉ c.items := fun hm => hu _ hm
  exact Item.ofArgs_cluster (Item.ne_dashes hc hunknown) hc args

/-- Arguments that can be accepted are those whose items can be used. -/
theorem asks_iff {args : List Bytes} {items : List Item} :
    Asks args items ↔ Item.ofArgs args = items ∧ ∀ item ∈ items, item.Usable := by
  constructor
  · intro h
    induction h with
    | nil => exact ⟨rfl, by simp⟩
    | paths args => exact ⟨Item.ofArgs_dashes args, by simp [Item.Usable]⟩
    | path hp _ ih =>
      rw [Item.ofArgs_plain (plain_iff.1 hp), ih.1]
      exact ⟨rfl, List.forall_mem_cons.2 ⟨trivial, ih.2⟩⟩
    | option hs _ ih =>
      refine ⟨?_, List.forall_mem_append.2 ⟨(spells_iff.1 hs).2, ih.2⟩⟩
      simp [hs.ofArgs, ih.1]
    | @value arg value args given items hs hp _ ih =>
      have hu : ∀ item ∈ .emit (some value) :: items, item.Usable :=
        List.forall_mem_cons.2 ⟨trivial, ih.2⟩
      refine ⟨?_, List.forall_mem_append.2 ⟨(spells_iff.1 hs).2, hu⟩⟩
      simp [hs.ofArgs, Item.awaited, plain_iff.1 hp, ih.1]
  · rintro ⟨rfl, hu⟩
    fun_induction Item.ofArgs args with
    | case1 => exact .nil
    | case2 args => exact .paths args
    | case3 arg args hne hc ih =>
      exact .path (plain_iff.2 hc) (ih (List.forall_mem_cons.1 hu).2)
    | case4 arg args hne cluster hc ih ih' =>
      obtain ⟨hgiven, hlater⟩ := List.forall_mem_append.1 hu
      have hs := spells_iff.2 ⟨hc, hgiven⟩
      obtain ⟨given, awaits⟩ := cluster
      cases awaits with
      | false => exact .option hs (ih' hlater)
      | true =>
        cases args with
        | nil => cases hlater _ List.mem_cons_self
        | cons value later =>
          by_cases hv : (Cluster.ofArg? value).isNone
          · simp only [if_true, if_pos hv] at hlater ⊢
            exact .value hs (plain_iff.2 (by simpa using hv))
              (ih.1 (List.forall_mem_cons.1 hlater).2)
          · simp only [if_true, if_neg hv] at hlater
            cases hlater _ List.mem_cons_self

end LetIf
