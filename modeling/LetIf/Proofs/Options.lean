import LetIf.Options

/-!
# Arguments with a flag added or removed

Arguments are sorted piece by piece, unless they are cut after two dashes or
before a value that is awaited. So a flag among them is an item of its own
there, and it can be taken away or put in.
-/

namespace LetIf

open Text (Bytes encode)

-- ---------------------------------------------------------------------------
-- Accepted items
-- ---------------------------------------------------------------------------

namespace Options

theorem paths_append (items later : List Item) :
    paths (items ++ later) = paths items ++ paths later :=
  List.filterMap_append

theorem paths_map_path (args : List Bytes) : paths (args.map .path) = args := by
  induction args with
  | nil => rfl
  | cons arg args ih => exact congrArg (arg :: ·) ih

theorem emits_append (items later : List Item) :
    emits (items ++ later) = emits items ++ emits later :=
  List.filterMap_append

theorem stop?_eq_none_iff {items : List Item} {seen : Bool} :
    stop? seen items = none ↔ (∀ item ∈ items, item ∉ [.help, .version, .unknown]) ∧
      (paths items).length ≤ if seen then 0 else 1 := by
  induction items generalizing seen with
  | nil => simp [stop?, paths]
  | cons item items ih =>
    cases item with
    | path bytes =>
      cases seen with
      | true => simp [stop?, paths]
      | false => simpa [stop?, paths] using @ih true
    | emit value => simpa [stop?, paths] using ih
    | verbose => simpa [stop?, paths] using ih
    | help | version | unknown => simp [stop?]

structure Describes (items : List Item) (o : Options) : Prop where
  stop : stop? false items = none
  path : paths items = [o.path]
  value : ¬(emits items ≠ [] ∧ (emits items).filterMap id = [])
  spelling : ((emits items).filterMap id).all isSpelling
  once : ¬(1 < (emits items).length ∨ 1 < items.count .verbose)
  emit : choice ((emits items).filterMap id).head? = .ok o.emit
  verbose : o.verbose = decide (items.count .verbose ≠ 0)

theorem options_eq_ok_iff {c : Checked} {o : Options} :
    c.options = .ok o ↔ c.path = o.path ∧ choice c.value = .ok o.emit ∧ o.verbose = c.verbose := by
  obtain ⟨path, emit, verbose⟩ := o
  unfold Checked.options
  cases choice c.value <;> simp [Except.map, eq_comm]

theorem ofItems_eq_ok_iff {items : List Item} {o : Options} :
    ofItems items = .ok o ↔ Describes items o := by
  unfold ofItems Checked.ofItems
  constructor
  · intro h
    split at h
    · cases h
    · cases h
    next path rest hstop hpaths =>
      have hlen := (stop?_eq_none_iff.1 hstop).2
      obtain rfl : rest = [] := by simpa [hpaths] using hlen
      simp only at h
      split at h
      · cases h
      next hvalue =>
        split at h
        · cases h
        next hspell =>
          split at h
          · cases h
          next honce =>
            obtain ⟨rfl, hemit, hverbose⟩ := options_eq_ok_iff.1 h
            exact ⟨hstop, hpaths, hvalue, by simpa using hspell, honce, hemit, hverbose⟩
  · rintro ⟨hstop, hpath, hvalue, hspell, honce, hemit, hverbose⟩
    simp only [hstop, hpath, if_neg hvalue, hspell, if_neg honce]
    exact options_eq_ok_iff.2 ⟨rfl, hemit, hverbose⟩

section
variable {u v : List Item} {o : Options}

theorem stop?_insert (seen : Bool) (u v : List Item) :
    stop? seen (u ++ .verbose :: v) = stop? seen (u ++ v) := by
  induction u generalizing seen with
  | nil => rfl
  | cons item u ih =>
    cases item with
    | path bytes => cases seen <;> simp [stop?, ih]
    | emit | verbose | help | version | unknown => simp [stop?, ih]

theorem paths_insert (u v : List Item) : paths (u ++ .verbose :: v) = paths (u ++ v) := by
  rw [paths_append, paths_append]
  rfl

theorem emits_insert (u v : List Item) : emits (u ++ .verbose :: v) = emits (u ++ v) := by
  rw [emits_append, emits_append]
  rfl

theorem count_insert (u v : List Item) :
    (u ++ .verbose :: v).count .verbose = (u ++ v).count .verbose + 1 := by
  rw [List.count_append, List.count_append, List.count_cons_self, Nat.add_assoc]

theorem ofItems_insert (h : ofItems (u ++ v) = .ok o) (hv : o.verbose = false) :
    ofItems (u ++ .verbose :: v) = .ok { o with verbose := true } := by
  obtain ⟨hstop, hpath, hvalue, hspell, honce, hemit, hverbose⟩ := ofItems_eq_ok_iff.1 h
  have hzero : (u ++ v).count .verbose = 0 := by simpa [hv] using hverbose
  rw [ofItems_eq_ok_iff]
  refine ⟨?_, ?_, ?_, ?_, ?_, ?_, ?_⟩ <;> simp only [stop?_insert, paths_insert, emits_insert]
  · exact hstop
  · exact hpath
  · exact hvalue
  · exact hspell
  · rw [count_insert, hzero]
    omega
  · exact hemit
  · simp

theorem ofItems_remove (h : ofItems (u ++ .verbose :: v) = .ok o) :
    ofItems (u ++ v) = .ok { o with verbose := false } := by
  obtain ⟨hstop, hpath, hvalue, hspell, honce, hemit, -⟩ := ofItems_eq_ok_iff.1 h
  simp only [stop?_insert, paths_insert, emits_insert, count_insert] at *
  have hzero : (u ++ v).count .verbose = 0 := by omega
  exact ofItems_eq_ok_iff.2
    ⟨hstop, hpath, hvalue, hspell, by omega, hemit, by simp [hzero]⟩

end

theorem mem_emits {items : List Item} {value : Option Bytes} :
    value ∈ emits items ↔ .emit value ∈ items := by
  unfold emits
  rw [List.mem_filterMap]
  constructor
  · rintro ⟨item, hi, h⟩
    cases item <;> simp_all
  · intro h
    exact ⟨_, h, rfl⟩

theorem Describes.emit_none_not_mem {items : List Item} {o : Options} (h : Describes items o) :
    .emit none ∉ items := by
  intro hm
  have hvalue := h.value
  have honce := h.once
  match hg : emits items, mem_emits.2 hm with
  | [value], hmem =>
    obtain rfl : none = value := List.mem_singleton.1 hmem
    simp [hg] at hvalue
  | _ :: _ :: _, _ => simp [hg] at honce

end Options

-- ---------------------------------------------------------------------------
-- Items of arguments
-- ---------------------------------------------------------------------------

namespace Item

theorem ofArgs_dashes (rest : List Bytes) : ofArgs ([dash, dash] :: rest) = rest.map .path := by
  unfold ofArgs
  exact if_pos rfl

theorem ne_dashes {arg : Bytes} {cluster : Cluster} (h : Cluster.ofArg? arg = some cluster)
    (hu : .unknown ∉ cluster.items) : arg ≠ [dash, dash] := by
  rintro rfl
  have hd : Cluster.ofArg? [dash, dash] = some ⟨[.unknown], false⟩ := by decide +kernel
  rw [hd] at h
  cases h
  simp at hu

theorem ofArgs_plain {arg : Bytes} (h : Cluster.ofArg? arg = none) (rest : List Bytes) :
    ofArgs (arg :: rest) = .path arg :: ofArgs rest := by
  have hne : arg ≠ [dash, dash] := by
    rintro rfl
    cases h
  rw [ofArgs.eq_def]
  simp only [hne, if_false, h]

/-- The items after an option that awaits its value. -/
def awaited : List Bytes → List Item
  | [] => [.emit none]
  | value :: later =>
    if (Cluster.ofArg? value).isNone then .emit (some value) :: ofArgs later
    else .emit none :: ofArgs (value :: later)

theorem awaited_of_isSome {rest : List Bytes}
    (h : ∀ arg ∈ rest.head?, (Cluster.ofArg? arg).isSome) :
    awaited rest = .emit none :: ofArgs rest := by
  cases rest with
  | nil => simp [awaited, ofArgs]
  | cons arg rest =>
    obtain ⟨cluster, hc⟩ := Option.isSome_iff_exists.1 (h arg rfl)
    rw [awaited, if_neg (by simp [hc])]

theorem ofArgs_cluster {arg : Bytes} {cluster : Cluster} (hne : arg ≠ [dash, dash])
    (h : Cluster.ofArg? arg = some cluster) (rest : List Bytes) :
    ofArgs (arg :: rest) =
      cluster.items ++ if cluster.awaits then awaited rest else ofArgs rest := by
  rw [ofArgs.eq_def]
  simp only [hne, if_false, h]
  cases rest <;> rfl

/-- Arguments are sorted piece by piece. No piece may begin with a value that the
piece before it awaits. -/
theorem ofArgs_append {before rest : List Bytes} (hd : [dash, dash] ∉ before)
    (h : .emit none ∈ ofArgs before → ∀ arg ∈ rest.head?, (Cluster.ofArg? arg).isSome) :
    ofArgs (before ++ rest) = ofArgs before ++ ofArgs rest := by
  -- An option may take the argument after it, so the induction is on the length.
  induction hn : before.length using Nat.strongRecOn generalizing before with
  | ind n ih =>
    subst hn
    cases before with
    | nil => rfl
    | cons arg before =>
      rw [List.mem_cons, not_or] at hd
      cases hc : Cluster.ofArg? arg with
      | none =>
        rw [ofArgs_plain hc] at h ⊢
        rw [List.cons_append, ofArgs_plain hc, List.cons_append]
        exact congrArg _ (ih _ (by simp) hd.2 (fun hm => h (List.mem_cons_of_mem _ hm)) rfl)
      | some cluster =>
        rw [ofArgs_cluster (Ne.symm hd.1) hc] at h ⊢
        rw [List.cons_append, ofArgs_cluster (Ne.symm hd.1) hc, List.append_assoc]
        have hlater := fun hm => h (List.mem_append_right cluster.items hm)
        refine congrArg _ ?_
        split
        next hawaits =>
          rw [if_pos hawaits] at hlater
          cases before with
          | nil => exact awaited_of_isSome (hlater (List.mem_singleton_self _))
          | cons value before =>
            simp only [List.cons_append, awaited] at hlater ⊢
            split
            next hv =>
              rw [if_pos hv] at hlater
              have hbefore : [dash, dash] ∉ before := fun hm => hd.2 (List.mem_cons_of_mem _ hm)
              exact congrArg _ (ih _ (by simp only [List.length_cons]; omega) hbefore
                (fun hm => hlater (List.mem_cons_of_mem _ hm)) rfl)
            next hv =>
              rw [if_neg hv] at hlater
              exact congrArg _ (ih _ (by simp) hd.2
                (fun hm => hlater (List.mem_cons_of_mem _ hm)) rfl)
        next hawaits =>
          rw [if_neg hawaits] at hlater
          exact ih _ (by simp) hd.2 hlater rfl

end Item

-- ---------------------------------------------------------------------------
-- Flags
-- ---------------------------------------------------------------------------

def IsFlag (arg : Bytes) : Prop := Cluster.ofArg? arg = some { items := [.verbose] }

instance : DecidablePred IsFlag := fun arg => inferInstanceAs (Decidable (Cluster.ofArg? arg = _))

theorem isFlag_of_mem {flag : Bytes} (h : flag ∈ [encode "--verbose", encode "-v"]) :
    IsFlag flag := by
  revert flag
  decide +kernel

section
variable {flag : Bytes} {before after : List Bytes} {o o' : Options}

theorem IsFlag.ofArgs (h : IsFlag flag) (rest : List Bytes) :
    Item.ofArgs (flag :: rest) = .verbose :: Item.ofArgs rest := by
  rw [Item.ofArgs_cluster (Item.ne_dashes h (by simp)) h]
  rfl

theorem IsFlag.ofArgs_append (h : IsFlag flag) (hd : [dash, dash] ∉ before) :
    Item.ofArgs (before ++ flag :: after)
      = Item.ofArgs before ++ .verbose :: Item.ofArgs after := by
  rw [← h.ofArgs after]
  refine Item.ofArgs_append hd fun _ arg harg => ?_
  obtain rfl : flag = arg := by simpa using harg
  exact Option.isSome_of_eq_some h

theorem IsFlag.ofArgs_insert (h : IsFlag flag) (hd : [dash, dash] ∉ before)
    (hn : .emit none ∉ Item.ofArgs before) (ho : Options.ofArgs (before ++ after) = .ok o)
    (hv : o.verbose = false) :
    Options.ofArgs (before ++ flag :: after) = .ok { o with verbose := true } := by
  unfold Options.ofArgs at ho ⊢
  rw [Item.ofArgs_append hd fun hm => absurd hm hn] at ho
  rw [h.ofArgs_append hd]
  exact Options.ofItems_insert ho hv

theorem IsFlag.ofArgs_remove (h : IsFlag flag) (hd : [dash, dash] ∉ before)
    (ho : Options.ofArgs (before ++ flag :: after) = .ok o) :
    Options.ofArgs (before ++ after) = .ok { o with verbose := false } := by
  unfold Options.ofArgs at ho ⊢
  rw [h.ofArgs_append hd] at ho
  have hnone := (Options.ofItems_eq_ok_iff.1 ho).emit_none_not_mem
  have hn : .emit none ∉ Item.ofArgs before := fun hm => hnone (List.mem_append_left _ hm)
  rw [Item.ofArgs_append hd fun hm => absurd hm hn]
  exact Options.ofItems_remove ho

/-- If the arguments are accepted with a flag and without it, they name the same
file and the same thing to print. -/
theorem IsFlag.path_emit_eq (h : IsFlag flag) (ho : Options.ofArgs (before ++ after) = .ok o)
    (ho' : Options.ofArgs (before ++ flag :: after) = .ok o') :
    o'.path = o.path ∧ o'.emit = o.emit := by
  by_cases hd : [dash, dash] ∈ before
  · -- Everything is a path there, so there would be one more of them.
    obtain ⟨u, w, rfl, hu⟩ := List.eq_append_cons_of_mem hd
    have hpaths : ∀ rest : List Bytes,
        (Options.paths (Item.ofArgs (u ++ [dash, dash] :: w ++ rest))).length
          = (Options.paths (Item.ofArgs u)).length + w.length + rest.length := by
      intro rest
      have hdashes : ∀ arg ∈ ([dash, dash] :: (w ++ rest)).head?, (Cluster.ofArg? arg).isSome := by
        simp [Cluster.ofArg?]
      rw [List.append_assoc, List.cons_append, Item.ofArgs_append hu fun _ => hdashes,
        Item.ofArgs_dashes, Options.paths_append, Options.paths_map_path, List.length_append,
        List.length_append, Nat.add_assoc]
    have hlen := congrArg List.length (Options.ofItems_eq_ok_iff.1 ho).path
    have hlen' := congrArg List.length (Options.ofItems_eq_ok_iff.1 ho').path
    rw [hpaths] at hlen hlen'
    simp at hlen hlen'
    omega
  · have hremove := h.ofArgs_remove hd ho'
    rw [ho] at hremove
    cases hremove
    exact ⟨rfl, rfl⟩

end

end LetIf
