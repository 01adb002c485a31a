import LetIf.Proofs.Grammar.Verdict

/-!
# Verdicts on expressions and bindings

A single terminal is judged by looking at it, and everything else is sequencing.
The rule for arguments stops at the first terminal that is no name, so its
words are taken together with the equals sign that ends them.
-/

namespace LetIf.Grammar

variable {α β γ : Type}

def Admitted (expected : Expected) (ts : List Terminal) (t : Terminal) : Prop :=
  ts = [t] ∧ expected.admits t

theorem Admitted.selfDelimiting (expected : Expected) : SelfDelimiting (Admitted expected) := by
  rintro u v x y a b ⟨rfl, -⟩ ⟨rfl, -⟩ h
  simp_all

theorem exists_admits (expected : Expected) : ∃ t, expected.admits t := by
  cases expected with
  | kind k => exact ⟨⟨k, ""⟩, by simp [Expected.admits]⟩
  | spelled k text => exact ⟨⟨k, text⟩, by simp [Expected.admits, Terminal.is]⟩

theorem admits_spelled {k : Kind} {text : String} {t : Terminal} :
    (Expected.spelled k text).admits t ↔ t = ⟨k, text⟩ := by
  cases t
  simp [Expected.admits, Terminal.is]

theorem fault_terminal {expected : Expected} {next : Option Terminal}
    (h : ∀ t ∈ next, ¬expected.admits t) :
    Fault (Admitted expected) [] next
      (.unexpectedToken expected (describeNext next.toList)) where
  begins := by
    obtain ⟨t, ht⟩ := exists_admits expected
    exact ⟨[t], t, rfl, ht⟩
  blocked := by
    rintro us _ t rfl ⟨rfl, ht⟩ ⟨rest, hrest⟩
    rw [← List.nil_append us, ← hrest] at h
    exact h t rfl ht
  explains := ⟨rfl, fun t ht => ⟨[], t, rfl, ht⟩⟩

theorem judges_terminal (expected : Expected) (ts : List Terminal) :
    Judges (Admitted expected) ts (terminal expected ts) := by
  unfold terminal
  split
  · exact ⟨[], [], rfl, rfl, fault_terminal (by simp)⟩
  next t rest =>
    split
    next h => exact ⟨[t], ⟨rfl, h⟩, rfl⟩
    next h =>
      have hf : ∀ u ∈ some t, ¬expected.admits u := by simpa using h
      exact ⟨[], t :: rest, rfl, rfl, fault_terminal hf⟩

-- ---------------------------------------------------------------------------
-- Expressions
-- ---------------------------------------------------------------------------

theorem DerivesExpr.ne_nil {ts : List Terminal} {e : Expr} (h : DerivesExpr ts e) : ts ≠ [] := by
  cases h <;> simp

theorem DerivesExpr.eq_singleton {t : Terminal} {ts : List Terminal} {e : Expr}
    (h : DerivesExpr (t :: ts) e) (ht : ¬t.is .keyword "if") : ts = [] := by
  cases h with
  | ite => simp [Terminal.is] at ht
  | _ => rfl

theorem DerivesExpr.leaf_cases {t : Terminal} {e : Expr} (h : DerivesExpr [t] e) :
    t.kind = .name ∨ (t.kind = .number ∧ Numeral.read? t.text ≠ none) ∨
      (t.kind = .boolean ∧ (t.text = "true" ∨ t.text = "false")) := by
  generalize hts : [t] = ts at h
  cases h with
  | ite => simp at hts
  | _ => simp_all

theorem begins_expr {ts : List Terminal} {e : Expr} (h : DerivesExpr ts e) :
    Begins DerivesExpr ([] ++ ts) :=
  ⟨[], e, by simpa using h⟩

/-- Where no expression starts there is a fault, whatever it is called. -/
theorem fault_expr {next : Option Terminal} {cause : Cause}
    (h : ∀ t ∈ next, ¬t.is .keyword "if" ∧ ∀ e, ¬DerivesExpr [t] e)
    (hc : Explains DerivesExpr [] next cause) : Fault DerivesExpr [] next cause where
  begins := ⟨_, _, .name ""⟩
  blocked := by
    rintro us v e rfl hv ⟨rest, hrest⟩
    obtain ⟨t, v, rfl⟩ := List.exists_cons_of_ne_nil hv.ne_nil
    rw [← List.nil_append us, ← hrest] at h
    obtain ⟨hif, hleaf⟩ := h t rfl
    obtain rfl := hv.eq_singleton hif
    exact hleaf e hv
  explains := hc

theorem bool?_eq_some {t : Terminal} {b : Bool} (h : t.bool? = some b) :
    (t.text = "true" ∧ b = true) ∨ (t.text = "false" ∧ b = false) := by
  unfold Terminal.bool? at h
  grind

theorem bool?_eq_none {t : Terminal} (h : t.bool? = none) :
    t.text ≠ "true" ∧ t.text ≠ "false" := by
  unfold Terminal.bool? at h
  grind

theorem fault_leaf {t : Terminal} {cause : Cause} (hif : ¬t.is .keyword "if")
    (hname : t.kind ≠ .name) (hnumber : t.kind = .number → Numeral.read? t.text = none)
    (hboolean : t.kind = .boolean → t.text ≠ "true" ∧ t.text ≠ "false")
    (hc : Explains DerivesExpr [] (some t) cause) : Fault DerivesExpr [] (some t) cause := by
  refine fault_expr ?_ hc
  rintro u ⟨⟩
  refine ⟨hif, ?_⟩
  intro e he
  rcases he.leaf_cases with hk | ⟨hk, hn⟩ | ⟨hk, ht⟩
  · exact hname hk
  · exact hn (hnumber hk)
  · obtain ⟨hne, hnf⟩ := hboolean hk
    exact ht.elim hne hnf

theorem judges_leaf {t : Terminal} (rest : List Terminal) (h : ¬t.is .keyword "if") :
    Judges DerivesExpr (t :: rest) (leaf t rest) := by
  obtain ⟨kind, text⟩ := t
  fun_cases leaf ⟨kind, text⟩ rest with
  | case1 hk =>
    obtain rfl : kind = .name := hk
    exact ⟨_, .name text, rfl⟩
  | case2 hk n hn =>
    obtain rfl : kind = .number := hk
    exact ⟨_, .num hn, rfl⟩
  | case3 hk hn =>
    obtain rfl : kind = .number := hk
    refine ⟨[], _, rfl, ⟨_, rfl⟩, fault_leaf h (by simp) (fun _ => hn) (by simp) ?_⟩
    exact ⟨rfl, hn, begins_expr⟩
  | case4 hk b hb =>
    obtain rfl : kind = .boolean := hk
    obtain ⟨rfl, rfl⟩ | ⟨rfl, rfl⟩ := bool?_eq_some hb
    · exact ⟨_, .true, rfl⟩
    · exact ⟨_, .false, rfl⟩
  | case5 hk hb =>
    obtain rfl : kind = .boolean := hk
    have hb := bool?_eq_none hb
    refine ⟨[], _, rfl, ⟨_, rfl⟩, fault_leaf h (by simp) (by simp) (fun _ => hb) ?_⟩
    exact ⟨rfl, hb.1, hb.2, begins_expr⟩
  | case6 hname hnumber hboolean =>
    refine ⟨[], _, rfl, rfl, fault_leaf h hname ?_ ?_ ⟨rfl, begins_expr⟩⟩
    · exact fun hk => absurd hk hnumber
    · exact fun hk => absurd hk hboolean

def DerivesBranches (ts : List Terminal) (e : Expr) : Prop :=
  DerivesExpr (⟨.keyword, "if"⟩ :: ts) e

theorem derivesBranches_iff {ts : List Terminal} {e : Expr} :
    DerivesBranches ts e ↔
      Then DerivesExpr (fun c => Then (Admitted (.spelled .keyword "then")) fun _ =>
        Then DerivesExpr fun y => Then (Admitted (.spelled .keyword "else")) fun _ vs e =>
          ∃ n, DerivesExpr vs n ∧ .ite c y n = e) ts e := by
  constructor
  · intro h
    cases h with
    | ite hc hy hn =>
      exact ⟨_, _, _, hc, ⟨_, _, _, ⟨rfl, admits_spelled.2 rfl⟩, ⟨_, _, _, hy, ⟨_, _, _,
        ⟨rfl, admits_spelled.2 rfl⟩, ⟨_, hn, rfl⟩, rfl⟩, rfl⟩, rfl⟩, by simp⟩
  · rintro ⟨cs, _, c, hc, ⟨_, _, t, ⟨rfl, ht⟩, ⟨ys, _, y, hy, ⟨_, ns, u, ⟨rfl, hu⟩,
      ⟨n, hn, rfl⟩, rfl⟩, rfl⟩, rfl⟩, rfl⟩
    obtain rfl := admits_spelled.1 ht
    obtain rfl := admits_spelled.1 hu
    simpa [DerivesBranches] using DerivesExpr.ite hc hy hn

theorem judges_branches {ts : List Terminal}
    (h : ∀ us, us <:+ ts → Judges DerivesExpr us (expression us)) :
    Judges DerivesBranches ts (branches ts) := by
  rw [branches_eq]
  refine Judges.note ?_ _
  refine Judges.of_iff ?_ fun v e => derivesBranches_iff.symm
  refine (h ts (List.suffix_refl ts)).andThen DerivesExpr.selfDelimiting fun c us hus => ?_
  refine (judges_terminal _ us).andThen (Admitted.selfDelimiting _) fun _ vs hvs => ?_
  refine (h vs (hvs.trans hus)).andThen DerivesExpr.selfDelimiting fun y ws hws => ?_
  refine (judges_terminal _ ws).andThen (Admitted.selfDelimiting _) fun _ xs hxs => ?_
  exact (h xs (hxs.trans (hws.trans (hvs.trans hus)))).map _

theorem Judges.cons_if {ts : List Terminal} {r : Reading Expr} (h : Judges DerivesBranches ts r) :
    Judges DerivesExpr (⟨.keyword, "if"⟩ :: ts) r := by
  have hr : r.map id = r := by simp [Reading.map]
  rw [← hr]
  refine h.lift (u := [⟨.keyword, "if"⟩]) id ?_
  intro v us e hv hp
  obtain ⟨t, w, rfl⟩ := List.exists_cons_of_ne_nil hv.ne_nil
  obtain ⟨rfl, hw⟩ := List.cons_prefix_cons.1 hp
  exact ⟨w, e, hv, hw⟩

theorem judges_expression (ts : List Terminal) : Judges DerivesExpr ts (expression ts) := by
  -- The branches of a conditional are read from suffixes of what follows the
  -- keyword, not from its tail alone, so the induction is on the length.
  induction hn : ts.length using Nat.strongRecOn generalizing ts with
  | ind n ih =>
    cases ts with
    | nil =>
      rw [expression_nil]
      exact ⟨[], [], rfl, rfl, fault_expr (by simp) ⟨rfl, begins_expr⟩⟩
    | cons t rest =>
      rw [expression_cons]
      split
      next h =>
        obtain rfl : t = ⟨.keyword, "if"⟩ := admits_spelled.1 h
        refine (judges_branches fun us hus => ih _ ?_ us rfl).cons_if
        have := hus.length_le
        simp only [List.length_cons] at hn
        omega
      next h => exact judges_leaf rest h

-- ---------------------------------------------------------------------------
-- Bindings
-- ---------------------------------------------------------------------------

theorem andThen_andThen (r : Reading α) (f : α → List Terminal → Reading β)
    (g : β → List Terminal → Reading γ) :
    (r.andThen f).andThen g = r.andThen fun a rest => (f a rest).andThen g := by
  unfold Reading.andThen
  cases r.result with
  | error refusal => rfl
  | ok a => cases h : (f a r.rest).result <;> simp [h]

theorem map_andThen (r : Reading α) (f : α → β) (g : β → List Terminal → Reading γ) :
    (r.map f).andThen g = r.andThen fun a => g (f a) := by
  unfold Reading.map Reading.andThen
  cases r.result <;> rfl

def arguments (ts : List Terminal) : Reading (List String) :=
  (names ts).andThen fun args us => (terminal (.spelled .symbol "=") us).map fun _ => args

theorem arguments_cons_name {t : Terminal} (ts : List Terminal) (h : t.kind = .name) :
    arguments (t :: ts) = (arguments ts).map (t.text :: ·) := by
  simp only [arguments, names, Reading.done, Reading.andThen, Reading.map, h, decide_true,
    List.takeWhile_cons_of_pos, List.dropWhile_cons_of_pos, List.map_cons]
  cases (terminal (.spelled .symbol "=") (ts.dropWhile (·.kind = .name))).result <;> rfl

theorem arguments_of_ne_name {ts : List Terminal} (h : ∀ t ∈ ts.head?, t.kind ≠ .name) :
    arguments ts = (terminal (.spelled .symbol "=") ts).map fun _ => [] := by
  have hn : names ts = .done [] ts := by cases ts <;> simp_all [names]
  simp [arguments, hn, Reading.done, Reading.andThen]

theorem fault_arguments {next : Option Terminal}
    (h : ∀ t ∈ next, t.kind ≠ .name ∧ t ≠ ⟨.symbol, "="⟩) :
    Fault DerivesArgs [] next
      (.unexpectedToken (.spelled .symbol "=") (describeNext next.toList)) where
  begins := ⟨_, [], rfl⟩
  blocked := by
    rintro us _ args rfl rfl ⟨rest, hrest⟩
    rw [← List.nil_append us, ← hrest] at h
    cases args with
    | nil => exact (h _ rfl).2 rfl
    | cons a args => exact (h _ rfl).1 rfl
  explains := ⟨rfl, fun t ht => ⟨[], [], by simp [admits_spelled.1 ht, DerivesArgs]⟩⟩

theorem judges_arguments (ts : List Terminal) : Judges DerivesArgs ts (arguments ts) := by
  induction ts with
  | nil =>
    rw [arguments_of_ne_name (by simp)]
    exact ⟨[], [], rfl, rfl, fault_arguments (by simp)⟩
  | cons t ts ih =>
    obtain ⟨kind, text⟩ := t
    by_cases hk : kind = .name
    · subst hk
      rw [arguments_cons_name ts rfl]
      refine ih.lift (u := [⟨.name, text⟩]) (fun hv => by simp_all [DerivesArgs]) ?_
      rintro _ us args rfl hp
      cases args with
      | nil => simp at hp
      | cons a args => exact ⟨_, args, rfl, (List.cons_prefix_cons.1 hp).2⟩
    · rw [arguments_of_ne_name (by simpa using hk)]
      by_cases hs : (⟨kind, text⟩ : Terminal) = ⟨.symbol, "="⟩
      · rw [hs]
        exact ⟨_, rfl, rfl⟩
      · have ht : ¬(Expected.spelled .symbol "=").admits ⟨kind, text⟩ := fun h =>
          hs (admits_spelled.1 h)
        have hf : ∀ t ∈ some (⟨kind, text⟩ : Terminal), t.kind ≠ .name ∧ t ≠ ⟨.symbol, "="⟩ := by
          rintro t ⟨⟩
          exact ⟨hk, hs⟩
        simp only [terminal, ht]
        exact ⟨[], _, rfl, rfl, fault_arguments hf⟩

theorem binding_eq (ts : List Terminal) :
    binding ts = (terminal (.spelled .keyword "let") ts).andThen fun _ us =>
      (terminal (.kind .name) us).andThen fun name vs =>
      Reading.note (.binding name.text) <|
      (arguments vs).andThen fun args xs => (expression xs).map (.mk name.text args) := by
  simp only [binding, arguments, andThen_andThen, map_andThen]

theorem derivesBinding_iff_then {ts : List Terminal} {b : Binding} :
    DerivesBinding ts b ↔
      Then (Admitted (.spelled .keyword "let")) (fun _ => Then (Admitted (.kind .name)) fun name =>
        Then DerivesArgs fun args vs b => ∃ e, DerivesExpr vs e ∧ .mk name.text args e = b) ts b := by
  rw [derivesBinding_iff]
  constructor
  · rintro ⟨us, vs, ha, he, rfl⟩
    exact ⟨_, _, _, ⟨rfl, admits_spelled.2 rfl⟩, ⟨_, _, ⟨.name, b.name⟩, ⟨rfl, rfl⟩,
      ⟨_, _, _, ha, ⟨_, he, rfl⟩, rfl⟩, rfl⟩, by simp⟩
  · rintro ⟨_, _, t, ⟨rfl, ht⟩, ⟨_, _, name, ⟨rfl, hname⟩, ⟨us, vs, args, ha, ⟨e, he, rfl⟩, rfl⟩,
      rfl⟩, rfl⟩
    obtain rfl := admits_spelled.1 ht
    obtain ⟨kind, text⟩ := name
    obtain rfl : kind = .name := by simpa [Expected.admits] using hname
    exact ⟨us, vs, ha, he, by simp⟩

theorem judges_binding (ts : List Terminal) : Judges DerivesBinding ts (binding ts) := by
  rw [binding_eq]
  refine Judges.of_iff ?_ fun v b => derivesBinding_iff_then.symm
  refine (judges_terminal _ ts).andThen (Admitted.selfDelimiting _) fun _ us _ => ?_
  refine (judges_terminal _ us).andThen (Admitted.selfDelimiting _) fun name vs _ => ?_
  refine Judges.note ?_ _
  refine (judges_arguments vs).andThen DerivesArgs.selfDelimiting fun args xs _ => ?_
  exact (judges_expression xs).map _

end LetIf.Grammar
