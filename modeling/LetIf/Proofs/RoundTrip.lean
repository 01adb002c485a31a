import LetIf.Proofs.Parse

/-!
# Writing and reading back

A program is well formed if its names are words that are not reserved and its
integers are not negative. The text of such a program is cut into its terminals,
which derive it.
-/

namespace LetIf

open Grammar

def Expr.WellFormed : Expr → Prop
  | .ite c y n => c.WellFormed ∧ y.WellFormed ∧ n.WellFormed
  | .name text => IsName text
  | .bool _ => True
  | .num n => 0 ≤ n

def Expr.decideWellFormed : (e : Expr) → Decidable e.WellFormed
  | .ite c y n =>
    haveI := c.decideWellFormed
    haveI := y.decideWellFormed
    haveI := n.decideWellFormed
    inferInstanceAs (Decidable (_ ∧ _ ∧ _))
  | .name text => inferInstanceAs (Decidable (IsName text))
  | .bool _ => inferInstanceAs (Decidable True)
  | .num n => inferInstanceAs (Decidable (0 ≤ n))

instance : DecidablePred Expr.WellFormed := Expr.decideWellFormed

structure Binding.WellFormed (b : Binding) : Prop where
  name : IsName b.name
  args : ∀ a ∈ b.args, IsName a
  body : b.body.WellFormed

instance : DecidablePred Binding.WellFormed := fun b =>
  decidable_of_iff (IsName b.name ∧ (∀ a ∈ b.args, IsName a) ∧ b.body.WellFormed)
    ⟨fun h => ⟨h.1, h.2.1, h.2.2⟩, fun h => ⟨h.name, h.args, h.body⟩⟩

def Program.WellFormed (p : Program) : Prop := ∀ b ∈ p.bindings, b.WellFormed

instance : DecidablePred Program.WellFormed := fun p =>
  inferInstanceAs (Decidable (∀ b ∈ p.bindings, b.WellFormed))

theorem spelled_ofBool (b : Bool) : Spelled (.ofBool b) := by
  cases b <;> exact .boolean (by decide)

theorem spelled_ofInt {n : Int64} (h : 0 ≤ n) : Spelled (.ofInt n) := by
  have hn : 0 ≤ n.toInt := by simpa using Int64.le_iff_toInt_le.1 h
  obtain ⟨m, hm⟩ := Int.eq_ofNat_of_zero_le hn
  have hw : (Numeral.write n).toList = Nat.toDigits 10 m := by
    unfold Numeral.write
    rw [hm]
    exact Nat.toList_repr
  refine .number ?_ ?_
  · rw [hw]
    exact ⟨Nat.toDigits_ne_nil, fun c hc => Nat.isDigit_of_mem_toDigits (by simp) (by simp) hc⟩
  · rw [hw, Nat.ofDigitChars_ten_toDigits, ← hm]
    have := n.toInt_lt
    unfold Numeral.largest
    omega

theorem Expr.WellFormed.spelled {e : Expr} (h : e.WellFormed) : ∀ t ∈ e.terminals, Spelled t := by
  induction e with
  | ite c y n ihc ihy ihn =>
    obtain ⟨hc, hy, hn⟩ := h
    intro t ht
    simp only [Expr.terminals, List.cons_append, List.append_assoc, List.mem_cons,
      List.mem_append] at ht
    rcases ht with rfl | ht | rfl | ht | rfl | ht
    · exact .keyword (by simp)
    · exact ihc hc t ht
    · exact .keyword (by simp)
    · exact ihy hy t ht
    · exact .keyword (by simp)
    · exact ihn hn t ht
  | name text => simpa [Expr.terminals] using Spelled.name h
  | bool b => simpa [Expr.terminals] using spelled_ofBool b
  | num n => simpa [Expr.terminals] using spelled_ofInt h

theorem Binding.WellFormed.spelled {b : Binding} (h : b.WellFormed) :
    ∀ t ∈ b.terminals, Spelled t := by
  intro t ht
  simp only [Binding.terminals, List.cons_append, List.mem_cons, List.mem_append,
    List.mem_map] at ht
  rcases ht with rfl | rfl | ⟨a, ha, rfl⟩ | rfl | ht
  · exact .keyword (by simp)
  · exact .name h.name
  · exact .name (h.args a ha)
  · exact .symbol
  · exact h.body.spelled t ht

theorem zero_le_of_read? {text : String} {n : Int64} (hs : Spelled ⟨.number, text⟩)
    (hn : Numeral.read? text = some n) : 0 ≤ n := by
  cases hs with
  | number hd hv =>
    rw [read?_of_isDigits hd, if_pos hv] at hn
    cases hn
    unfold Numeral.largest at hv
    rw [Int64.le_iff_toInt_le, Int64.toInt_ofInt_of_le (by omega) (by omega)]
    simp

theorem Grammar.DerivesExpr.wellFormed {ts : List Terminal} {e : Expr} (h : DerivesExpr ts e)
    (hs : ∀ t ∈ ts, t.kind ≠ .newline → Spelled t) : e.WellFormed := by
  induction h with
  | ite _ _ _ ihc ihy ihn =>
    exact ⟨ihc fun t ht => hs t (by simp [ht]), ihy fun t ht => hs t (by simp [ht]),
      ihn fun t ht => hs t (by simp [ht])⟩
  | name text => exact (hs ⟨.name, text⟩ (by simp) nofun).isName
  | @num text n hn => exact zero_le_of_read? (hs ⟨.number, text⟩ (by simp) nofun) hn
  | true | false => trivial

theorem Grammar.DerivesBinding.wellFormed {ts : List Terminal} {b : Binding}
    (h : DerivesBinding ts b) (hs : ∀ t ∈ ts, t.kind ≠ .newline → Spelled t) : b.WellFormed := by
  have isName {text : String} (ht : ⟨.name, text⟩ ∈ ts) : IsName text := (hs _ ht nofun).isName
  cases h with
  | mk name args he =>
    exact ⟨isName (by simp), fun a ha => isName (by simp [ha]),
      he.wellFormed fun t ht => hs t (by simp [ht])⟩

theorem Grammar.DerivesProgram.wellFormed {ts : List Terminal} {p : Program}
    (h : DerivesProgram ts p) (hs : ∀ t ∈ ts, t.kind ≠ .newline → Spelled t) : p.WellFormed := by
  induction h with
  | nil => exact fun b hb => absurd hb List.not_mem_nil
  | cons text hb _ ih =>
    refine List.forall_mem_cons.2 ⟨?_, ih fun t ht => hs t (by simp [ht])⟩
    exact hb.wellFormed fun t ht => hs t (by simp [ht])

theorem derives_terminals_expr (e : Expr) : DerivesExpr e.terminals e := by
  induction e with
  | ite c y n ihc ihy ihn => exact .ite ihc ihy ihn
  | name text => exact .name text
  | bool b =>
    cases b
    · exact .false
    · exact .true
  | num n => exact .num (Numeral.read?_write n)

theorem derives_terminals (p : Program) : DerivesProgram p.terminals p := by
  obtain ⟨bs⟩ := p
  induction bs with
  | nil => exact .nil
  | cons b bs ih =>
    have hb : DerivesBinding b.terminals b := .mk b.name b.args (derives_terminals_expr b.body)
    exact DerivesProgram.cons "\n" hb ih

theorem Lexeme.Spells.not_takes {l : Lexeme} {t : Terminal} (h : l.Spells t) {c : Char}
    (hc : ¬Lexeme.isWordChar c) : ¬l.takes c := by
  have hl : ¬l.IsComment := by
    rintro ⟨text, rfl⟩
    cases h.terminal?_eq
  exact fun htakes => hc (Lexeme.isWordChar_of_takes hl htakes)

theorem Lexed.token {l : Lexeme} {t : Terminal} {c : Char} {rest : List Char} {ls : List Lexeme}
    (h : Lexed (c :: rest) ls) (hs : l.Spells t) (hc : ¬Lexeme.isWordChar c) :
    Lexed (t.text.toList ++ c :: rest) (l :: ls) := by
  refine lexed_cons.2 ⟨c :: rest, by rw [hs.chars_eq], hs.wellFormed, ?_, hs.cause?_eq, h⟩
  rintro d ⟨⟩
  exact hs.not_takes hc

theorem exists_lexed_spell {t : Terminal} {ts : List Terminal} {rest : List Char}
    {ls : List Lexeme} (hs : ∀ u ∈ t :: ts, Spelled u) (h : Lexed rest ls) :
    ∃ ms, Lexed ((spell (t :: ts)).toList ++ '\n' :: rest) ms ∧
      ∀ fresh, Lexeme.terminals fresh ms =
        (if fresh then [.newline] else []) ++ (t :: ts) ++ Lexeme.terminals true ls := by
  obtain ⟨ht, hts⟩ := List.forall_mem_cons.1 hs
  obtain ⟨l, hl⟩ := ht.exists_spells
  -- What follows a terminal is a blank or a line feed, which no terminal takes in.
  induction ts generalizing t l with
  | nil =>
    have hn : Lexed ('\n' :: rest) (.newline :: ls) :=
      lexed_cons.2 ⟨rest, rfl, trivial, fun _ _ => nofun, rfl, h⟩
    refine ⟨l :: .newline :: ls, ?_, fun fresh => ?_⟩
    · simpa [spell] using hn.token hl (by decide)
    · rw [terminals_cons_some hl.terminal?_eq, terminals_cons_none rfl]
      simp
  | cons u ts ih =>
    obtain ⟨hu, hts'⟩ := List.forall_mem_cons.1 hts
    obtain ⟨m, hm⟩ := hu.exists_spells
    obtain ⟨ms, hms, hterm⟩ := ih hts hu hts' m hm
    have hb : Lexed (' ' :: ((spell (u :: ts)).toList ++ '\n' :: rest)) (.blank ' ' :: ms) :=
      lexed_cons.2 ⟨_, rfl, rfl, fun _ _ => nofun, rfl, hms⟩
    refine ⟨l :: .blank ' ' :: ms, ?_, fun fresh => ?_⟩
    · simpa [spell] using hb.token hl (by decide)
    · rw [terminals_cons_some hl.terminal?_eq, terminals_cons_none rfl]
      simp [hterm]

theorem exists_lexed_text {p : Program} (h : p.WellFormed) :
    ∃ ls, Lexed p.text.toList ls ∧ Lexeme.terminals true ls = p.terminals := by
  obtain ⟨bs⟩ := p
  induction bs with
  | nil => exact ⟨[], .nil, rfl⟩
  | cons b bs ih =>
    obtain ⟨hb, hbs⟩ := List.forall_mem_cons.1 h
    obtain ⟨ls, hl, hterm⟩ := ih hbs
    obtain ⟨ms, hm, hms⟩ := exists_lexed_spell hb.spelled hl
    refine ⟨ms, ?_, ?_⟩
    · simpa [Program.text, Binding.text, Binding.terminals] using hm
    · simp [hms true, hterm, Program.terminals, Binding.terminals]

theorem parseSource_text {source : String} {p : Program} (h : parseSource source = .ok p) :
    parseSource p.text = .ok p := by
  obtain ⟨ls, hl, hp⟩ := parseSource_eq_ok_iff.1 h
  have hw : p.WellFormed := hp.wellFormed fun t ht => hl.spelled ht
  obtain ⟨ms, hm, hterm⟩ := exists_lexed_text hw
  exact parseSource_eq_ok_iff.2 ⟨ms, hm, hterm ▸ derives_terminals p⟩

/-- A program is read back from its text exactly if it is well formed, and what
any source is read as is well formed, hence read back from its text. -/
theorem parseSource_text_eq_ok_iff :
    (∀ p : Program, parseSource p.text = .ok p ↔ p.WellFormed) ∧
    ∀ (source : String) (p : Program), parseSource source = .ok p →
      p.WellFormed ∧ parseSource p.text = .ok p := by
  have sound : ∀ (source : String) (p : Program), parseSource source = .ok p → p.WellFormed := by
    intro source p h
    obtain ⟨ls, hl, hp⟩ := parseSource_eq_ok_iff.1 h
    exact hp.wellFormed fun t ht => hl.spelled ht
  have complete : ∀ p : Program, p.WellFormed → parseSource p.text = .ok p := by
    intro p h
    obtain ⟨ls, hl, hterm⟩ := exists_lexed_text h
    exact parseSource_eq_ok_iff.2 ⟨ls, hl, hterm ▸ derives_terminals p⟩
  refine ⟨fun p => ⟨sound p.text p, complete p⟩, fun source p h => ?_⟩
  exact ⟨sound source p h, complete p (sound source p h)⟩

theorem parseSource_text_padded :
    ∃ p, parseSource "\tlet f x = if x then 007 else y//\r\n" = .ok p ∧ p.WellFormed ∧
      parseSource p.text = .ok p := by
  have hr : (parseSource "\tlet f x = if x then 007 else y//\r\n").toOption.isSome := by
    decide +kernel
  cases h : parseSource "\tlet f x = if x then 007 else y//\r\n" with
  | ok p => exact ⟨p, rfl, parseSource_text_eq_ok_iff.2 _ p h⟩
  | error d =>
    rw [h] at hr
    cases hr

end LetIf
