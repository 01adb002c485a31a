import LetIf.Proofs.Lexeme

/-!
# What a source is read as

The terminals that a source can hold are the spelled ones: reserved words under
their own kind, other words as names, digit runs that denote an integer, and
the equals sign. A source has tokens exactly if it is cut to its end with no
lexeme refused, and its tokens are then those of its lexemes in order.
-/

namespace LetIf

open Lexeme (IsWord IsDigits Settled)

-- Whether a result is there is decided by evaluation, also where two results
-- cannot be compared.
theorem exists_eq_ok {ε α : Type} {x : Except ε α} (h : x.toOption.isSome) : ∃ a, x = .ok a := by
  cases x with
  | ok a => exact ⟨a, rfl⟩
  | error e => cases h

theorem eq_ok_of_toOption {ε α : Type} {x : Except ε α} {a : α} (h : x.toOption = some a) :
    x = .ok a := by
  cases x with
  | ok b => exact congrArg _ (Option.some.inj h)
  | error e => cases h

theorem exists_eq_error {ε α : Type} {x : Except ε α} (h : x.toOption.isNone) :
    ∃ e, x = .error e := by
  cases x with
  | ok a => cases h
  | error e => exact ⟨e, rfl⟩

-- ---------------------------------------------------------------------------
-- Spelled terminals
-- ---------------------------------------------------------------------------

def IsName (text : String) : Prop :=
  IsWord text.toList ∧ text ∉ ["let", "if", "then", "else", "true", "false"]

instance : DecidablePred IsName := fun text =>
  inferInstanceAs (Decidable (IsWord text.toList ∧ _))

inductive Spelled : Terminal → Prop
  | keyword {text : String} : text ∈ ["let", "if", "then", "else"] → Spelled ⟨.keyword, text⟩
  | boolean {text : String} : text ∈ ["true", "false"] → Spelled ⟨.boolean, text⟩
  | name {text : String} : IsName text → Spelled ⟨.name, text⟩
  | number {text : String} : IsDigits text.toList →
      Nat.ofDigitChars 10 text.toList 0 ≤ Numeral.largest → Spelled ⟨.number, text⟩
  | symbol : Spelled ⟨.symbol, "="⟩

theorem Spelled.isName {text : String} (h : Spelled ⟨.name, text⟩) : IsName text := by
  cases h with
  | name hn => exact hn

theorem value?_of_isDigits {ds : List Char} (h : IsDigits ds) :
    Numeral.value? ds = some (Nat.ofDigitChars 10 ds 0 : Int) := by
  have hd : Numeral.digits? ds = some (Nat.ofDigitChars 10 ds 0) := by
    simpa [Numeral.digits?, h.1] using h.2
  unfold Numeral.value?
  split
  next => exact absurd (h.2 '-' List.mem_cons_self) (by simp)
  next => exact absurd (h.2 '+' List.mem_cons_self) (by simp)
  next => simp [hd]

theorem read?_of_isDigits {text : String} (h : IsDigits text.toList) :
    Numeral.read? text =
      if Nat.ofDigitChars 10 text.toList 0 ≤ Numeral.largest
      then some (.ofInt (Nat.ofDigitChars 10 text.toList 0)) else none := by
  have hs : Numeral.smallest ≤ (Nat.ofDigitChars 10 text.toList 0 : Int) := by
    unfold Numeral.smallest
    omega
  simp [Numeral.read?, value?_of_isDigits h, Numeral.fit?, hs]

structure Lexeme.Spells (l : Lexeme) (t : Terminal) : Prop where
  wellFormed : l.WellFormed
  cause?_eq : l.cause? = none
  terminal?_eq : l.terminal? = some t
  chars_eq : l.chars = t.text.toList

theorem spells_word {text : String} (h : IsWord text.toList) :
    (Lexeme.word text.toList).Spells (.ofWord text) :=
  ⟨h, rfl, by simp [Lexeme.terminal?], rfl⟩

theorem spells_digits {text : String} (h : IsDigits text.toList)
    (hv : Nat.ofDigitChars 10 text.toList 0 ≤ Numeral.largest) :
    (Lexeme.digits text.toList).Spells ⟨.number, text⟩ :=
  ⟨h, by simp [Lexeme.cause?, read?_of_isDigits h, hv], by simp [Lexeme.terminal?], rfl⟩

theorem ofWord_of_isName {text : String} (h : IsName text) :
    Terminal.ofWord text = ⟨.name, text⟩ := by
  have hn := h.2
  simp_all [Terminal.ofWord, Kind.reserved?]

theorem Spelled.exists_spells {t : Terminal} (h : Spelled t) : ∃ l : Lexeme, l.Spells t := by
  cases h with
  | @keyword text hk =>
    have hw : IsWord text.toList ∧ Terminal.ofWord text = ⟨.keyword, text⟩ := by
      simp only [List.mem_cons, List.not_mem_nil, or_false] at hk
      rcases hk with rfl | rfl | rfl | rfl <;> decide
    exact ⟨_, hw.2 ▸ spells_word hw.1⟩
  | @boolean text hb =>
    have hw : IsWord text.toList ∧ Terminal.ofWord text = ⟨.boolean, text⟩ := by
      simp only [List.mem_cons, List.not_mem_nil, or_false] at hb
      rcases hb with rfl | rfl <;> decide
    exact ⟨_, hw.2 ▸ spells_word hw.1⟩
  | name hn => exact ⟨_, ofWord_of_isName hn ▸ spells_word hn.1⟩
  | number hd hv => exact ⟨_, spells_digits hd hv⟩
  | symbol => exact ⟨.equals, trivial, rfl, rfl, rfl⟩

theorem kind_ofWord (text : String) :
    (Terminal.ofWord text).kind = .keyword ∨ (Terminal.ofWord text).kind = .boolean ∨
      (Terminal.ofWord text).kind = .name := by
  unfold Terminal.ofWord Kind.reserved?
  split
  · simp
  · split <;> simp

theorem spelled_ofWord {text : String} (h : IsWord text.toList) : Spelled (.ofWord text) := by
  unfold Terminal.ofWord Kind.reserved?
  split
  next hk => exact .keyword hk
  next hk =>
    split
    next hb => exact .boolean hb
    next hb => exact .name ⟨h, by simp_all⟩

theorem Lexeme.exists_spelled {l : Lexeme} {t : Terminal} (hl : l.WellFormed)
    (hc : l.cause? = none) (ht : l.terminal? = some t) : Spelled t ∧ l.Spells t := by
  cases l with
  | newline | blank | comment => cases ht
  | equals =>
    cases ht
    exact ⟨.symbol, trivial, rfl, rfl, rfl⟩
  | word cs =>
    cases ht
    obtain ⟨text, rfl⟩ : ∃ text : String, cs = text.toList := ⟨.ofList cs, by simp⟩
    rw [String.ofList_toList]
    exact ⟨spelled_ofWord hl, spells_word hl⟩
  | digits cs =>
    cases ht
    obtain ⟨text, rfl⟩ : ∃ text : String, cs = text.toList := ⟨.ofList cs, by simp⟩
    simp only [Lexeme.cause?, String.ofList_toList, read?_of_isDigits hl] at hc ⊢
    split at hc
    next hv => exact ⟨.number hl hv, spells_digits hl hv⟩
    · cases hc

-- ---------------------------------------------------------------------------
-- Reading lexemes
-- ---------------------------------------------------------------------------

/-- The lexemes of a text that is cut to its end, none of them refused. -/
structure Lexed (cs : List Char) (ls : List Lexeme) : Prop where
  settled : Settled [] ls
  chars_eq : ls.flatMap Lexeme.chars = cs
  accepted : ∀ l ∈ ls, l.cause? = none

theorem Lexed.nil : Lexed [] [] := ⟨trivial, rfl, by simp⟩

theorem lexed_cons {cs : List Char} {l : Lexeme} {ls : List Lexeme} :
    Lexed cs (l :: ls) ↔ ∃ rest, cs = l.chars ++ rest ∧ l.WellFormed ∧ l.Ends rest ∧
      l.cause? = none ∧ Lexed rest ls := by
  constructor
  · rintro ⟨⟨hl, he, hs⟩, rfl, ha⟩
    refine ⟨ls.flatMap Lexeme.chars, rfl, hl, by simpa using he, ha l List.mem_cons_self, hs, rfl,
      ?_⟩
    exact fun m hm => ha m (List.mem_cons_of_mem l hm)
  · rintro ⟨_, rfl, hl, he, hc, hs, rfl, ha⟩
    exact ⟨⟨hl, by simpa using he, hs⟩, rfl, List.forall_mem_cons.2 ⟨hc, ha⟩⟩

def Place.read (p : Place) : List Lexeme → List Token
  | [] => []
  | l :: ls => p.tokens l ++ (p.after l).read ls

def Place.through (p : Place) (ls : List Lexeme) : Place := ls.foldl Place.after p

theorem Place.read_append (p : Place) (ms ns : List Lexeme) :
    p.read (ms ++ ns) = p.read ms ++ (p.through ms).read ns := by
  induction ms generalizing p with
  | nil => rfl
  | cons l ms ih => simp [read, through, ih]

theorem Place.mem_tokens {p : Place} {l : Lexeme} {t : Token} (h : t ∈ p.tokens l) :
    ∃ w, l.terminal? = some w ∧
      ((p.fresh ∧ t = .newlineAt p.position.row) ∨ t = ⟨w, p.position, (p.after l).position⟩) := by
  cases hl : l.terminal? with
  | none => simp [tokens, hl] at h
  | some w =>
    refine ⟨w, rfl, ?_⟩
    cases hf : p.fresh <;> simp_all [tokens]

theorem run_append {ms : List Lexeme} (h : ∀ l ∈ ms, l.cause? = none) (p : Place)
    (unread : List Char) (ns : List Lexeme) :
    Scan.run p unread (ms ++ ns) =
      ⟨p.read ms ++ (Scan.run (p.through ms) unread ns).tokens,
        (Scan.run (p.through ms) unread ns).ending⟩ := by
  induction ms generalizing p with
  | nil => rfl
  | cons l ms ih =>
    obtain ⟨hl, hms⟩ := List.forall_mem_cons.1 h
    simp [Scan.run, hl, ih hms, Place.read, Place.through]

theorem run_of_accepted {ls : List Lexeme} (h : ∀ l ∈ ls, l.cause? = none) (p : Place) :
    Scan.run p [] ls = ⟨p.read ls, .complete (p.through ls).position⟩ := by
  simpa [Scan.run] using run_append h p [] []

theorem accepted_of_complete {ls : List Lexeme} {p : Place} {unread : List Char} {q : Position}
    (h : (Scan.run p unread ls).ending = .complete q) :
    unread = [] ∧ ∀ l ∈ ls, l.cause? = none := by
  induction ls generalizing p with
  | nil => cases unread <;> simp_all [Scan.run]
  | cons l ls ih =>
    cases hc : l.cause? with
    | some cause => simp [Scan.run, hc] at h
    | none =>
      simp only [Scan.run, hc] at h
      exact ⟨(ih h).1, List.forall_mem_cons.2 ⟨hc, (ih h).2⟩⟩

theorem tokenize_eq_ok_iff {source : String} {ts : List Token} :
    tokenize source = .ok ts ↔ ∃ ls, Lexed source.toList ls ∧
      ts = Place.start.read ls ++ [.eofAt (Place.start.through ls).position] := by
  unfold tokenize Scan.result Scan.ofSource Scan.ofChars
  cases hcut : Lexeme.cut source.toList with
  | mk ls unread =>
    obtain ⟨hs, htext, -⟩ := Lexeme.cut_eq_iff.1 hcut
    constructor
    · intro h
      split at h
      next q hq =>
        obtain ⟨rfl, ha⟩ := accepted_of_complete hq
        simp only [run_of_accepted ha, Ending.complete.injEq, Except.ok.injEq] at h hq
        exact ⟨ls, ⟨hs, by simpa using htext.symm, ha⟩, by rw [← h, ← hq]⟩
      · cases h
    · rintro ⟨ms, hm, rfl⟩
      have hms : Lexeme.cut source.toList = (ms, []) :=
        Lexeme.cut_eq_iff.2 ⟨hm.settled, by simp [hm.chars_eq], rfl⟩
      rw [hcut] at hms
      cases hms
      simp [run_of_accepted hm.accepted]

-- ---------------------------------------------------------------------------
-- The terminals of a source
-- ---------------------------------------------------------------------------

/-- The terminals of lexemes, with a line start before the first of every row
but one that is already under way. -/
def Lexeme.terminals (fresh : Bool) : List Lexeme → List Terminal
  | [] => []
  | l :: ls =>
    match l.terminal? with
    | none => terminals (fresh || l = .newline) ls
    | some t => (if fresh then [.newline] else []) ++ t :: terminals false ls

theorem terminals_cons_none {l : Lexeme} (h : l.terminal? = none) (fresh : Bool)
    (ls : List Lexeme) :
    Lexeme.terminals fresh (l :: ls) = Lexeme.terminals (fresh || l = .newline) ls := by
  rw [Lexeme.terminals, h]

theorem terminals_cons_some {l : Lexeme} {t : Terminal} (h : l.terminal? = some t) (fresh : Bool)
    (ls : List Lexeme) :
    Lexeme.terminals fresh (l :: ls) =
      (if fresh then [.newline] else []) ++ t :: Lexeme.terminals false ls := by
  rw [Lexeme.terminals, h]

theorem fresh_after (p : Place) (l : Lexeme) :
    (p.after l).fresh = (l.terminal?.isNone && (p.fresh || l = .newline)) := by
  cases l <;> simp [Place.after, Lexeme.terminal?]

theorem terminals_read (p : Place) (ls : List Lexeme) :
    (p.read ls).map Token.toTerminal = Lexeme.terminals p.fresh ls := by
  induction ls generalizing p with
  | nil => rfl
  | cons l ls ih =>
    rw [Place.read, List.map_append, ih, fresh_after]
    cases ht : l.terminal? with
    | none => simp [terminals_cons_none ht, Place.tokens, ht]
    | some t =>
      rw [terminals_cons_some ht]
      cases hp : p.fresh <;> simp [Place.tokens, ht, hp, Token.newlineAt]

theorem kind_of_terminal? {l : Lexeme} {t : Terminal} (h : l.terminal? = some t) :
    t.kind ≠ .newline ∧ t.kind ≠ .eof := by
  cases l with
  | newline | blank | comment => cases h
  | word text =>
    cases h
    rcases kind_ofWord (.ofList text) with hk | hk | hk <;> simp [hk]
  | digits | equals =>
    cases h
    exact ⟨nofun, nofun⟩

theorem mem_terminals {fresh : Bool} {ls : List Lexeme} {t : Terminal}
    (h : t ∈ Lexeme.terminals fresh ls) : t = .newline ∨ ∃ l ∈ ls, l.terminal? = some t := by
  induction ls generalizing fresh with
  | nil => simp [Lexeme.terminals] at h
  | cons l ls ih =>
    have later : t ∈ Lexeme.terminals false ls ∨ t ∈ Lexeme.terminals true ls →
        t = .newline ∨ ∃ m ∈ l :: ls, m.terminal? = some t := by
      rintro (h | h)
      all_goals
        rcases ih h with rfl | ⟨m, hm, ht⟩
        · exact .inl rfl
        · exact .inr ⟨m, List.mem_cons_of_mem l hm, ht⟩
    cases ht : l.terminal? with
    | none =>
      rw [terminals_cons_none ht] at h
      cases hf : (fresh || decide (l = .newline)) <;> rw [hf] at h
      · exact later (.inl h)
      · exact later (.inr h)
    | some u =>
      rw [terminals_cons_some ht, List.mem_append, List.mem_cons] at h
      rcases h with h | rfl | h
      · cases fresh <;> simp_all
      · exact .inr ⟨l, List.mem_cons_self, ht⟩
      · exact later (.inl h)

theorem kind_ne_eof_of_mem_terminals {fresh : Bool} {ls : List Lexeme} {t : Terminal}
    (h : t ∈ Lexeme.terminals fresh ls) : t.kind ≠ .eof := by
  rcases mem_terminals h with rfl | ⟨l, -, hl⟩
  · exact nofun
  · exact (kind_of_terminal? hl).2

theorem kind_ne_eof_of_mem_read {p : Place} {ls : List Lexeme} {t : Token}
    (h : t ∈ p.read ls) : t.kind ≠ .eof := by
  have hmem : t.toTerminal ∈ Lexeme.terminals p.fresh ls :=
    terminals_read p ls ▸ List.mem_map_of_mem h
  exact kind_ne_eof_of_mem_terminals hmem

theorem Lexed.spelled {cs : List Char} {ls : List Lexeme} (h : Lexed cs ls) {t : Terminal}
    (ht : t ∈ Lexeme.terminals true ls) (hk : t.kind ≠ .newline) : Spelled t := by
  rcases mem_terminals ht with rfl | ⟨l, hl, hlt⟩
  · exact absurd rfl hk
  · exact (Lexeme.exists_spelled (h.settled.wellFormed l hl) (h.accepted l hl) hlt).1

end LetIf
