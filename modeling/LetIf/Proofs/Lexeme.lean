import LetIf.Scan

/-!
# What a text is cut into

A lexeme is well formed if it has the characters of its class, and it ends
where the text goes on with no character that it would take in. Reading finds
exactly the well-formed lexeme at the front that ends, so a text is cut into
the one list of such lexemes that it is made of.
-/

namespace LetIf.Lexeme

def IsWord : List Char → Prop
  | [] => False
  | c :: cs => isWordStart c ∧ ∀ d ∈ cs, isWordChar d

instance : DecidablePred IsWord
  | [] => .isFalse id
  | c :: cs => decidable_of_iff (isWordStart c && cs.all isWordChar) (by simp [IsWord])

def IsDigits (cs : List Char) : Prop := cs ≠ [] ∧ ∀ c ∈ cs, c.isDigit

def WellFormed : Lexeme → Prop
  | .newline | .equals => True
  | .blank c => isBlank c
  | .comment text => '\n' ∉ text
  | .word text => IsWord text
  | .digits text => IsDigits text

def takes : Lexeme → Char → Bool
  | .comment _, c => c ≠ '\n'
  | .word _, c => isWordChar c
  | .digits _, c => c.isDigit
  | .newline, _ | .blank _, _ | .equals, _ => false

def IsComment (l : Lexeme) : Prop := ∃ text, l = .comment text

def Ends (l : Lexeme) (rest : List Char) : Prop := ∀ c ∈ rest.head?, ¬l.takes c

theorem span_append {α : Type} {p : α → Bool} {u rest : List α} (hu : ∀ c ∈ u, p c)
    (hr : ∀ c ∈ rest.head?, ¬p c) :
    (u ++ rest).takeWhile p = u ∧ (u ++ rest).dropWhile p = rest := by
  rw [List.takeWhile_append_of_pos hu, List.dropWhile_append_of_pos hu]
  cases rest with
  | nil => simp
  | cons c rest => simp_all

theorem ends_dropWhile {α : Type} {p : α → Bool} (cs : List α) :
    ∀ c ∈ (cs.dropWhile p).head?, ¬p c := by
  intro c hc
  have := List.head?_dropWhile_not p cs
  simp_all

theorem read?_cons {c : Char} (cs : List Char) (h : c ≠ '/') :
    read? (c :: cs) =
      if c = '\n' then some (.newline, cs)
      else if isBlank c then some (.blank c, cs)
      else if isWordStart c then
        some (.word (c :: cs.takeWhile isWordChar), cs.dropWhile isWordChar)
      else if c.isDigit then
        some (.digits (c :: cs.takeWhile Char.isDigit), cs.dropWhile Char.isDigit)
      else if c = '=' then some (.equals, cs)
      else none := by
  rw [read?.eq_3]
  rintro cs' rfl
  contradiction

theorem isBlank_iff {c : Char} : isBlank c ↔ c = ' ' ∨ c = '\t' ∨ c = '\r' := by
  simp [isBlank, or_assoc]

theorem wellFormed_of_read? {cs rest : List Char} {l : Lexeme} (h : read? cs = some (l, rest)) :
    l.WellFormed ∧ l.Ends rest := by
  have taken : ∀ {p : Char → Bool} {ds : List Char}, ∀ c ∈ ds.takeWhile p, p c := fun c hc =>
    List.all_eq_true.1 List.all_takeWhile c hc
  unfold read? at h
  split at h
  · cases h
  next ds =>
    cases h
    refine ⟨fun hm => ?_, ends_dropWhile ds⟩
    simpa using taken _ hm
  next c ds _ =>
    split at h
    · cases h
      exact ⟨trivial, fun _ _ => Bool.false_ne_true⟩
    split at h
    next hb =>
      cases h
      exact ⟨hb, fun _ _ => Bool.false_ne_true⟩
    split at h
    next hw =>
      cases h
      exact ⟨⟨hw, taken⟩, ends_dropWhile ds⟩
    split at h
    next hd =>
      cases h
      refine ⟨⟨List.cons_ne_nil _ _, fun d hd' => ?_⟩, ends_dropWhile ds⟩
      rcases List.mem_cons.1 hd' with rfl | hm
      · exact hd
      · exact taken d hm
    split at h
    · cases h
      exact ⟨trivial, fun _ _ => Bool.false_ne_true⟩
    · cases h

theorem isWordChar_of_isWordStart {c : Char} (h : isWordStart c) : isWordChar c := by
  simp only [isWordStart, isWordChar, Char.isAlphanum, Bool.or_eq_true] at h ⊢
  exact h.imp_left .inl

theorem isWordChar_of_isDigit {c : Char} (h : c.isDigit) : isWordChar c := by
  simp [isWordChar, Char.isAlphanum, h]

theorem not_isWordStart_of_isDigit {c : Char} (h : c.isDigit) : ¬isWordStart c := by
  have hd : ('0'.val ≤ c.val && c.val ≤ '9'.val) = true := h
  have ha : c.isAlpha =
      (decide ('A'.val ≤ c.val ∧ c.val ≤ 'Z'.val) || ('a'.val ≤ c.val && c.val ≤ 'z'.val)) := rfl
  have hu : c ≠ '_' := by
    rintro rfl
    revert h
    decide
  simp only [isWordStart, ha]
  grind

theorem isWordChar_of_takes {l : Lexeme} {c : Char} (hl : ¬l.IsComment) (h : l.takes c) :
    isWordChar c := by
  cases l with
  | newline | blank | equals => cases h
  | comment text => exact absurd ⟨text, rfl⟩ hl
  | word text => exact h
  | digits text => exact isWordChar_of_isDigit h

theorem IsWord.isWordChar {cs : List Char} (h : IsWord cs) : ∀ c ∈ cs, isWordChar c := by
  cases cs with
  | nil => exact h.elim
  | cons c cs => exact List.forall_mem_cons.2 ⟨isWordChar_of_isWordStart h.1, h.2⟩

theorem IsDigits.isWordChar {cs : List Char} (h : IsDigits cs) : ∀ c ∈ cs, isWordChar c :=
  fun c hc => isWordChar_of_isDigit (h.2 c hc)

theorem not_layout_of_isWordChar {c : Char} (h : isWordChar c) :
    c ≠ '/' ∧ c ≠ '\n' ∧ ¬isBlank c := by
  refine ⟨?_, ?_, fun hb => ?_⟩
  · rintro rfl
    revert h
    decide
  · rintro rfl
    revert h
    decide
  · rcases isBlank_iff.1 hb with rfl | rfl | rfl <;> revert h <;> decide

theorem read?_chars_append {l : Lexeme} {rest : List Char} (hl : l.WellFormed)
    (he : l.Ends rest) : read? (l.chars ++ rest) = some (l, rest) := by
  cases l with
  | newline => exact read?_cons rest (by simp)
  | equals => exact read?_cons rest (by simp)
  | blank c =>
    rcases isBlank_iff.1 hl with rfl | rfl | rfl <;> exact read?_cons rest (by simp)
  | comment text =>
    have hp : ∀ c ∈ text, decide (c ≠ '\n') := by
      intro c hc
      have : c ≠ '\n' := fun h => hl (h ▸ hc)
      simpa using this
    obtain ⟨htake, hdrop⟩ := span_append hp he
    simp only [chars, List.cons_append, read?, htake, hdrop]
  | word text =>
    cases text with
    | nil => exact hl.elim
    | cons c cs =>
      obtain ⟨hc, hcs⟩ := hl
      obtain ⟨htake, hdrop⟩ := span_append hcs he
      obtain ⟨hs, hn, hb⟩ := not_layout_of_isWordChar (isWordChar_of_isWordStart hc)
      rw [chars, List.cons_append, read?_cons _ hs, if_neg hn, if_neg hb, if_pos hc, htake, hdrop]
  | digits text =>
    -- A digit is a word character, but it starts no word.
    obtain ⟨hne, hds⟩ := hl
    obtain ⟨c, cs, rfl⟩ := List.exists_cons_of_ne_nil hne
    have hc : c.isDigit := hds c List.mem_cons_self
    obtain ⟨htake, hdrop⟩ := span_append (fun d hd => hds d (List.mem_cons_of_mem c hd)) he
    obtain ⟨hs, hn, hb⟩ := not_layout_of_isWordChar (isWordChar_of_isDigit hc)
    rw [chars, List.cons_append, read?_cons _ hs, if_neg hn, if_neg hb,
      if_neg (not_isWordStart_of_isDigit hc), if_pos hc, htake, hdrop]

theorem read?_eq_some_iff {cs rest : List Char} {l : Lexeme} :
    read? cs = some (l, rest) ↔ l.WellFormed ∧ l.Ends rest ∧ cs = l.chars ++ rest := by
  constructor
  · intro h
    exact ⟨(wellFormed_of_read? h).1, (wellFormed_of_read? h).2, (chars_append_of_read? h).symm⟩
  · rintro ⟨hl, he, rfl⟩
    exact read?_chars_append hl he

theorem WellFormed.chars_ne_nil {l : Lexeme} (h : l.WellFormed) : l.chars ≠ [] := by
  have he : l.Ends [] := by simp [Ends]
  exact chars_ne_nil_of_read? (read?_chars_append h he)

/-- Lexemes that stand as they are when `rest` follows them: each is well
formed and ends where the next one begins. -/
def Settled (rest : List Char) : List Lexeme → Prop
  | [] => True
  | l :: ls => l.WellFormed ∧ l.Ends (ls.flatMap chars ++ rest) ∧ Settled rest ls

theorem Settled.wellFormed {rest : List Char} {ls : List Lexeme} (h : Settled rest ls) :
    ∀ l ∈ ls, l.WellFormed := by
  induction ls with
  | nil => simp
  | cons l ls ih => exact List.forall_mem_cons.2 ⟨h.1, ih h.2.2⟩

theorem cut_of_read? {cs rest : List Char} {l : Lexeme} (h : read? cs = some (l, rest)) :
    cut cs = (l :: (cut rest).1, (cut rest).2) := by
  rw [cut]
  split
  next hn => simp [h] at hn
  next hs =>
    rw [h] at hs
    cases hs
    rfl

theorem cut_of_read?_eq_none {cs : List Char} (h : read? cs = none) : cut cs = ([], cs) := by
  rw [cut]
  split
  · rfl
  next hs => simp [h] at hs

/-- Cutting finds the one list of settled lexemes that leaves a rest at which
no lexeme starts. -/
theorem cut_eq_iff {cs rest : List Char} {ls : List Lexeme} :
    cut cs = (ls, rest) ↔
      Settled rest ls ∧ cs = ls.flatMap chars ++ rest ∧ read? rest = none := by
  constructor
  · intro h
    induction cs using cut.induct generalizing ls rest with
    | case1 cs hn =>
      rw [cut_of_read?_eq_none hn] at h
      cases h
      exact ⟨trivial, rfl, hn⟩
    | case2 cs l us hr _ _ _ ih =>
      rw [cut_of_read? hr] at h
      cases h
      obtain ⟨hs, hus, hn⟩ := ih rfl
      obtain ⟨hl, he, rfl⟩ := read?_eq_some_iff.1 hr
      refine ⟨⟨hl, hus ▸ he, hs⟩, ?_, hn⟩
      rw [List.flatMap_cons, List.append_assoc, ← hus]
  · rintro ⟨hs, rfl, hn⟩
    induction ls with
    | nil => exact cut_of_read?_eq_none hn
    | cons l ls ih =>
      obtain ⟨hl, he, hs⟩ := hs
      rw [List.flatMap_cons, List.append_assoc, cut_of_read? (read?_chars_append hl he), ih hs]

theorem not_mem_chars {l : Lexeme} (hl : l.WellFormed) (hn : l ≠ .newline) :
    '\n' ∉ l.chars := by
  cases l with
  | newline => exact absurd rfl hn
  | blank c =>
    rcases isBlank_iff.1 hl with rfl | rfl | rfl <;> decide
  | comment text =>
    have ht : '\n' ∉ text := hl
    simp [chars, ht]
  | word text => exact fun hm => (not_layout_of_isWordChar (IsWord.isWordChar hl _ hm)).2.1 rfl
  | digits text =>
    exact fun hm => (not_layout_of_isWordChar (IsDigits.isWordChar hl _ hm)).2.1 rfl
  | equals => decide

theorem ends_append_newline {l : Lexeme} {u v : List Char} :
    l.Ends (u ++ '\n' :: v) ↔ l.Ends u := by
  cases u with
  | nil =>
    have hl : l.takes '\n' = false := by
      cases l <;> simp [takes, isWordChar, Char.isAlphanum]
    simp [Ends, hl]
  | cons c u => simp [Ends]

end LetIf.Lexeme
