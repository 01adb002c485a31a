import LetIf.Proofs.Refusal
import LetIf.Proofs.Text.Rows

/-!
# Where tokens stand

Reading counts rows and columns as it goes, and the count agrees with the text
read so far: the place after some lexemes is the position that follows their
characters.
-/

namespace LetIf

open Text (lastRow line)

theorem position_after {p : Place} {l : Lexeme} {u : List Char} (hp : p.position = .after u)
    (hl : l.WellFormed) : (p.after l).position = .after (u ++ l.chars) := by
  by_cases hn : l = .newline
  · subst hn
    rw [Lexeme.chars, Position.after_append_newline, ← hp]
    rfl
  · rw [Position.after_append u (l.not_mem_chars hl hn), ← hp]
    cases l with
    | newline => exact absurd rfl hn
    | _ => rfl

theorem position_through {p : Place} {ls : List Lexeme} {u : List Char}
    (hp : p.position = .after u) (hls : ∀ l ∈ ls, l.WellFormed) :
    (p.through ls).position = .after (u ++ ls.flatMap Lexeme.chars) := by
  induction ls generalizing p u with
  | nil => simpa [Place.through] using hp
  | cons l ls ih =>
    obtain ⟨hl, hls⟩ := List.forall_mem_cons.1 hls
    have h := ih (position_after hp hl) hls
    rwa [List.append_assoc] at h

theorem position_through_start {ls : List Lexeme} (hls : ∀ l ∈ ls, l.WellFormed) :
    (Place.start.through ls).position = .after (ls.flatMap Lexeme.chars) := by
  have hstart : Place.start.position = .after [] := rfl
  simpa using position_through hstart hls

inductive Stands (cs : List Char) : Token → Prop
  | lineStart {u v : List Char} : u ++ v = cs → Stands cs (.newlineAt (Position.after u).row)
  | spelled {u v : List Char} {t : Terminal} :
      u ++ (t.text.toList ++ v) = cs → Spelled t →
      Stands cs ⟨t, .after u, .after (u ++ t.text.toList)⟩
  | ending : Stands cs (.eofAt (.after cs))

theorem Lexeme.stands_tokens {p : Place} {l : Lexeme} {u v : List Char}
    (hp : p.position = .after u) (hl : l.WellFormed) (hc : l.cause? = none) :
    ∀ t ∈ p.tokens l, Stands (u ++ (l.chars ++ v)) t := by
  intro t ht
  obtain ⟨w, hlt, ⟨-, rfl⟩ | rfl⟩ := Place.mem_tokens ht
  · rw [hp]
    exact .lineStart rfl
  · obtain ⟨hw, hsp⟩ := Lexeme.exists_spelled hl hc hlt
    rw [position_after hp hl, hp, hsp.chars_eq]
    exact .spelled rfl hw

theorem Lexed.stands_read {p : Place} {u cs : List Char} {ls : List Lexeme} (h : Lexed cs ls)
    (hp : p.position = .after u) : ∀ t ∈ p.read ls, Stands (u ++ cs) t := by
  induction ls generalizing p u cs with
  | nil => simp [Place.read]
  | cons l ls ih =>
    obtain ⟨rest, rfl, hl, -, hc, hr⟩ := lexed_cons.1 h
    intro t ht
    rcases List.mem_append.1 ht with ht | ht
    · exact l.stands_tokens hp hl hc t ht
    · have hrest := ih hr (position_after hp hl) t ht
      rwa [List.append_assoc] at hrest

theorem stands_of_tokenize {source : String} {tokens : List Token}
    (h : tokenize source = .ok tokens) : ∀ t ∈ tokens, Stands source.toList t := by
  obtain ⟨ls, hl, rfl⟩ := tokenize_eq_ok_iff.1 h
  intro t ht
  rcases List.mem_append.1 ht with ht | ht
  · exact hl.stands_read Position.after_nil.symm t ht
  · rw [List.mem_singleton.1 ht, position_through_start hl.settled.wellFormed, hl.chars_eq]
    exact .ending

def Solid (w : List Char) : Prop := w ≠ [] ∧ ∀ c ∈ w, c ≠ '\n' ∧ ¬Lexeme.isBlank c

theorem solid_of_isWordChar {w : List Char} (hne : w ≠ []) (h : ∀ c ∈ w, Lexeme.isWordChar c) :
    Solid w :=
  ⟨hne, fun c hc => (Lexeme.not_layout_of_isWordChar (h c hc)).2⟩

theorem solid_of_isDigits {ds : List Char} (h : Lexeme.IsDigits ds) : Solid ds :=
  solid_of_isWordChar h.1 h.isWordChar

theorem Spelled.solid {t : Terminal} (h : Spelled t) : Solid t.text.toList := by
  obtain ⟨l, hl⟩ := h.exists_spells
  have hw := hl.wellFormed
  have ht := hl.terminal?_eq
  rw [← hl.chars_eq]
  cases l with
  | newline | blank | comment => cases ht
  | equals => exact ⟨by simp [Lexeme.chars], by simp [Lexeme.chars, Lexeme.isBlank]⟩
  | digits text => exact solid_of_isDigits hw
  | word text => exact solid_of_isWordChar hw.chars_ne_nil (Lexeme.IsWord.isWordChar hw)

theorem solid_of_read?_eq_none {c : Char} {rest : List Char}
    (h : Lexeme.read? (c :: rest) = none) : Solid [c] := by
  refine ⟨List.cons_ne_nil _ _, fun d hd => ?_⟩
  obtain rfl := List.mem_singleton.1 hd
  by_cases hs : d = '/'
  · subst hs
    decide
  · rw [Lexeme.read?_cons rest hs] at h
    have hn : d ≠ '\n' := by
      rintro rfl
      simp at h
    exact ⟨hn, fun hb => by simp [hn, hb] at h⟩

def ReadsAt (shown : List Char) (col : Nat) (w : List Char) : Prop :=
  w <+: shown.drop (col - 1)

theorem readsAt_after {u w v : List Char} (h : Solid w) :
    ReadsAt (line (u ++ (w ++ v)) (Position.after u).row) (Position.after u).col w := by
  have hn : '\n' ∉ w := fun hm => (h.2 _ hm).1 rfl
  have hr : '\r' ∉ w := fun hm => (h.2 _ hm).2 rfl
  obtain ⟨rest, hrest⟩ := Text.exists_line_append (u := u) v h.1 hn hr
  simp [ReadsAt, Position.after, hrest]

theorem toList_lineAt (source : String) (row : Nat) :
    (Text.lineAt source row).toList = Text.line source.toList row := by
  rw [Text.lineAt, String.toList_ofList]

theorem readsAt_lineAt {source : String} {u w v : List Char} (h : u ++ (w ++ v) = source.toList)
    (hw : Solid w) :
    ReadsAt (Text.lineAt source (Position.after u).row).toList (Position.after u).col w := by
  rw [toList_lineAt, ← h]
  exact readsAt_after hw

theorem ReadsAt.col_le {shown w : List Char} {col : Nat} (h : ReadsAt shown col w) (hw : Solid w) :
    col ≤ shown.length := by
  have hpos := List.length_pos_iff.2 hw.1
  have hle := h.length_le
  rw [List.length_drop] at hle
  omega

end LetIf
