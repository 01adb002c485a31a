import LetIf.Proofs.Scan

/-!
# Segmentation

A source with tokens is made of spelled terminals with gaps before, between and
after them. A gap holds blanks, line feeds and comments, and a comment goes on
to the end of its row.
-/

namespace LetIf

open Lexeme (isWordChar)

/-- What may stand before `after` without being a token. -/
inductive Gap (after : List Char) : List Char → Prop
  | nil : Gap after []
  | layout {c : Char} {g : List Char} :
      c ∈ [' ', '\t', '\r', '\n'] → Gap after g → Gap after (c :: g)
  | comment {text g : List Char} :
      '\n' ∉ text → (∀ c ∈ (g ++ after).head?, c = '\n') → Gap after g →
      Gap after ('/' :: '/' :: text ++ g)

def Terminal.takes (t : Terminal) (c : Char) : Prop :=
  match t.kind with
  | .keyword | .boolean | .name => isWordChar c
  | .number => c.isDigit
  | .symbol | .newline | .eof => False

inductive Segments : List Char → List Terminal → Prop
  | last {g : List Char} : Gap [] g → Segments g []
  | cons {g rest : List Char} {t : Terminal} {ts : List Terminal} :
      Gap (t.text.toList ++ rest) g → Spelled t → (∀ c ∈ rest.head?, ¬t.takes c) →
      Segments rest ts → Segments (g ++ t.text.toList ++ rest) (t :: ts)

theorem Lexeme.Spells.takes_iff {l : Lexeme} {t : Terminal} (h : l.Spells t) (c : Char) :
    l.takes c ↔ t.takes c := by
  have ht := h.terminal?_eq
  cases l with
  | newline | blank | comment => cases ht
  | equals =>
    cases ht
    simp [Lexeme.takes, Terminal.takes]
  | digits text =>
    cases ht
    rfl
  | word text =>
    cases ht
    rcases kind_ofWord (.ofList text) with hk | hk | hk <;>
      simp [Lexeme.takes, Terminal.takes, hk]

theorem Gap.lexed {after g : List Char} (h : Gap after g) {ls : List Lexeme}
    (hl : Lexed after ls) :
    ∃ ms, Lexed (g ++ after) ms ∧
      ms.filterMap Lexeme.terminal? = ls.filterMap Lexeme.terminal? := by
  induction h with
  | nil => exact ⟨ls, hl, rfl⟩
  | @layout c g hc _ ih =>
    obtain ⟨ms, hm, ht⟩ := ih
    by_cases hn : c = '\n'
    · subst hn
      exact ⟨.newline :: ms, lexed_cons.2 ⟨_, rfl, trivial, fun _ _ => nofun, rfl, hm⟩, ht⟩
    · have hb : Lexeme.isBlank c := Lexeme.isBlank_iff.2 (by simp_all)
      exact ⟨.blank c :: ms, lexed_cons.2 ⟨_, rfl, hb, fun _ _ => nofun, rfl, hm⟩, ht⟩
  | @comment text g hn he _ ih =>
    obtain ⟨ms, hm, ht⟩ := ih
    refine ⟨.comment text :: ms, lexed_cons.2 ⟨g ++ after, ?_, hn, ?_, rfl, hm⟩, ht⟩
    · simp [Lexeme.chars]
    · intro c hc
      simp [Lexeme.takes, he c hc]

theorem Segments.lexed {cs : List Char} {ts : List Terminal} (h : Segments cs ts) :
    ∃ ls, Lexed cs ls ∧ ls.filterMap Lexeme.terminal? = ts := by
  induction h with
  | last hg => simpa using hg.lexed .nil
  | @cons g rest t ts hg hs he _ ih =>
    obtain ⟨ls, hl, rfl⟩ := ih
    obtain ⟨l, hsp⟩ := hs.exists_spells
    have hends : l.Ends rest := fun c hc htake => he c hc ((hsp.takes_iff c).1 htake)
    have hlt : Lexed (t.text.toList ++ rest) (l :: ls) :=
      lexed_cons.2 ⟨rest, by rw [hsp.chars_eq], hsp.wellFormed, hends, hsp.cause?_eq, hl⟩
    obtain ⟨ms, hm, hms⟩ := hg.lexed hlt
    refine ⟨ms, by simpa using hm, ?_⟩
    simp [hms, hsp.terminal?_eq]

theorem Segments.layout {cs : List Char} {ts : List Terminal} {c : Char}
    (hc : c ∈ [' ', '\t', '\r', '\n']) (h : Segments cs ts) : Segments (c :: cs) ts := by
  cases h with
  | last hg => exact .last (hg.layout hc)
  | cons hg hs he hr => exact .cons (hg.layout hc) hs he hr

theorem Segments.comment {text cs : List Char} {ts : List Terminal} (hn : '\n' ∉ text)
    (he : ∀ c ∈ cs.head?, c = '\n') (h : Segments cs ts) :
    Segments ('/' :: '/' :: text ++ cs) ts := by
  cases h with
  | last hg => exact .last (.comment hn (by simpa using he) hg)
  | @cons g rest t ts hg hs hend hr =>
    have hg' := Gap.comment hn (by simpa using he) hg
    simpa using Segments.cons hg' hs hend hr

theorem Lexed.segments {cs : List Char} {ls : List Lexeme} (h : Lexed cs ls) :
    Segments cs (ls.filterMap Lexeme.terminal?) := by
  induction ls generalizing cs with
  | nil =>
    obtain rfl := h.chars_eq
    exact .last .nil
  | cons l ls ih =>
    obtain ⟨rest, rfl, hl, he, hc, hr⟩ := lexed_cons.1 h
    -- A lexeme with a terminal opens a segment with an empty gap, and layout
    -- widens the gap of the segment after it.
    cases ht : l.terminal? with
    | some t =>
      obtain ⟨hs, hsp⟩ := Lexeme.exists_spelled hl hc ht
      rw [List.filterMap_cons_some ht, hsp.chars_eq]
      refine .cons .nil hs (fun c hc htake => ?_) (ih hr)
      exact he c hc ((hsp.takes_iff c).2 htake)
    | none =>
      rw [List.filterMap_cons_none ht]
      cases l with
      | newline => exact (ih hr).layout (by simp)
      | blank c =>
        refine (ih hr).layout ?_
        rcases Lexeme.isBlank_iff.1 hl with rfl | rfl | rfl <;> simp
      | comment text =>
        refine (ih hr).comment hl fun c hc => ?_
        simpa [Lexeme.takes] using he c hc
      | word | digits | equals => cases ht

def visible (tokens : List Token) : List Terminal :=
  (tokens.map Token.toTerminal).filter fun t => t.kind ≠ .newline ∧ t.kind ≠ .eof

theorem visible_read (p : Place) (ls : List Lexeme) (q : Position) :
    visible (p.read ls ++ [.eofAt q]) = ls.filterMap Lexeme.terminal? := by
  rw [visible, List.map_append, List.filter_append, terminals_read]
  generalize p.fresh = fresh
  induction ls generalizing fresh with
  | nil => rfl
  | cons l ls ih =>
    cases ht : l.terminal? with
    | none => rw [terminals_cons_none ht, List.filterMap_cons_none ht, ih]
    | some t =>
      have hk := kind_of_terminal? ht
      rw [terminals_cons_some ht, List.filterMap_cons_some ht, ← ih false]
      cases fresh <;> simp [hk, Terminal.newline]

/-- A source has tokens exactly if it is segmented, into the terminals of those
tokens, and it is segmented in at most one way. -/
theorem tokenize_ok_iff_segments (source : String) :
    (∀ ts, (∃ tokens, tokenize source = .ok tokens ∧ visible tokens = ts) ↔
      Segments source.toList ts) ∧
    ∀ ts us, Segments source.toList ts → Segments source.toList us → ts = us := by
  have hiff : ∀ ts, (∃ tokens, tokenize source = .ok tokens ∧ visible tokens = ts) ↔
      Segments source.toList ts := by
    intro ts
    constructor
    · rintro ⟨tokens, h, rfl⟩
      obtain ⟨ls, hl, rfl⟩ := tokenize_eq_ok_iff.1 h
      rw [visible_read]
      exact hl.segments
    · intro h
      obtain ⟨ls, hl, rfl⟩ := h.lexed
      exact ⟨_, tokenize_eq_ok_iff.2 ⟨ls, hl, rfl⟩, visible_read _ _ _⟩
  refine ⟨hiff, fun ts us hts hus => ?_⟩
  obtain ⟨tokens, h, rfl⟩ := (hiff ts).2 hts
  obtain ⟨tokens', h', rfl⟩ := (hiff us).2 hus
  rw [h] at h'
  cases h'
  rfl

theorem segments_touching :
    Segments "1else//=".toList [⟨.number, "1"⟩, ⟨.keyword, "else"⟩] ∧
      ∀ us, Segments "1else//=".toList us → us = [⟨.number, "1"⟩, ⟨.keyword, "else"⟩] := by
  obtain ⟨hiff, hunique⟩ := tokenize_ok_iff_segments "1else//="
  have hr : (tokenize "1else//=").toOption.map visible
      = some [⟨.number, "1"⟩, ⟨.keyword, "else"⟩] := by
    decide +kernel
  have h := (hiff [⟨.number, "1"⟩, ⟨.keyword, "else"⟩]).1 <| by
    cases ht : tokenize "1else//=" with
    | ok tokens =>
      rw [ht] at hr
      exact ⟨tokens, rfl, Option.some.inj hr⟩
    | error d =>
      rw [ht] at hr
      cases hr
  exact ⟨h, fun us hu => hunique us _ hu h⟩

end LetIf
