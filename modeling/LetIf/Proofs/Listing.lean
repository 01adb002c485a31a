import LetIf.Proofs.Command
import LetIf.Proofs.Diagnostics
import LetIf.Proofs.Text.Quoted
import LetIf.Proofs.Text.Rows

/-!
# Listed tokens

A listed token is four codes that end by themselves, one after the other: a row,
a column, a kind and a quoted spelling. So these four are told from the line.
-/

namespace LetIf

open Command Text
open Text (Bytes encode)

def Token.shown (t : Token) : Position × Terminal := (t.span.start, t.toTerminal)

theorem toList_listing (t : Token) :
    t.listing.toList = (Nat.toDigits 10 t.span.start.row ++ [':']) ++
      ((Nat.toDigits 10 t.span.start.col ++ [' ']) ++
        ((t.kind.label.toList ++ [' ']) ++ quoteChars t.text.toList)) := by
  simp only [Token.listing, Position.text, String.toList_append, Nat.toList_repr, quote,
    String.toList_ofList, List.append_assoc]
  rfl

theorem delimited_label : Delimited fun kind : Kind => kind.label.toList ++ [' '] := by
  refine delimited_closed ?_ fun k l h => ?_
  · intro kind
    cases kind <;> decide
  · have hl := congrArg Kind.ofLabel? (String.toList_inj.1 h)
    rwa [Kind.ofLabel?_label, Kind.ofLabel?_label, Option.some.injEq] at hl

theorem delimited_numeral {stop : Char} (h : stop.isAlphanum = false) :
    Delimited fun n => Nat.toDigits 10 n ++ [stop] :=
  delimited_toDigits (by decide) (by decide) h

theorem shown_eq_iff {t u : Token} : t.shown = u.shown ↔
    t.span.start.row = u.span.start.row ∧ t.span.start.col = u.span.start.col ∧
      t.kind = u.kind ∧ t.text = u.text := by
  obtain ⟨⟨kind, text⟩, ⟨⟨row, col⟩, stop⟩⟩ := t
  obtain ⟨⟨kind', text'⟩, ⟨⟨row', col'⟩, stop'⟩⟩ := u
  simp only [Token.shown, Prod.mk.injEq, Position.mk.injEq, Terminal.mk.injEq, and_assoc]

theorem listing_eq_iff {t u : Token} : t.listing = u.listing ↔ t.shown = u.shown := by
  constructor
  · intro h
    rw [← String.toList_inj, toList_listing, toList_listing] at h
    obtain ⟨hrow, h⟩ := delimited_numeral rfl _ _ _ _ h
    obtain ⟨hcol, h⟩ := delimited_numeral rfl _ _ _ _ h
    obtain ⟨hkind, h⟩ := delimited_label _ _ _ _ h
    obtain ⟨htext, -⟩ := delimited_quoteChars _ _ [] [] (congrArg (· ++ []) h)
    exact shown_eq_iff.2 ⟨hrow, hcol, hkind, String.toList_inj.1 htext⟩
  · intro h
    obtain ⟨hstart, hterminal⟩ := Prod.mk.inj h
    rw [Token.listing, Token.listing, hstart, hterminal]

theorem oneRow_listing (t : Token) : OneRow t.listing := by
  have hstart : OneRow t.span.start.text :=
    ((oneRow_repr _).append (by decide)).append (oneRow_repr _)
  have hkind : OneRow (t.span.start.text ++ " " ++ t.kind.label) :=
    (hstart.append (by decide)).append (oneRow_label t.kind)
  exact (hkind.append (by decide)).append (oneRow_quote _)

theorem tokenLines_eq (tokens : List Token) :
    tokenLines tokens = String.join ((tokens.map Token.listing).map (· ++ "\n")) := by
  rw [tokenLines, List.map_map]
  rfl

theorem oneRow_listings (tokens : List Token) : ∀ text ∈ tokens.map Token.listing, OneRow text :=
  List.forall_mem_map.2 fun t _ => oneRow_listing t

theorem rows_tokenLines (tokens : List Token) :
    rows (tokenLines tokens).toList = tokens.map (·.listing.toList) ++ [[]] := by
  rw [tokenLines_eq, rows_join (oneRow_listings tokens), List.map_map]
  rfl

theorem map_shown_of_map_listing {tokens tokens' : List Token}
    (h : tokens.map Token.listing = tokens'.map Token.listing) :
    tokens.map Token.shown = tokens'.map Token.shown := by
  induction tokens generalizing tokens' with
  | nil =>
    rw [List.map_nil, List.nil_eq, List.map_eq_nil_iff] at h
    rw [h]
  | cons t tokens ih =>
    obtain ⟨u, us, rfl, hu, hus⟩ := List.map_eq_cons_iff.1 h.symm
    rw [List.map_cons, List.map_cons, ih hus.symm, listing_eq_iff.1 hu]

theorem map_shown_of_tokenLines_eq {tokens tokens' : List Token}
    (h : tokenLines tokens = tokenLines tokens') :
    tokens.map Token.shown = tokens'.map Token.shown := by
  rw [tokenLines_eq, tokenLines_eq] at h
  exact map_shown_of_map_listing (join_inj (oneRow_listings _) (oneRow_listings _) h)

inductive PrintsTokens : Completion → List Token → Prop
  | intro {read : Bytes → Except Unreadable ByteArray} {args : List Bytes} {o : Options}
      {source : String} {tokens : List Token} :
      Options.ofArgs args = .ok o → o.emit = .tokens → Holds read o.path source →
      tokenize source = .ok tokens → PrintsTokens (run read args) tokens

theorem PrintsTokens.stdout_eq {c : Completion} {tokens : List Token} (h : PrintsTokens c tokens) :
    c.stdout = tokenLines tokens := by
  cases h with
  | intro ho hemit hholds htokens =>
    have h := answersFor_run ho hholds
    rw [Completion.AnswersFor, hemit, htokens] at h
    exact h.2

/-- Two tokens are listed alike exactly if they start at the same place and have
the same kind and spelling, and every token is listed on one row. So a run that
prints tokens prints as many rows, each ended by a line feed, and two runs that
print the same have tokens with the same starts, kinds and spellings. -/
theorem listing_unambiguous :
    (∀ t u : Token, t.listing = u.listing ↔
      t.span.start.row = u.span.start.row ∧ t.span.start.col = u.span.start.col ∧
        t.kind = u.kind ∧ t.text = u.text) ∧
    (∀ t : Token, '\n' ∉ t.listing.toList) ∧
    (∀ c tokens, PrintsTokens c tokens →
      rows c.stdout.toList = tokens.map (·.listing.toList) ++ [[]]) ∧
    ∀ c c' tokens tokens', PrintsTokens c tokens → PrintsTokens c' tokens' →
      c.stdout = c'.stdout → tokens.map Token.shown = tokens'.map Token.shown := by
  refine ⟨fun t u => listing_eq_iff.trans shown_eq_iff, oneRow_listing, ?_, ?_⟩
  · intro c tokens h
    rw [h.stdout_eq]
    exact rows_tokenLines tokens
  · intro c c' tokens tokens' h h' heq
    rw [h.stdout_eq, h'.stdout_eq] at heq
    exact map_shown_of_tokenLines_eq heq

def tokenArgs : List Bytes := [encode "f", encode "-e", encode "tokens"]

theorem listing_unambiguous_respaced :
    ∃ tokens tokens', PrintsTokens (run (oneFile "x ") tokenArgs) tokens ∧
      PrintsTokens (run (oneFile "x\t") tokenArgs) tokens' ∧
      rows (run (oneFile "x ") tokenArgs).stdout.toList
        = tokens.map (·.listing.toList) ++ [[]] ∧
      tokens.map Token.shown = tokens'.map Token.shown := by
  have ho : Options.ofArgs tokenArgs = .ok ⟨encode "f", .tokens, false⟩ :=
    eq_ok_of_toOption (by decide +kernel)
  obtain ⟨tokens, ht⟩ : ∃ tokens, tokenize "x " = .ok tokens :=
    exists_eq_ok (by decide +kernel)
  obtain ⟨tokens', ht'⟩ : ∃ tokens, tokenize "x\t" = .ok tokens :=
    exists_eq_ok (by decide +kernel)
  have h : PrintsTokens (run (oneFile "x ") tokenArgs) tokens := .intro ho rfl rfl ht
  have h' : PrintsTokens (run (oneFile "x\t") tokenArgs) tokens' := .intro ho rfl rfl ht'
  obtain ⟨-, -, hrows, hsame⟩ := listing_unambiguous
  exact ⟨tokens, tokens', h, h', hrows _ _ h, hsame _ _ _ _ h h' (by decide +kernel)⟩

end LetIf
