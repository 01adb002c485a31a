import LetIf.Proofs.Parse
import LetIf.Proofs.Refusal

/-!
# Scanned tokens have values

A rule refuses the spelling of a literal only where it denotes nothing. Literals
of a source are spelled so that they denote something, so only tokens from
elsewhere can be refused for their spelling.
-/

namespace LetIf

open Grammar

variable {α : Type}

/-- The source is at fault, and not the tokens. -/
def Cause.OfSource (cause : Cause) : Prop :=
  cause.isInternal = false ∧
    ∀ text, cause ≠ .malformedNumber text ∧ cause ≠ .malformedBoolean text

/-- All but the line starts are spelled as in a source. -/
def Scanned (ts : List Terminal) : Prop := ∀ t ∈ ts, t.kind ≠ .newline → Spelled t

theorem Spelled.read?_ne_none {text : String} (h : Spelled ⟨.number, text⟩) :
    Numeral.read? text ≠ none := by
  cases h with
  | number hd hv => simp [read?_of_isDigits hd, hv]

theorem Spelled.boolean_cases {text : String} (h : Spelled ⟨.boolean, text⟩) :
    text = "true" ∨ text = "false" := by
  cases h with
  | boolean hb => simpa using hb

namespace Grammar

theorem Explains.ofSource {L : List Terminal → α → Prop} {before tail : List Terminal}
    {cause : Cause} (h : Explains L before tail.head? cause) (hs : Scanned tail) :
    cause.OfSource := by
  have spelled : ∀ {t}, tail.head? = some t → t.kind ≠ .newline → Spelled t := fun ht hk =>
    hs _ (List.mem_of_head? ht) hk
  cases cause with
  | malformedNumber text => exact absurd h.2.1 (spelled h.1 nofun).read?_ne_none
  | malformedBoolean text =>
    obtain ⟨hnext, ht, hf, -⟩ := h
    rcases (spelled hnext nofun).boolean_cases with rfl | rfl
    · exact absurd rfl ht
    · exact absurd rfl hf
  | _ => exact ⟨rfl, fun _ => ⟨nofun, nofun⟩⟩

def Converts (r : Reading α) : Prop := ∀ f, r.result = .error f → f.cause.OfSource

theorem Judges.converts {L : List Terminal → α → Prop} {ts : List Terminal} {r : Reading α}
    (h : Judges L ts r) (hs : Scanned ts) : Converts r := by
  intro f hf
  obtain ⟨before, tail, rfl, -, hfault⟩ := (judges_of_error hf).1 h
  exact hfault.explains.ofSource fun t ht => hs t (List.mem_append_right _ ht)

theorem converts_expression {ts : List Terminal} (hs : Scanned ts) : Converts (expression ts) :=
  (judges_expression ts).converts hs

theorem converts_branches {ts : List Terminal} (hs : Scanned ts) : Converts (branches ts) :=
  (judges_branches fun us _ => judges_expression us).converts hs

theorem converts_binding {ts : List Terminal} (hs : Scanned ts) : Converts (binding ts) :=
  (judges_binding ts).converts hs

theorem converts_program {ts : List Terminal} (hs : Scanned ts) : Converts (program ts) := by
  intro f hf
  obtain ⟨before, tail, rfl, -, row, hexplains⟩ := program_error hf
  exact hexplains.ofSource fun t ht => hs t (List.mem_append_right _ ht)

theorem converts_whole {ts : List Terminal} (hs : Scanned ts) : Converts (whole ts) := by
  intro f hf
  obtain ⟨before, tail, rfl, -, hm⟩ := whole_error hf
  rcases hm.explains with he | ⟨hc, -⟩
  · exact he.ofSource fun t ht => hs t (List.mem_append_right _ ht)
  · rw [hc]
    exact ⟨rfl, fun _ => ⟨nofun, nofun⟩⟩

end Grammar

theorem Unfit.ofSource {rest : List Char} {cause : Cause} (h : Unfit rest cause) :
    cause.OfSource := by
  cases h <;> exact ⟨rfl, fun _ => ⟨nofun, nofun⟩⟩

theorem scanned_skip {source : String} {tokens : List Token} (h : tokenize source = .ok tokens)
    (n : Nat) : Scanned ((Stream.ofTokens tokens source).skip n).terminals := by
  obtain ⟨ls, hl, rfl⟩ := tokenize_eq_ok_iff.1 h
  intro t ht hk
  refine hl.spelled ?_ hk
  rw [← terminals_stream_read ls (Place.start.through ls).position source]
  rw [Stream.terminals, Stream.word_skip] at ht
  obtain ⟨u, hu, rfl⟩ := List.mem_map.1 ht
  exact List.mem_map_of_mem (List.mem_of_mem_drop hu)

def Stream.BlamesSource (s : Stream) (rule : List Terminal → Reading α) : Prop :=
  ∀ d, (s.run rule).result = .error d → d.cause.OfSource

theorem Grammar.Converts.blamesSource {s : Stream} {rule : List Terminal → Reading α}
    (h : Converts (rule s.terminals)) : s.BlamesSource rule := by
  intro d hd
  obtain ⟨f, hf, rfl⟩ := run_error hd
  exact h f hf

theorem parseSource_error_ofSource {source : String} {d : Diagnostic}
    (h : parseSource source = .error d) : d.cause.OfSource := by
  unfold parseSource at h
  split at h
  next e ht =>
    cases h
    obtain ⟨ls, rest, hstuck, -⟩ := exists_stuck ht
    exact hstuck.unfit.ofSource
  next tokens ht => exact (converts_whole (scanned_skip ht 0)).blamesSource d h

/-- No source is refused for the spelling of a literal, and no rule refuses the
tokens of a source for it, wherever among them the rule is started. -/
theorem scanned_literals_convert :
    (∀ (source : String) (d : Diagnostic), parseSource source = .error d → d.cause.OfSource) ∧
    ∀ (source : String) (tokens : List Token) (s : Stream) (n : Nat),
      tokenize source = .ok tokens → s = (Stream.ofTokens tokens source).skip n →
      s.BlamesSource expression ∧ s.BlamesSource branches ∧ s.BlamesSource binding ∧
        s.BlamesSource program := by
  refine ⟨fun source d => parseSource_error_ofSource, ?_⟩
  rintro source tokens _ n ht rfl
  have hs := scanned_skip ht n
  exact ⟨(converts_expression hs).blamesSource, (converts_branches hs).blamesSource,
    (converts_binding hs).blamesSource, (converts_program hs).blamesSource⟩

def unfinished : String := "let x = if 007 then true"

theorem scanned_literals_convert_unfinished :
    (∃ d, parseSource unfinished = .error d ∧ d.cause.OfSource) ∧
    ∃ tokens, tokenize unfinished = .ok tokens ∧
      ∃ d, (((Stream.ofTokens tokens unfinished).skip 5).run branches).result = .error d ∧
        d.cause.OfSource := by
  constructor
  · obtain ⟨d, hd⟩ : ∃ d, parseSource unfinished = .error d := exists_eq_error (by decide +kernel)
    exact ⟨d, hd, scanned_literals_convert.1 _ d hd⟩
  · obtain ⟨tokens, ht⟩ : ∃ tokens, tokenize unfinished = .ok tokens :=
      exists_eq_ok (by decide +kernel)
    obtain ⟨-, hbranches, -⟩ := scanned_literals_convert.2 _ tokens _ 5 ht rfl
    have hrun : (tokenize unfinished).toOption.map (fun ts =>
        (((Stream.ofTokens ts unfinished).skip 5).run branches).result.toOption.isNone)
        = some true := by decide +kernel
    rw [ht] at hrun
    obtain ⟨d, hd⟩ := exists_eq_error (Option.some.inj hrun)
    exact ⟨tokens, ht, d, hd, hbranches d hd⟩

end LetIf
