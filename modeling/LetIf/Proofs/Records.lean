import LetIf.Log

/-!
# Records of events

A record opens with the label of its level, and its first letters tell what it
is about. So the level can be read off a record, and what is recorded under a
bound is what the full log has of the levels within it.
-/

namespace LetIf

def Level.tag (level : Level) : String := "[" ++ level.label ++ "] "

def levelOf? (record : String) : Option Level :=
  Level.all.find? fun level => level.tag.toList.isPrefixOf record.toList

theorem Event.record_eq_tag (e : Event) : e.record = e.level.tag ++ e.message := rfl

/-- Four characters are enough to tell tags apart. -/
theorem Level.tag_inj {l m : Level} (h : l.tag.toList.take 4 = m.tag.toList.take 4) : l = m := by
  cases l <;> cases m <;> first | rfl | exact absurd h (by decide)

theorem Level.isPrefixOf_tag_iff {l m : Level} {cs : List Char} :
    l.tag.toList.isPrefixOf (m.tag.toList ++ cs) ↔ l = m := by
  have hlen : ∀ level : Level, 4 ≤ level.tag.toList.length := by
    intro level
    cases level <;> decide
  constructor
  · intro h
    obtain ⟨rest, hr⟩ := List.isPrefixOf_iff_prefix.1 h
    have htake := congrArg (List.take 4) hr
    rw [List.take_append_of_le_length (hlen l), List.take_append_of_le_length (hlen m)] at htake
    exact tag_inj htake
  · rintro rfl
    exact List.isPrefixOf_iff_prefix.2 (List.prefix_append _ _)

theorem levelOf?_record (e : Event) : levelOf? e.record = some e.level := by
  have hp : ∀ l : Level, l.tag.toList.isPrefixOf e.record.toList = decide (l = e.level) := by
    intro l
    rw [e.record_eq_tag, String.toList_append, Bool.eq_iff_iff, decide_eq_true_iff]
    exact Level.isPrefixOf_tag_iff
  simp only [levelOf?, hp]
  cases e.level <;> rfl

theorem Level.within_trace (level : Level) : level.within (some .trace) := by
  cases level <;> rfl

theorem records_trace (events : List Event) :
    records (some .trace) events = events.map Event.record := by
  have h : ∀ e ∈ events, e.level.within (some .trace) := fun e _ => e.level.within_trace
  rw [records, List.filter_eq_self.2 h]

theorem records_eq_filter (bound : Option Level) (events : List Event) :
    records bound events = (records (some .trace) events).filter
      fun record => (levelOf? record).any (·.within bound) := by
  rw [records_trace, List.filter_map, records]
  simp [Function.comp_def, levelOf?_record]

theorem record_eq {e : Event} {start rest : String} (level : Level) (first : String)
    (hl : e.level = level) (hm : e.message = first ++ rest) (hs : level.tag ++ first = start) :
    e.record = start ++ rest := by
  rw [e.record_eq_tag, hl, hm, ← String.append_assoc, hs]

theorem record_token (t : Token) : (Event.token t).record = "[TRACE] token " ++ t.listing :=
  record_eq .trace "token " rfl rfl (by decide)

theorem record_tokenized (tokens rows : Nat) :
    (Event.tokenized tokens rows).record
      = "[INFO] tokenized " ++ tokens.repr ++ " tokens over " ++ rows.repr ++ " line(s)" := by
  have hm : (Event.tokenized tokens rows).message
      = "tokenized " ++ (tokens.repr ++ " tokens over " ++ rows.repr ++ " line(s)") := by
    simp only [← String.append_assoc]
    rfl
  rw [record_eq .info "tokenized " rfl hm (by decide : _ = "[INFO] tokenized ")]
  simp only [← String.append_assoc]

theorem record_binding (name : String) :
    (Event.binding name).record = "[DEBUG] Entering let binding `" ++ name ++ "`" := by
  rw [String.append_assoc]
  exact record_eq .debug "Entering let binding `" rfl (String.append_assoc ..) (by decide)

theorem record_conditional : Event.conditional.record = "[DEBUG] Entering if expression" := by
  decide

theorem record_name (text : String) :
    (Event.name text).record = "[TRACE] name `" ++ text ++ "`" := by
  rw [String.append_assoc]
  exact record_eq .trace "name `" rfl (String.append_assoc ..) (by decide)

theorem record_refused (cause : Cause) (p : Position) :
    (Event.refused cause p).record = "[DEBUG] " ++ cause.message ++ " at " ++ p.text := by
  rw [String.append_assoc, String.append_assoc]
  have hm : (Event.refused cause p).message = "" ++ (cause.message ++ (" at " ++ p.text)) := by
    rw [String.empty_append, ← String.append_assoc]
    rfl
  exact record_eq .debug "" rfl hm (by decide)

theorem record_parsed (bindings : Nat) :
    (Event.parsed bindings).record = "[INFO] parsed " ++ bindings.repr ++ " binding(s)" := by
  rw [String.append_assoc]
  exact record_eq .info "parsed " rfl (String.append_assoc ..) (by decide)

theorem record_eq_iff {e f : Event} :
    e.record = f.record ↔ e.level = f.level ∧ e.message = f.message := by
  constructor
  · intro h
    have hl : e.level = f.level := by
      have := congrArg levelOf? h
      rwa [levelOf?_record, levelOf?_record, Option.some.injEq] at this
    rw [e.record_eq_tag, f.record_eq_tag, hl] at h
    exact ⟨hl, by simpa using h⟩
  · rintro ⟨hl, hm⟩
    rw [e.record_eq_tag, f.record_eq_tag, hl, hm]

def Opens (c : Char) (text : String) : Prop := text.toList.head? = some c

instance (c : Char) (text : String) : Decidable (Opens c text) :=
  inferInstanceAs (Decidable (text.toList.head? = some c))

theorem Opens.append {c : Char} {s : String} (h : Opens c s) (t : String) : Opens c (s ++ t) := by
  rw [Opens, String.toList_append, List.head?_append, show s.toList.head? = some c from h]
  rfl

theorem Opens.unique {c d : Char} {s : String} (hc : Opens c s) (hd : Opens d s) : c = d :=
  Option.some.inj (hc.symm.trans hd)

theorem Cause.opens_message (cause : Cause) : ∃ c, c ≠ 'E' ∧ Opens c cause.message := by
  cases cause with
  | unrecognisedToken text | unrecognisedExpression text =>
    exact ⟨'u', by decide, Opens.append (by decide) _⟩
  | numberOutOfRange text => exact ⟨'n', by decide, (Opens.append (by decide) _).append _⟩
  | unexpectedToken expected found =>
    exact ⟨'e', by decide, ((Opens.append (by decide) _).append _).append _⟩
  | malformedNumber text | malformedBoolean text =>
    exact ⟨'i', by decide, (Opens.append (by decide) _).append _⟩

def IsRefusal (record : String) : Prop :=
  ∃ (cause : Cause) (p : Position), record = "[DEBUG] " ++ cause.message ++ " at " ++ p.text

def IsSummary (record : String) : Prop :=
  ∃ bindings : Nat, record = "[INFO] parsed " ++ bindings.repr ++ " binding(s)"

theorem isRefusal_record_iff {e : Event} :
    IsRefusal e.record ↔ ∃ cause p, e = .refused cause p := by
  constructor
  · rintro ⟨cause, p, h⟩
    obtain ⟨hl, hm⟩ := record_eq_iff.1 (h.trans (record_refused cause p).symm)
    obtain ⟨c, hc, hopens⟩ := cause.opens_message
    have hrefused : Opens c e.message := hm ▸ (hopens.append _).append _
    cases e with
    | refused cause' p' => exact ⟨cause', p', rfl⟩
    | token t | name text | tokenized tokens rows | parsed bindings => cases hl
    | binding name =>
      exact absurd (hrefused.unique ((Opens.append (by decide) _).append _)) hc
    | conditional => exact absurd (hrefused.unique (by decide)) hc
  · rintro ⟨cause, p, rfl⟩
    exact ⟨cause, p, record_refused cause p⟩

theorem isSummary_record_iff {e : Event} :
    IsSummary e.record ↔ ∃ bindings, e = .parsed bindings := by
  constructor
  · rintro ⟨bindings, h⟩
    obtain ⟨hl, hm⟩ := record_eq_iff.1 (h.trans (record_parsed bindings).symm)
    have hparsed : Opens 'p' e.message := hm ▸ (Opens.append (by decide) _).append _
    cases e with
    | parsed bindings' => exact ⟨bindings', rfl⟩
    | token t | name text | binding name | conditional | refused cause p => cases hl
    | tokenized tokens rows =>
      have htokenized : Opens 't' (Event.tokenized tokens rows).message :=
        (((Opens.append (by decide) _).append _).append _).append _
      exact absurd (hparsed.unique htokenized) (by decide)
  · rintro ⟨bindings, rfl⟩
    exact ⟨bindings, record_parsed bindings⟩

end LetIf
