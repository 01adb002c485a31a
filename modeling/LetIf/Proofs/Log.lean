import LetIf.Proofs.Grammar.Traversal
import LetIf.Proofs.Indifference
import LetIf.Proofs.Joining

/-!
# The log of a source

The log lists the tokens, up to the first refusal if there is one, and then goes
through the program in the order of its text, or up to the first refusal.
-/

namespace LetIf

open Grammar

def scanLog (source : String) (tokens : List Token) : List String :=
  (tokens.filter (!·.isEof)).map (fun t => "[TRACE] token " ++ t.listing) ++
    ["[INFO] tokenized " ++ tokens.length.repr ++ " tokens over "
      ++ (source.toList.count '\n' + 1).repr ++ " line(s)"]

theorem map_record_token (tokens : List Token) :
    (tokens.map Event.token).map Event.record
      = tokens.map fun t => "[TRACE] token " ++ t.listing := by
  rw [List.map_map]
  exact List.map_congr_left fun t _ => record_token t

theorem map_record_scan {source : String} {tokens : List Token} (h : tokenize source = .ok tokens) :
    (Scan.ofSource source).events.map Event.record = scanLog source tokens := by
  obtain ⟨ls, hl, rfl⟩ := tokenize_eq_ok_iff.1 h
  have hrow : (Place.start.through ls).position.row = source.toList.count '\n' + 1 := by
    rw [position_through_start hl.settled.wellFormed, hl.chars_eq]
    rfl
  have hvisible : (Place.start.read ls ++ [Token.eofAt (Place.start.through ls).position]).filter
      (!·.isEof) = Place.start.read ls := by
    rw [List.filter_append, List.filter_eq_self.2 fun t ht => by
      simpa [Token.isEof] using kind_ne_eof_of_mem_read ht]
    exact List.append_nil _
  simp only [Scan.ofSource, hl.ofChars_eq, Scan.events, scanLog, hvisible, List.map_append,
    map_record_token, List.map_singleton, record_tokenized, hrow, List.length_append,
    List.length_singleton]

theorem Breaks.events_eq {source u v : String} {cause : Cause} (h : Breaks source u v cause) :
    ∃ tokens q, tokenize u = .ok (tokens ++ [.eofAt q]) ∧
      (Scan.ofSource source).events = tokens.map .token := by
  obtain ⟨ls, hstuck, hu⟩ := breaks_iff_stuck.1 h
  have hlexed : Lexed u.toList ls := ⟨(Lexeme.settled_iff.1 hstuck.settled).1, hu, hstuck.accepted⟩
  refine ⟨_, _, tokenize_eq_ok_iff.2 ⟨ls, hlexed, rfl⟩, ?_⟩
  simp only [Scan.ofSource, hstuck.ofChars_eq, Scan.events, List.append_nil]

theorem events_run {α : Type} (s : Stream) (rule : List Terminal → Reading α) :
    (s.run rule).events = (rule s.terminals).events ++
      match (s.run rule).result with
      | .ok _ => []
      | .error d => [.refused d.cause d.position] := by
  cases h : (rule s.terminals).result with
  | ok a => simp [Stream.run, h]
  | error f => simp [Stream.run, h, Stream.diagnosticAt, Diagnostic.locate]

theorem sourceEvents_of_ok {source : String} {tokens : List Token}
    (h : tokenize source = .ok tokens) :
    sourceEvents source
      = (Scan.ofSource source).events ++ (Stream.ofTokens tokens source).parse.events := by
  unfold tokenize at h
  simp only [sourceEvents, h]

theorem sourceEvents_of_error {source : String} {d : Diagnostic} (h : tokenize source = .error d) :
    sourceEvents source = (Scan.ofSource source).events := by
  unfold tokenize at h
  simp only [sourceEvents, h, List.append_nil]

section
variable {source : String} {tokens : List Token}

theorem log_of_stuck {d : Diagnostic} (h : tokenize source = .error d) :
    ∃ u v tokens q, Breaks source u v d.cause ∧ tokenize u = .ok (tokens ++ [.eofAt q]) ∧
      (sourceEvents source).map Event.record
        = tokens.map fun t => "[TRACE] token " ++ t.listing := by
  obtain ⟨ls, rest, hstuck, -⟩ := exists_stuck h
  have hbreaks : Breaks source (.ofList (ls.flatMap Lexeme.chars)) (.ofList rest) d.cause :=
    breaks_iff_stuck.2 ⟨ls, by simpa using hstuck, by simp⟩
  obtain ⟨tokens, q, ht, hevents⟩ := hbreaks.events_eq
  refine ⟨_, _, tokens, q, hbreaks, ht, ?_⟩
  rw [sourceEvents_of_error h, hevents, map_record_token]

theorem log_of_program {p : Program} (ht : tokenize source = .ok tokens)
    (hp : parseSource source = .ok p) :
    (sourceEvents source).map Event.record = scanLog source tokens ++ p.log ++
      ["[INFO] parsed " ++ p.bindings.length.repr ++ " binding(s)"] := by
  rw [parseSource_of_tokenize ht] at hp
  have hevents := events_run (Stream.ofTokens tokens source) whole
  rw [show (Stream.run _ _).result = .ok p from hp, List.append_nil] at hevents
  have hlog := logOf_whole (Stream.run_eq_ok_iff.1 hp)
  rw [sourceEvents_of_ok ht, List.map_append, map_record_scan ht, Stream.parse, hevents,
    List.append_assoc]
  exact congrArg _ hlog

theorem log_of_refused {d : Diagnostic} (ht : tokenize source = .ok tokens)
    (hp : parseSource source = .error d) :
    ∃ steps : List Event, (∀ e ∈ steps, e.isStep) ∧
      (sourceEvents source).map Event.record = scanLog source tokens ++ steps.map Event.record ++
        ["[DEBUG] " ++ d.cause.message ++ " at " ++ d.position.text] := by
  rw [parseSource_of_tokenize ht] at hp
  obtain ⟨f, hf, -⟩ := run_error hp
  have hevents := events_run (Stream.ofTokens tokens source) whole
  rw [show (Stream.run _ _).result = .error d from hp] at hevents
  refine ⟨_, stepsOnly_whole_of_error hf, ?_⟩
  rw [sourceEvents_of_ok ht, List.map_append, map_record_scan ht, Stream.parse, hevents,
    List.map_append, List.append_assoc, ← record_refused]
  rfl

theorem not_verdict_of_mem_scanLog {record : String} (h : record ∈ scanLog source tokens) :
    ¬IsRefusal record ∧ ¬IsSummary record := by
  rcases List.mem_append.1 h with h | h
  · obtain ⟨t, -, rfl⟩ := List.mem_map.1 h
    rw [← record_token, isRefusal_record_iff, isSummary_record_iff]
    simp
  · rw [List.mem_singleton.1 h, ← record_tokenized, isRefusal_record_iff, isSummary_record_iff]
    simp

end

theorem not_verdict_of_isStep {e : Event} (h : e.isStep) :
    ¬IsRefusal e.record ∧ ¬IsSummary e.record := by
  rw [isRefusal_record_iff, isSummary_record_iff]
  constructor
  · rintro ⟨cause, p, rfl⟩
    cases h
  · rintro ⟨bindings, rfl⟩
    cases h

/-- With the most detailed bound the log lists the tokens that were read. If the
scan was refused these are the tokens before the break, and there is nothing
else. Otherwise a count of tokens and rows follows, and then the program from
its first node to its last, with a count of its bindings, or the steps up to a
refusal and that refusal, which is the only one and comes last. Under any other
bound the log is what this one has of the levels within it. -/
theorem log_mirrors_run (source : String) :
    (∀ bound, records bound (sourceEvents source)
      = (records (some .trace) (sourceEvents source)).filter
          fun record => (levelOf? record).any (·.within bound)) ∧
    match tokenize source with
    | .error d => ∃ u v tokens q, Breaks source u v d.cause ∧
        tokenize u = .ok (tokens ++ [.eofAt q]) ∧
        records (some .trace) (sourceEvents source)
          = tokens.map fun t => "[TRACE] token " ++ t.listing
    | .ok tokens =>
      match parseSource source with
      | .ok p => records (some .trace) (sourceEvents source) = scanLog source tokens ++ p.log ++
          ["[INFO] parsed " ++ p.bindings.length.repr ++ " binding(s)"]
      | .error d => ∃ steps : List Event, (∀ e ∈ steps, e.isStep) ∧
          records (some .trace) (sourceEvents source)
            = scanLog source tokens ++ steps.map Event.record ++
              ["[DEBUG] " ++ d.cause.message ++ " at " ++ d.position.text] ∧
          (∀ record ∈ scanLog source tokens ++ steps.map Event.record, ¬IsRefusal record) ∧
          ∀ record ∈ records (some .trace) (sourceEvents source), ¬IsSummary record := by
  refine ⟨fun bound => records_eq_filter bound _, ?_⟩
  rw [records_trace]
  cases ht : tokenize source with
  | error d => exact log_of_stuck ht
  | ok tokens =>
    cases hp : parseSource source with
    | ok p => exact log_of_program ht hp
    | error d =>
      obtain ⟨steps, hsteps, hlog⟩ := log_of_refused ht hp
      have hbefore : ∀ record ∈ scanLog source tokens ++ steps.map Event.record,
          ¬IsRefusal record ∧ ¬IsSummary record := by
        intro record h
        rcases List.mem_append.1 h with h | h
        · exact not_verdict_of_mem_scanLog h
        · obtain ⟨e, he, rfl⟩ := List.mem_map.1 h
          exact not_verdict_of_isStep (hsteps e he)
      refine ⟨steps, hsteps, hlog, fun record h => (hbefore record h).1, ?_⟩
      rw [hlog]
      intro record h
      rcases List.mem_append.1 h with h | h
      · exact (hbefore record h).2
      · rw [List.mem_singleton.1 h, ← record_refused, isSummary_record_iff]
        simp

example : records (some .debug) (sourceEvents "let x = if y then\nlet")
    = ["[INFO] tokenized 10 tokens over 2 line(s)", "[DEBUG] Entering let binding `x`",
      "[DEBUG] Entering if expression",
      "[DEBUG] unrecognised expression, found NEWLINE at 2:1"] := by
  decide +kernel

end LetIf
