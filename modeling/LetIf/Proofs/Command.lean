import LetIf.Command
import LetIf.Proofs.Conversion
import LetIf.Proofs.Options
import LetIf.Proofs.RoundTrip
import LetIf.Proofs.Tree

/-!
# The command and the library

The command answers with what reading the text of its file gives, as tokens or
as a program, and its exit code tells the three cases apart: an answer, a
diagnostic, and a file without text.
-/

namespace LetIf

open Grammar Command
open Text (Bytes encode)

def Holds (read : Bytes → Except Unreadable ByteArray) (path : Bytes) (source : String) : Prop :=
  read path = .ok source.toUTF8

theorem fromUTF8?_eq_some_iff {content : ByteArray} {source : String} :
    String.fromUTF8? content = some source ↔ content = source.toUTF8 := by
  unfold String.fromUTF8?
  constructor
  · intro h
    split at h
    · cases h
      rfl
    · cases h
  · rintro rfl
    exact dif_pos source.isValidUTF8

theorem readText_eq_ok_iff {read : Bytes → Except Unreadable ByteArray} {path : Bytes}
    {source : String} : readText read path = .ok source ↔ Holds read path source := by
  unfold readText Holds
  cases read path with
  | error e => simp
  | ok content =>
    rw [Except.ok.injEq, ← fromUTF8?_eq_some_iff]
    cases h : String.fromUTF8? content <;> simp [h]

-- ---------------------------------------------------------------------------
-- Answers
-- ---------------------------------------------------------------------------

variable {α : Type}

/-- The completion gives the result, written as `text` writes it, or reports the
diagnostic at the end of the standard error. -/
def Completion.Answers (c : Completion) (path : Bytes) (result : Except Diagnostic α)
    (text : α → String) : Prop :=
  match result with
  | .ok a => c.exit = 0 ∧ c.stdout = text a
  | .error d => c.exit = 1 ∧ c.stdout = "" ∧
      ∀ time, ∃ before, c.stderrText time = before ++ d.report (Text.display path) ++ "\n"

theorem answers_refused {o : Options} {d : Diagnostic} (h : d.cause.OfSource)
    (before : List Notice) (text : α → String) :
    (refused o before d).Answers o.path (.error d) text := by
  refine ⟨by simp [refused, h.1], rfl, fun time => ?_⟩
  refine ⟨.join (before.map (Notice.text time)), ?_⟩
  simp [refused, Completion.stderrText, Notice.text, String.join_append, String.append_assoc]

theorem answers_process_tokens {o : Options} (h : o.emit = .tokens) (source : String) :
    (process o source).Answers o.path (tokenize source) tokenLines := by
  cases ht : tokenize source with
  | error d =>
    obtain ⟨ls, rest, hstuck, -⟩ := exists_stuck ht
    unfold tokenize at ht
    simp only [process, ht]
    exact answers_refused hstuck.unfit.ofSource _ _
  | ok tokens =>
    unfold tokenize at ht
    simp only [process, ht, if_pos h]
    exact ⟨rfl, rfl⟩

theorem answers_process_program {o : Options} (h : o.emit ≠ .tokens) (source : String) :
    (process o source).Answers o.path (parseSource source) (programText o.emit) := by
  have hof : ∀ {d}, parseSource source = .error d → d.cause.OfSource := parseSource_error_ofSource
  cases ht : (Scan.ofSource source).result source with
  | error d =>
    have hp : parseSource source = .error d := by simp only [parseSource, tokenize, ht]
    rw [hp]
    simp only [process, ht]
    exact answers_refused (hof hp) _ _
  | ok tokens =>
    have hp : parseSource source = (Stream.ofTokens tokens source).parse.result := by
      simp only [parseSource, tokenize, ht]
    simp only [process, ht, if_neg h]
    cases hr : (Stream.ofTokens tokens source).parse.result with
    | error d =>
      rw [hr] at hp
      rw [hp]
      exact answers_refused (hof hp) _ _
    | ok p =>
      rw [hp, hr]
      exact ⟨rfl, rfl⟩

def Completion.AnswersFor (c : Completion) (o : Options) (source : String) : Prop :=
  match o.emit with
  | .tokens => c.Answers o.path (tokenize source) fun ts => .join (ts.map (·.listing ++ "\n"))
  | .ast => c.Answers o.path (parseSource source) Program.text
  | .tree => c.Answers o.path (parseSource source) Program.tree

theorem answersFor_process (o : Options) (source : String) :
    (process o source).AnswersFor o source := by
  unfold Completion.AnswersFor
  split
  next h => exact answers_process_tokens h source
  next h =>
    have hp := answers_process_program (o := o) (by simp [h]) source
    rwa [h] at hp
  next h =>
    have hp := answers_process_program (o := o) (by simp [h]) source
    have htree : programText .tree = Program.tree := funext Program.indented_outline
    rwa [h, htree] at hp

theorem Completion.Answers.exit_ne_two {c : Completion} {path : Bytes}
    {result : Except Diagnostic α} {text : α → String} (h : c.Answers path result text) :
    c.exit ≠ 2 := by
  cases result with
  | ok a => simp [h.1]
  | error d => simp [h.1]

theorem Completion.AnswersFor.exit_ne_two {c : Completion} {o : Options} {source : String}
    (h : c.AnswersFor o source) : c.exit ≠ 2 := by
  unfold Completion.AnswersFor at h
  split at h <;> exact h.exit_ne_two

def Completion.Agrees (c c' : Completion) : Prop := c.exit = c'.exit ∧ c.stdout = c'.stdout

theorem Completion.Answers.agrees {c c' : Completion} {path path' : Bytes}
    {result : Except Diagnostic α} {text : α → String} (h : c.Answers path result text)
    (h' : c'.Answers path' result text) : c.Agrees c' := by
  cases result with
  | ok a => exact ⟨h.1.trans h'.1.symm, h.2.trans h'.2.symm⟩
  | error d => exact ⟨h.1.trans h'.1.symm, h.2.1.trans h'.2.1.symm⟩

theorem Completion.AnswersFor.agrees {c c' : Completion} {o o' : Options} {source : String}
    (h : c.AnswersFor o source) (h' : c'.AnswersFor o' source) (he : o.emit = o'.emit) :
    c.Agrees c' := by
  unfold Completion.AnswersFor at h h'
  rw [← he] at h'
  cases hemit : o.emit <;> rw [hemit] at h h' <;> exact h.agrees h'

-- ---------------------------------------------------------------------------
-- Runs
-- ---------------------------------------------------------------------------

section
variable {args : List Bytes} {o : Options} {read : Bytes → Except Unreadable ByteArray}

theorem answersFor_run {source : String} (ho : Options.ofArgs args = .ok o)
    (h : Holds read o.path source) : (run read args).AnswersFor o source := by
  have hrun : run read args = process o source := by
    simp only [run, ho, readText_eq_ok_iff.2 h]
  rw [hrun]
  exact answersFor_process o source

theorem run_of_not_holds (ho : Options.ofArgs args = .ok o)
    (h : ¬∃ source, Holds read o.path source) :
    ∃ e, run read args = unreadable o.path e := by
  cases hr : readText read o.path with
  | ok source => exact absurd ⟨source, readText_eq_ok_iff.1 hr⟩ h
  | error e => exact ⟨e, by simp only [run, ho, hr]⟩

theorem exit_run_eq_two_iff (ho : Options.ofArgs args = .ok o) :
    (run read args).exit = 2 ↔ ¬∃ source, Holds read o.path source := by
  constructor
  · rintro hexit ⟨source, h⟩
    exact (answersFor_run ho h).exit_ne_two hexit
  · intro h
    obtain ⟨e, he⟩ := run_of_not_holds ho h
    rw [he]
    rfl

/-- Only the file and the kind to print matter to the answer. -/
theorem run_agrees {args' : List Bytes} {o' : Options} (ho : Options.ofArgs args = .ok o)
    (ho' : Options.ofArgs args' = .ok o') (hpath : o'.path = o.path) (hemit : o'.emit = o.emit) :
    (run read args').Agrees (run read args) := by
  by_cases h : ∃ source, Holds read o.path source
  · obtain ⟨source, h⟩ := h
    exact (answersFor_run ho' (hpath ▸ h)).agrees (answersFor_run ho h) hemit
  · obtain ⟨e, he⟩ := run_of_not_holds ho h
    obtain ⟨e', he'⟩ := run_of_not_holds ho' (hpath ▸ h)
    rw [he, he']
    exact ⟨rfl, rfl⟩

theorem exists_holds (ho : Options.ofArgs args = .ok o) (hexit : (run read args).exit = 0) :
    ∃ source, Holds read o.path source := by
  by_contra h
  rw [(exit_run_eq_two_iff ho).2 h] at hexit
  exact absurd hexit (by decide)

theorem exists_program {source : String} (ho : Options.ofArgs args = .ok o)
    (hemit : o.emit ≠ .tokens) (hexit : (run read args).exit = 0) (h : Holds read o.path source) :
    ∃ p, parseSource source = .ok p ∧
      (run read args).stdout = if o.emit = .tree then p.tree else p.text := by
  have ha := answersFor_run ho h
  unfold Completion.AnswersFor at ha
  cases hp : parseSource source with
  | error d =>
    rw [hp] at ha
    split at ha
    next htokens => exact absurd htokens hemit
    all_goals
      rw [ha.1] at hexit
      exact absurd hexit (by decide)
  | ok p =>
    rw [hp] at ha
    refine ⟨p, rfl, ?_⟩
    split at ha
    next htokens => exact absurd htokens hemit
    next hast => simpa [hast] using ha.2
    next htree => simpa [htree] using ha.2

theorem run_printed {read' : Bytes → Except Unreadable ByteArray} {args' : List Bytes}
    {o' : Options} (ho : Options.ofArgs args = .ok o) (hemit : o.emit = .ast)
    (hexit : (run read args).exit = 0) (ho' : Options.ofArgs args' = .ok o')
    (hemit' : o'.emit = .ast) (h' : Holds read' o'.path (run read args).stdout) :
    (run read' args').exit = 0 ∧ (run read' args').stdout = (run read args).stdout := by
  obtain ⟨source, h⟩ := exists_holds ho hexit
  obtain ⟨p, hp, hstdout⟩ := exists_program ho (by simp [hemit]) hexit h
  have hagain := answersFor_run ho' h'
  rw [hemit, if_neg (by decide)] at hstdout
  simp only [Completion.AnswersFor, hemit', hstdout, parseSource_text hp] at hagain
  rw [hstdout]
  exact hagain

theorem parseSource_eq_of_stdout_eq {read' : Bytes → Except Unreadable ByteArray}
    {args' : List Bytes} {o' : Options} {source source' : String}
    (ho : Options.ofArgs args = .ok o) (ho' : Options.ofArgs args' = .ok o')
    (hemit : o.emit ≠ .tokens) (he : o'.emit = o.emit) (hexit : (run read args).exit = 0)
    (hexit' : (run read' args').exit = 0) (h : Holds read o.path source)
    (h' : Holds read' o'.path source') (heq : (run read args).stdout = (run read' args').stdout) :
    parseSource source = parseSource source' := by
  obtain ⟨p, hp, hstdout⟩ := exists_program ho hemit hexit h
  obtain ⟨p', hp', hstdout'⟩ := exists_program ho' (he ▸ hemit) hexit' h'
  rw [hstdout, hstdout', he] at heq
  rw [hp, hp']
  split at heq
  · rw [Program.tree_inj heq]
  · rw [← parseSource_text hp, heq, parseSource_text hp']

end

/-- On accepted arguments the exit code is two exactly if the file has no text,
and the answer is otherwise that of the library: what is printed, or a
diagnostic and exit code one. A flag for the log that is added changes neither
the exit code nor what is printed if it is accepted, and it is accepted if it is
the first one and stands neither after two dashes nor before an awaited value.
A flag that is removed changes them neither, and what remains is accepted. A
program that was printed is printed again from its own text, and what is printed
for two programs differs. -/
theorem run_refines_library {args : List Bytes} {o : Options} (ho : Options.ofArgs args = .ok o)
    (read : Bytes → Except Unreadable ByteArray) :
    ((run read args).exit = 2 ↔ ¬∃ source, Holds read o.path source) ∧
    ((run read args).exit = 2 → (run read args).stdout = "") ∧
    (∀ source, Holds read o.path source → (run read args).AnswersFor o source) ∧
    (∀ (before after : List Bytes) (flag : Bytes) (o' : Options), args = before ++ after →
      flag ∈ [encode "--verbose", encode "-v"] →
      Options.ofArgs (before ++ flag :: after) = .ok o' →
      (run read (before ++ flag :: after)).Agrees (run read args)) ∧
    (∀ (before after : List Bytes) (flag : Bytes), args = before ++ after →
      flag ∈ [encode "--verbose", encode "-v"] → o.verbose = false → encode "--" ∉ before →
      .emit none ∉ Item.ofArgs before →
      Options.ofArgs (before ++ flag :: after) = .ok { o with verbose := true }) ∧
    (∀ (before after : List Bytes) (flag : Bytes), args = before ++ flag :: after →
      flag ∈ [encode "--verbose", encode "-v"] → encode "--" ∉ before →
      Options.ofArgs (before ++ after) = .ok { o with verbose := false } ∧
      (run read (before ++ after)).Agrees (run read args)) ∧
    (o.emit = .ast → (run read args).exit = 0 →
      ∀ (read' : Bytes → Except Unreadable ByteArray) (args' : List Bytes) (o' : Options),
        Options.ofArgs args' = .ok o' → o'.emit = .ast →
        Holds read' o'.path (run read args).stdout →
        (run read' args').exit = 0 ∧ (run read' args').stdout = (run read args).stdout) ∧
    (o.emit ≠ .tokens → (run read args).exit = 0 →
      ∀ (read' : Bytes → Except Unreadable ByteArray) (args' : List Bytes) (o' : Options),
        Options.ofArgs args' = .ok o' → o'.emit = o.emit → (run read' args').exit = 0 →
        (run read args).stdout = (run read' args').stdout →
        ∀ source source', Holds read o.path source → Holds read' o'.path source' →
          parseSource source = parseSource source') := by
  have hdashes : encode "--" = [dash, dash] := by decide +kernel
  refine ⟨exit_run_eq_two_iff ho, fun hexit => ?_, fun source h => answersFor_run ho h, ?_, ?_, ?_,
    ?_, ?_⟩
  · obtain ⟨e, he⟩ := run_of_not_holds ho ((exit_run_eq_two_iff ho).1 hexit)
    rw [he]
    rfl
  · rintro before after flag o' rfl hflag ho'
    obtain ⟨hpath, hemit⟩ := (isFlag_of_mem hflag).path_emit_eq ho ho'
    exact run_agrees ho ho' hpath hemit
  · rintro before after flag rfl hflag hverbose hd hn
    exact (isFlag_of_mem hflag).ofArgs_insert (hdashes ▸ hd) hn ho hverbose
  · rintro before after flag rfl hflag hd
    have hremove := (isFlag_of_mem hflag).ofArgs_remove (hdashes ▸ hd) ho
    exact ⟨hremove, run_agrees ho hremove rfl rfl⟩
  · intro hemit hexit read' args' o' ho' hemit' h'
    exact run_printed ho hemit hexit ho' hemit' h'
  · intro hemit hexit read' args' o' ho' he hexit' heq source source' h h'
    exact parseSource_eq_of_stdout_eq ho ho' hemit he hexit hexit' h h' heq

def oneFile (text : String) (path : Bytes) : Except Unreadable ByteArray :=
  if path = encode "f" then .ok text.toUTF8 else .error .missing

theorem run_refines_library_oneFile :
    ∃ o, Options.ofArgs [encode "f"] = .ok o ∧ o.emit = .ast ∧
      (run (oneFile "let x=1//") [encode "f"]).exit = 0 ∧
      (run (oneFile "let x=1//") [encode "f", encode "-v"]).Agrees
        (run (oneFile "let x=1//") [encode "f"]) ∧
      (run (oneFile "let x=1//") [encode "f"]).Agrees
        (run (oneFile "let x=1//") [encode "-v", encode "f"]) ∧
      (run (oneFile (run (oneFile "let x=1//") [encode "f"]).stdout) [encode "f"]).stdout =
        (run (oneFile "let x=1//") [encode "f"]).stdout ∧
      (run (oneFile "let x=1//") [encode "f", encode "-e", encode "tree"]).stdout =
        "Program \x7b\n    bindings: [\n        LetBinding \x7b\n            name: \"x\",\n"
          ++ "            args: [],\n            body: Num(\n                1,\n"
          ++ "            ),\n        \x7d,\n    ],\n\x7d\n" ∧
      (run (oneFile "let x=1//") [encode "f", encode "-e", encode "tokens"]).stdout =
        "1:1 NEWLINE \"\\n\"\n1:1 KEYWORD \"let\"\n1:5 NAME \"x\"\n1:6 SYM \"=\"\n"
          ++ "1:7 NUM \"1\"\n1:10 EOF \"EOF\"\n" ∧
      (run (oneFile "let x=1//") [encode "g"]).exit = 2 := by
  have ho : Options.ofArgs [encode "f"] = .ok ⟨encode "f", .ast, false⟩ :=
    eq_ok_of_toOption (by decide +kernel)
  have hv : Options.ofArgs [encode "f", encode "-v"] = .ok ⟨encode "f", .ast, true⟩ :=
    eq_ok_of_toOption (by decide +kernel)
  have hfirst : Options.ofArgs [encode "-v", encode "f"] = .ok ⟨encode "f", .ast, true⟩ :=
    eq_ok_of_toOption (by decide +kernel)
  have htree : Options.ofArgs [encode "f", encode "-e", encode "tree"]
      = .ok ⟨encode "f", .tree, false⟩ := eq_ok_of_toOption (by decide +kernel)
  have htokens : Options.ofArgs [encode "f", encode "-e", encode "tokens"]
      = .ok ⟨encode "f", .tokens, false⟩ := eq_ok_of_toOption (by decide +kernel)
  have hg : Options.ofArgs [encode "g"] = .ok ⟨encode "g", .ast, false⟩ :=
    eq_ok_of_toOption (by decide +kernel)
  have hp : parseSource "let x=1//" = .ok ⟨[⟨"x", [], .num 1⟩]⟩ :=
    eq_ok_of_toOption (by decide +kernel)
  obtain ⟨tokens, ht⟩ : ∃ tokens, tokenize "let x=1//" = .ok tokens :=
    exists_eq_ok (by decide +kernel)
  obtain ⟨-, -, -, hadd, -, -, hagain, -⟩ := run_refines_library ho (oneFile "let x=1//")
  have hexit : (run (oneFile "let x=1//") [encode "f"]).exit = 0 := by decide +kernel
  refine ⟨_, ho, rfl, hexit, ?_, ?_, ?_, ?_, ?_, ?_⟩
  · exact hadd [encode "f"] [] (encode "-v") _ rfl (by decide +kernel) hv
  · obtain ⟨-, -, -, -, -, hremove, -⟩ := run_refines_library hfirst (oneFile "let x=1//")
    exact (hremove [] [encode "f"] (encode "-v") rfl (by decide +kernel) (by decide)).2
  · exact (hagain rfl hexit (oneFile _) _ _ ho rfl rfl).2
  · obtain ⟨-, -, hanswer, -⟩ := run_refines_library htree (oneFile "let x=1//")
    have hprogram := hanswer "let x=1//" rfl
    simp only [Completion.AnswersFor, hp, Completion.Answers] at hprogram
    rw [hprogram.2]
    decide +kernel
  · obtain ⟨-, -, hanswer, -⟩ := run_refines_library htokens (oneFile "let x=1//")
    have hlisting := hanswer "let x=1//" rfl
    simp only [Completion.AnswersFor, Completion.Answers, ht] at hlisting
    have hlines : (tokenize "let x=1//").toOption.map tokenLines = some (tokenLines tokens) :=
      congrArg (·.toOption.map tokenLines) ht
    rw [hlisting.2]
    exact Option.some.inj (hlines.symm.trans (by decide +kernel))
  · refine (run_refines_library hg _).1.2 ?_
    rintro ⟨source, h⟩
    cases h

end LetIf
