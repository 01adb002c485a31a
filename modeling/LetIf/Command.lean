import LetIf.Folder
import LetIf.Options
import LetIf.Parse

/-!
# The command

Given the arguments and a way to read files, what the command prints is a value:
the exit code, the standard output, and notices for the standard error. How long
a stage took is left open in the notices.
-/

namespace LetIf

open Text (Bytes)

inductive Stage where
  | tokenizing
  | parsing
  deriving DecidableEq, Repr

def Stage.finished : Stage → String
  | .tokenizing => "Tokenized"
  | .parsing => "Parsed"

inductive Notice where
  | line (text : String)
  /-- A stage is finished, and took a time. -/
  | elapsed (stage : Stage)
  deriving DecidableEq, Repr

def Notice.text (time : Stage → String) : Notice → String
  | .line text => text ++ "\n"
  | .elapsed stage =>
    "[" ++ Level.info.label ++ "] " ++ stage.finished ++ " in " ++ time stage ++ "\n"

structure Completion where
  exit : UInt32
  stdout : String
  stderr : List Notice
  deriving DecidableEq, Repr

def Completion.stderrText (time : Stage → String) (c : Completion) : String :=
  .join (c.stderr.map (Notice.text time))

namespace Command

def versionText : String := "letlang 0.1.0\n"

def helpText : String :=
  .join <| List.map (· ++ "\n")
    ["letlang 0.1.0",
     "Parses let-bindings and if-expressions and reports located syntax errors",
     "",
     "USAGE:",
     "    letlang [FLAGS] [OPTIONS] <source-file>",
     "",
     "FLAGS:",
     "    -h, --help       Prints help information",
     "    -V, --version    Prints version information",
     "    -v, --verbose    log parser progress to stderr",
     "",
     "OPTIONS:",
     "    -e, --emit <kind>    what to print for a file that parses [possible values: ast, tree, tokens]",
     "",
     "ARGS:",
     "    <source-file>    "]

def misuseText : Misuse → String
  | .unknownArgument => "error: unknown or superfluous argument"
  | .missingPath => "error: the source file is missing"
  | .missingValue => "error: the kind to emit is missing"
  | .invalidValue => "error: the kind to emit is one of ast, tree, tokens"
  | .repeatedOption => "error: an option was given more than once"

def stopped : Stop → Completion
  | .help => ⟨0, helpText, []⟩
  | .version => ⟨0, versionText, []⟩
  | .misuse m => ⟨1, "", [.line (misuseText m)]⟩
  | .unknownEmit value => ⟨2, "", [.line (Emit.unknownMessage value)]⟩

def unreadable (path : Bytes) (e : Unreadable) : Completion :=
  ⟨2, "", [.line ("Failed to read " ++ Text.display path ++ ": " ++ e.reason)]⟩

def bound (o : Options) : Option Level :=
  if o.verbose then some .debug else some .warn

def logged (o : Options) (events : List Event) : List Notice :=
  (records (bound o) events).map .line

def finished (o : Options) (stage : Stage) : List Notice :=
  if Level.info.within (bound o) then [.elapsed stage] else []

def refused (o : Options) (before : List Notice) (d : Diagnostic) : Completion :=
  ⟨if d.cause.isInternal then 2 else 1, "", before ++ [.line (d.report (Text.display o.path))]⟩

def tokenLines (tokens : List Token) : String :=
  .join (tokens.map (·.listing ++ "\n"))

def programText (emit : Emit) (p : Program) : String :=
  match emit with
  | .tree => p.outline.indented 0 ++ "\n"
  | _ => p.text

def process (o : Options) (source : String) : Completion :=
  let scan := Scan.ofSource source
  match scan.result source with
  | .error d => refused o (logged o scan.events) d
  | .ok tokens =>
    let scanned := logged o scan.events ++ finished o .tokenizing
    if o.emit = .tokens then ⟨0, tokenLines tokens, scanned⟩
    else
      let outcome := (Stream.ofTokens tokens source).parse
      let parsed := scanned ++ logged o outcome.events
      match outcome.result with
      | .error d => refused o parsed d
      | .ok p => ⟨0, programText o.emit p, parsed ++ finished o .parsing⟩

def readText (read : Bytes → Except Unreadable ByteArray) (path : Bytes) :
    Except Unreadable String :=
  match read path with
  | .error e => .error e
  | .ok content =>
    match String.fromUTF8? content with
    | none => .error .notText
    | some source => .ok source

/-- Runs the command on its arguments, given how files are read. -/
def run (read : Bytes → Except Unreadable ByteArray) (args : List Bytes) : Completion :=
  match Options.ofArgs args with
  | .error stop => stopped stop
  | .ok o =>
    match readText read o.path with
    | .error e => unreadable o.path e
    | .ok source => process o source

end Command

end LetIf
