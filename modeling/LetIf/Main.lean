import LetIf.Command
import LetIf.Duration

/-!
# The command line

Reads the file that the arguments name, runs the command and prints what it
gives.
-/

namespace LetIf.Main

open LetIf.Text (Bytes encode)

/-- The number of a system error, which may be reported negated. -/
def errorNumber (code : UInt32) : Nat :=
  if code.toNat < 0x80000000 then code.toNat else 0x100000000 - code.toNat

def unreadable (e : IO.Error) : Unreadable :=
  match e with
  | .noFileOrDirectory .. => .missing
  | .inappropriateType _ code _ => if errorNumber code = 20 then .notDirectory else .isDirectory
  | e => .other (toString e)

def readFile (path : Bytes) : IO (Except Unreadable ByteArray) := do
  try
    return .ok (← IO.FS.readBinFile (Text.display path))
  catch e =>
    return .error (unreadable e)

def timed {α : Type} (action : Unit → α) : IO (α × Nat) := do
  let start ← IO.monoNanosNow
  let value ← IO.lazyPure action
  return (value, (← IO.monoNanosNow) - start)

def times (source : String) : IO (Stage → String) := do
  let (tokens, tokenizing) ← timed fun _ => tokenize source
  let (_, parsing) ← timed fun _ => (Stream.ofTokens (tokens.toOption.getD []) source).parse
  return fun
    | .tokenizing => Duration.text tokenizing
    | .parsing => Duration.text parsing

end LetIf.Main

open LetIf in
def main (args : List String) : IO UInt32 := do
  let args := args.map Text.encode
  let content ← match Options.ofArgs args with
    | .ok o => Main.readFile o.path
    | .error _ => pure (.error .missing)
  let source := match content with
    | .ok bytes => (String.fromUTF8? bytes).getD ""
    | .error _ => ""
  let times ← Main.times source
  let completion := Command.run (fun _ => content) args
  IO.print completion.stdout
  IO.eprint (completion.stderrText times)
  return completion.exit
