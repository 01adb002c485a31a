import LetIf.Text.Blank
import LetIf.Text.Quoted
import LetIf.Text.Utf8

/-!
# Command-line options

Arguments are byte strings. They are first sorted, from the left, into items:
paths, occurrences of an option, and requests that stop the command. The items
are then checked. The first item that stops the command decides, and only if
there is none are the options checked as a whole.
-/

namespace LetIf

open Text (Bytes encode)

inductive Emit where
  | ast
  | tree
  | tokens
  deriving DecidableEq, Repr

inductive Misuse where
  /-- An option that does not exist, or a second path. -/
  | unknownArgument
  | missingPath
  | missingValue
  | invalidValue
  | repeatedOption
  deriving DecidableEq, Repr

inductive Stop where
  | help
  | version
  | misuse (misuse : Misuse)
  | unknownEmit (value : String)
  deriving DecidableEq, Repr

namespace Emit

def all : List Emit := [.ast, .tree, .tokens]

def spelling : Emit → String
  | .ast => "ast"
  | .tree => "tree"
  | .tokens => "tokens"

/-- Reads a spelling, without regard to white space around it. -/
def ofText (text : String) : Except Stop Emit :=
  let trimmed := String.ofList (Text.trim text.toList)
  match all.find? (·.spelling = trimmed) with
  | some emit => .ok emit
  | none => .error (.unknownEmit trimmed)

def unknownMessage (value : String) : String :=
  "unknown emit kind " ++ Text.quote value ++ ", expected one of ast, tree, tokens"

end Emit

structure Options where
  path : Bytes
  emit : Emit
  verbose : Bool
  deriving DecidableEq, Repr

inductive Item where
  | path (bytes : Bytes)
  /-- An occurrence of the option, with its value if it has one. -/
  | emit (value : Option Bytes)
  | verbose
  | help
  | version
  | unknown
  deriving DecidableEq, Repr

/-- The items of one argument that begins with a dash, and whether the
argument ends in an option whose value is still to come. -/
structure Cluster where
  items : List Item
  awaits : Bool := false
  deriving DecidableEq, Repr

def dash : UInt8 := '-'.toUInt8

def equalsSign : UInt8 := '='.toUInt8

namespace Cluster

/-- Two dashes or more, a name and perhaps a value after an equals sign.
Further equals signs before the value do not belong to it. -/
def long (arg : Bytes) : Cluster :=
  let body := arg.dropWhile (· = dash)
  let name := body.takeWhile (· ≠ equalsSign)
  let value := body.dropWhile (· ≠ equalsSign)
  if name = encode "emit" then
    if value.isEmpty then ⟨[], true⟩
    else { items := [.emit (some (value.dropWhile (· = equalsSign)))] }
  else if name = encode "verbose" then { items := [.verbose] }
  else if name = encode "help" then { items := [.help] }
  else if name = encode "version" then { items := [.version] }
  else { items := [.unknown] }

/-- One dash and letters. The letter that takes a value takes what follows it,
without leading equals signs. -/
def short : Bytes → Cluster
  | [] => { items := [] }
  | b :: bs =>
    if b = 'v'.toUInt8 then
      let rest := short bs
      { rest with items := .verbose :: rest.items }
    else if b = 'h'.toUInt8 then { items := [.help] }
    else if b = 'V'.toUInt8 then { items := [.version] }
    else if b = 'e'.toUInt8 then
      if bs.isEmpty then ⟨[], true⟩
      else { items := [.emit (some (bs.dropWhile (· = equalsSign)))] }
    else { items := [.unknown] }

/-- The cluster of an argument, unless it is a plain one. A lone dash and the
empty argument are plain. -/
def ofArg? (arg : Bytes) : Option Cluster :=
  match arg with
  | b :: c :: rest =>
    if b ≠ dash then none
    else if c = dash then some (long arg)
    else some (short (c :: rest))
  | _ => none

end Cluster

/-- Sorts arguments into items. Two dashes alone make every later argument a
path. An option that awaits its value takes the next argument only if that one
is plain. -/
def Item.ofArgs : List Bytes → List Item
  | [] => []
  | arg :: rest =>
    if arg = [dash, dash] then rest.map .path
    else
      match Cluster.ofArg? arg with
      | none => .path arg :: ofArgs rest
      | some cluster =>
        cluster.items ++
          if cluster.awaits then
            match rest with
            | [] => [.emit none]
            | value :: later =>
              if (Cluster.ofArg? value).isNone then .emit (some value) :: ofArgs later
              else .emit none :: ofArgs (value :: later)
          else ofArgs rest

namespace Options

def stop? (pathSeen : Bool) : List Item → Option Stop
  | [] => none
  | .help :: _ => some .help
  | .version :: _ => some .version
  | .unknown :: _ => some (.misuse .unknownArgument)
  | .path _ :: rest =>
    if pathSeen then some (.misuse .unknownArgument) else stop? true rest
  | .emit _ :: rest | .verbose :: rest => stop? pathSeen rest

def paths (items : List Item) : List Bytes :=
  items.filterMap fun
    | .path bytes => some bytes
    | _ => none

def emits (items : List Item) : List (Option Bytes) :=
  items.filterMap fun
    | .emit value => some value
    | _ => none

def isSpelling (value : Bytes) : Bool :=
  Emit.all.any fun emit => encode emit.spelling = value

/-- What to print for the value of the option, the source text without one. -/
def choice : Option Bytes → Except Stop Emit
  | none => .ok .ast
  | some value => Emit.ofText (Text.display value)

end Options

structure Checked where
  path : Bytes
  value : Option Bytes
  verbose : Bool

namespace Checked

def ofItems (items : List Item) : Except Stop Checked :=
  match Options.stop? false items, Options.paths items with
  | some stop, _ => .error stop
  | none, [] => .error (.misuse .missingPath)
  | none, path :: _ =>
    let given := Options.emits items
    let values := given.filterMap id
    if given ≠ [] ∧ values = [] then .error (.misuse .missingValue)
    else if !values.all Options.isSpelling then .error (.misuse .invalidValue)
    else if 1 < given.length ∨ 1 < items.count .verbose then .error (.misuse .repeatedOption)
    else .ok ⟨path, values.head?, items.count .verbose ≠ 0⟩

def options (c : Checked) : Except Stop Options :=
  (Options.choice c.value).map (⟨c.path, ·, c.verbose⟩)

end Checked

namespace Options

def ofItems (items : List Item) : Except Stop Options :=
  (Checked.ofItems items).bind Checked.options

def ofArgs (args : List Bytes) : Except Stop Options :=
  ofItems (Item.ofArgs args)

end Options

end LetIf
