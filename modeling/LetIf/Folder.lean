import LetIf.Text.Utf8

/-!
# Files below a directory

A folder is the working directory of a command: a list of files, each under
the names that lead to it. A path is resolved name by name. Of what lies
outside the folder only directories can be named, by stepping up or by
starting at the root.
-/

namespace LetIf

open Text (Bytes encode)

inductive Unreadable where
  | missing
  | isDirectory
  | notDirectory
  | notText
  /-- Any other reason, in the words of the system. -/
  | other (reason : String)
  deriving DecidableEq, Repr

def Unreadable.reason : Unreadable → String
  | .missing => "No such file or directory (os error 2)"
  | .isDirectory => "Is a directory (os error 21)"
  | .notDirectory => "Not a directory (os error 20)"
  | .notText => "stream did not contain valid UTF-8"
  | .other reason => reason

structure Folder where
  files : List (List Bytes × ByteArray)

namespace Folder

def slash : UInt8 := '/'.toUInt8

/-- The names in a path. Slashes at an end or side by side leave empty ones. -/
def names (path : Bytes) : List Bytes := path.splitOn slash

/-- What a path leads to. A directory of the folder is known by the names that
lead to it. -/
inductive Node where
  | file (content : ByteArray)
  | directory (path : List Bytes)
  | outside

def entry? (f : Folder) (path : List Bytes) : Option Node :=
  match f.files.lookup path with
  | some content => some (.file content)
  | none => if f.files.any (path.isPrefixOf ·.1) then some (.directory path) else none

def walk (f : Folder) : Node → List Bytes → Except Unreadable Node
  | node, [] => .ok node
  | .file _, _ :: _ => .error .notDirectory
  | .directory path, name :: rest =>
    if name = [] ∨ name = encode "." then walk f (.directory path) rest
    else if name = encode ".." then
      walk f (if path = [] then .outside else .directory path.dropLast) rest
    else
      match f.entry? (path ++ [name]) with
      | none => .error .missing
      | some node => walk f node rest
  | .outside, name :: rest =>
    if name = [] ∨ name = encode "." ∨ name = encode ".." then walk f .outside rest
    else .error .missing

/-- The content of the file that a path leads to. The empty path leads
nowhere. -/
def read (f : Folder) (path : Bytes) : Except Unreadable ByteArray :=
  if path = [] then .error .missing
  else
    let start := if path.head? = some slash then .outside else .directory []
    match f.walk start (names path) with
    | .error e => .error e
    | .ok (.file content) => .ok content
    | .ok _ => .error .isDirectory

end Folder

end LetIf
