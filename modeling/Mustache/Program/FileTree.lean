import Mustache.Text.Utf8

/-! Reading a template: what can go wrong, and a tree of files held in memory that answers paths
in the way a file system does. Nothing in the tree is denied, and nothing is known of what lies
outside. -/
namespace Mustache.Program

/-- Why a template could not be read. -/
inductive ReadError where
  | missing
  | denied
  | notText
  /-- Any other reason, in the system's words. -/
  | failed (reason : Text)
  deriving DecidableEq, Repr

/-- The wording of an error on a path. -/
def ReadError.message (path : Text) : ReadError → Text
  | .missing => "cannot find template '".toList ++ path ++ "'".toList
  | .denied => "no permission to read template '".toList ++ path ++ "'".toList
  | .notText => "template '".toList ++ path ++ "' is not valid UTF-8".toList
  | .failed reason => "cannot read template '".toList ++ path ++ "': ".toList ++ reason

/-- The text of a file's bytes. -/
def decode (bytes : List UInt8) : Except ReadError Text :=
  match Text.ofBytes? bytes with
  | some t => .ok t
  | none => .error .notText

/-- The text that a path leads to, given a way to get at bytes. -/
def readText (system : Text → Except ReadError (List UInt8)) (path : Text) :
    Except ReadError Text := do
  decode (← system path)

/-- The path leads to a directory. -/
def ReadError.isDirectory : ReadError := .failed "Is a directory (os error 21)".toList

/-- The path goes on below a plain file. -/
def ReadError.notDirectory : ReadError := .failed "Not a directory (os error 20)".toList

/-- The path, or a name on it, is too long. -/
def ReadError.nameTooLong : ReadError := .failed "File name too long (os error 36)".toList

/-- What stands at the end of a path. -/
inductive Node where
  | file (bytes : List UInt8)
  | directory
  deriving DecidableEq, Repr

/-- A tree of files, as the paths of its files and directories. The directories on the way to an
entry exist without an entry of their own. -/
structure FileTree where
  entries : List (List Text × Node)
  deriving Repr

namespace FileTree

/-- The names on a path, given the name under way, newest character first. -/
def namesFrom (name : Text) : Text → List Text
  | [] => [name.reverse]
  | c :: rest => if c == '/' then name.reverse :: namesFrom [] rest else namesFrom (c :: name) rest

/-- The names on a path, between its slashes. -/
def names (path : Text) : List Text := namesFrom [] path

/-- A name that leads from a directory to the directory itself. -/
def isHere (name : Text) : Bool := name.isEmpty || name == ['.']

/-- The tree of the given paths. -/
def ofList (files : List (Text × Node)) : FileTree :=
  ⟨files.map fun (path, node) => ((names path).filter (!isHere ·), node)⟩

/-- What stands at the end of a list of names. -/
def find? (tree : FileTree) (place : List Text) : Option Node :=
  match tree.entries.find? (·.1 == place) with
  | some (_, node) => some node
  | none =>
    if place.isEmpty || tree.entries.any (place.isPrefixOf ·.1) then some .directory else none

/-- The longest name, in bytes. -/
def nameLimit : Nat := 255

/-- The longest path, in bytes. -/
def pathLimit : Nat := 4095

/-- The name that leads from a directory to the one that holds it. -/
def above : Text := ['.', '.']

/-- Follow names from a directory outside the tree. Of what lies there only the directories that
hold the tree are known. -/
def walkOutside : List Text → Except ReadError Node
  | [] => .ok .directory
  | name :: later =>
    if isHere name || name == above then walkOutside later
    else if nameLimit < Text.byteSize name then .error .nameTooLong
    else .error .missing

/-- Follow names from a place of the tree. Only a directory can be left by a name, also by one
that leads back to it. -/
def walk (tree : FileTree) (place : List Text) : List Text → Except ReadError Node
  | [] =>
    match tree.find? place with
    | some node => .ok node
    | none => .error .missing
  | name :: later =>
    match tree.find? place with
    | none => .error .missing
    | some (.file _) => .error .notDirectory
    | some .directory =>
      if isHere name then walk tree place later
      else if name == above then
        if place.isEmpty then walkOutside later else walk tree place.dropLast later
      else if nameLimit < Text.byteSize name then .error .nameTooLong
      else walk tree (place ++ [name]) later

/-- What a path leads to. A path that starts with a slash starts outside the tree, and any other
at its top. -/
def resolve (tree : FileTree) (path : Text) : Except ReadError Node :=
  if path.head? == some '/' then walkOutside (names path) else walk tree [] (names path)

/-- The bytes of the file that a path leads to; an empty path leads nowhere. -/
def bytes (tree : FileTree) (path : Text) : Except ReadError (List UInt8) :=
  if path.isEmpty then .error .missing
  else if pathLimit < Text.byteSize path then .error .nameTooLong
  else
    match tree.resolve path with
    | .ok (.file bytes) => .ok bytes
    | .ok .directory => .error .isDirectory
    | .error e => .error e

/-- The text of the file that a path leads to. -/
def read (tree : FileTree) : Text → Except ReadError Text := readText tree.bytes

end FileTree
end Mustache.Program
