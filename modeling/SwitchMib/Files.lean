import SwitchMib.AgentError
import SwitchMib.Snmp.Value
import SwitchMib.Text.Blank

/-!
# Files

* `Path.parent`, `Path.join`: the directory of a file, and a name taken from there.
* `FileTree`: the files and directories below a working directory.
* `FileTree.read`: the octets of a file, or why there are none.
* `FileTree.readText`: the text of a file.
-/

namespace SwitchMib
set_option autoImplicit false

/-! ## Paths -/

namespace Path

/-- Drops the parts at the end of a path that name nothing: empty ones and single points. -/
def trimParts (parts : List String) : List String :=
  (parts.reverse.dropWhile fun part => part == "" || part == ".").reverse

/-- Drops such parts, but not a point that begins a relative path. -/
def trimRelative : List String → List String
  | [] => []
  | first :: rest =>
    match first, trimParts rest with
    | "", [] => []
    | first, rest => first :: rest

/-- The directory that holds the last named part of a path. -/
def parent? (path : String) : Option String :=
  match Text.split '/' path with
  | "" :: rest@(_ :: _) =>
    match trimParts rest with
    | [] => none
    | named => some ("/" ++ "/".intercalate (trimParts named.dropLast))
  | parts =>
    match trimRelative parts with
    | [] => none
    | [_] => some ""
    | named => some ("/".intercalate (trimRelative named.dropLast))

/-- The directory of a path, or the working directory. -/
def parent (path : String) : String := (parent? path).getD "."

/-- A path taken from a directory. An absolute one stays as it is. -/
def join (base path : String) : String :=
  if path.toList.head? = some '/' then path
  else if base = "" ∨ base.toList.getLast? = some '/' then base ++ path
  else base ++ "/" ++ path

end Path

/-! ## Trees -/

inductive FileEntry where
  | directory
  | file (bytes : List UInt8)
  deriving DecidableEq

/-- The entries below a working directory, by the names on the way to them. -/
structure FileTree where
  entries : List (List String × FileEntry)

namespace FileTree

/-- A working directory without entries. -/
def empty : FileTree := ⟨[]⟩

/-- The directories on the way to a place, the place itself left out. -/
def leads (place : List String) : List (List String) :=
  (List.range place.length).map fun n => place.take n

/-- Adds an entry with the directories on the way to it. -/
def add (tree : FileTree) (path : String) (entry : FileEntry) : FileTree :=
  let place := (Text.split '/' path).filter fun part => part != "" && part != "."
  ⟨(place, entry) :: (leads place).map (·, .directory) ++ tree.entries⟩

def at? (tree : FileTree) (place : List String) : Option FileEntry :=
  if place.isEmpty then some .directory else tree.entries.lookup place

/-- The directory above a place. Above the working directory there is no place of this tree. -/
def above : Option (List String) → Option (List String)
  | none | some [] => none
  | some place => some place.dropLast

/-- Follows the parts of a path from a directory. Outside of this tree there are directories, but
nothing in them has a name. -/
def follow (tree : FileTree) : Option (List String) → List String → Except FileFault FileEntry
  | _, [] => .ok .directory
  | here, part :: rest =>
    if part = "" ∨ part = "." then follow tree here rest
    else if part = ".." then follow tree (above here) rest
    else
      match here with
      | none => .error .notFound
      | some here =>
        match tree.at? (here ++ [part]) with
        | none => .error .notFound
        | some .directory => follow tree (some (here ++ [part])) rest
        | some (.file bytes) => if rest.isEmpty then .ok (.file bytes) else .error .notDirectory

def read (tree : FileTree) (path : String) : Except FileFault (List UInt8) :=
  let start := if path.toList.head? = some '/' then none else some []
  if path = "" then .error .notFound
  else
    match tree.follow start (Text.split '/' path) with
    | .error fault => .error fault
    | .ok .directory => .error .isDirectory
    | .ok (.file bytes) => .ok bytes

def textOf (bytes : List UInt8) : Except FileFault String :=
  match Snmp.utf8Text? bytes with
  | some s => .ok s
  | none => .error .notText

def readText (tree : FileTree) (path : String) : Except FileFault String :=
  tree.read path >>= textOf

end FileTree

end SwitchMib
