import FleetCatalog.Fields
import FleetCatalog.Text.Split
/-!
# The host

Environment variables, and the files in and around a working directory. A path is followed part
by part, so that it leads nowhere if one of the directories on the way is missing. Directories
above the working directory exist, but nothing stands in them unless it was put there.
-/
namespace FleetCatalog

/-- What stands at a place. -/
inductive FileNode
  | directory
  | file (bytes : ByteArray)

/-- The way to a place: so many directories up from the working directory, then down by names. -/
structure Place where
  up : Nat := 0
  names : List String := []
  deriving DecidableEq

namespace Place

/-- The directory that holds a place. -/
def parent (p : Place) : Place :=
  if p.names = [] then { p with up := p.up + 1 } else { p with names := p.names.dropLast }

/-- The place of a name in a directory. -/
def child (p : Place) (name : String) : Place := { p with names := p.names ++ [name] }

end Place

/-- The surroundings from which settings are read. -/
structure Host where
  /-- Files and directories by their place. -/
  files : List (Place × FileNode) := []
  /-- Environment variables in the order in which they are enumerated. -/
  environment : List (String × String) := []

namespace Host

/-- What reading at a path gives. -/
inductive Access
  | contents (bytes : ByteArray)
  | missing
  | unreadable (reason : String)

/-- How many bytes the name of a file has at most. -/
def longestName : Nat := 255

/-- How many bytes a path has at most. -/
def longestPath : Nat := 4095

/-- The parts of a path between its slashes. -/
def parts (path : String) : List String := (Text.splitAt '/' path.toList).map String.ofList

/-- A part that stays where it is. -/
def Stays (part : String) : Prop := part = "" ∨ part = "."

instance (part : String) : Decidable (Stays part) := inferInstanceAs (Decidable (_ ∨ _))

/-- Lays a node at the end of a way that starts at a place, and directories along the way. -/
def lay (node : FileNode) (p : Place) :
    List String → List (Place × FileNode) → List (Place × FileNode)
  | [], files => files
  | c :: rest, files =>
    if Stays c then lay node p rest files
    else if c = ".." then lay node p.parent rest files
    else
      let here := if rest.isEmpty then node else .directory
      lay node (p.child c) rest (Fields.put (p.child c) here files)

/-- Puts a node at a path, in the place of what stood there. -/
def put (path : String) (node : FileNode) (h : Host) : Host :=
  { h with files := lay node {} (parts path) h.files }

/-- Follows the parts of a path from a directory. -/
def follow (h : Host) (p : Place) : List String → Access
  | [] => .unreadable "is a directory"
  | c :: rest =>
    if Stays c then h.follow p rest
    else if c = ".." then h.follow p.parent rest
    else if longestName < c.utf8ByteSize then .unreadable "name too long"
    else
      match Fields.get? (p.child c) h.files with
      | none => .missing
      | some .directory => h.follow (p.child c) rest
      | some (.file bytes) =>
        if rest.isEmpty then .contents bytes else .unreadable "not a directory"

/-- Reads the file at a path. A path that starts with a slash leads away from the working directory
to where no file is known. No path holds the null character. -/
def read (h : Host) (path : String) : Access :=
  if '\x00' ∈ path.toList then .unreadable "not a path"
  else if longestPath < path.utf8ByteSize then .unreadable "path too long"
  else if path = "" then .missing
  else if path.startsWith "/" then ({} : Host).follow {} (parts path)
  else h.follow {} (parts path)

end Host
end FleetCatalog
