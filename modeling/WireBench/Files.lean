import WireBench.Bytes
import WireBench.Text.Split

/-!
# Files

What a path leads to, and a tree of files in which paths are followed step by step: only a directory
can be left upwards or entered, and a path that ends in a slash or a dot must lead to a directory.
-/

namespace WireBench

/-- What a path leads to: no regular file, a regular file that cannot be read, or the content of
one. -/
inductive FileStatus where
  | noFile
  | unreadable (reason : String)
  | content (bytes : Bytes)
  deriving DecidableEq

abbrev FileSystem := Bytes → FileStatus

inductive FileNode where
  | directory
  | device
  | unreadable (reason : String)
  | regular (bytes : Bytes)
  deriving DecidableEq

/-- A tree of files: what stands at which place, a place being the names of the directories that
lead to it. Every directory above a place is there as well, and of two entries for one place the
first one counts. -/
structure FileTree where
  entries : List (List Bytes × FileNode)

namespace FileTree

def pieces (path : Bytes) : List Bytes :=
  Text.splitWhere (· == 47) path

/-- The place that a piece of a path leads to from a directory: the empty piece and the dot stay,
two dots lead up, and any other piece is a name in the directory. There is nothing above the top. -/
def step (place : List Bytes) (piece : Bytes) : List Bytes :=
  if piece = [] ∨ piece = [46] then place
  else if piece = [46, 46] then place.dropLast
  else place ++ [piece]

def put (tree : FileTree) (place : List Bytes) (node : FileNode) : FileTree :=
  ⟨(place, node) :: tree.entries⟩

def putDirectories (tree : FileTree) (place : List Bytes) : List Bytes → FileTree
  | [] => tree.put place .directory
  | piece :: pieces => (tree.put place .directory).putDirectories (step place piece) pieces

/-- The tree with a regular file where a path leads from the directory at `here`, and with the
directories on the way. -/
def putFile (tree : FileTree) (here : List Bytes) (path content : Bytes) : FileTree :=
  (tree.putDirectories here (pieces path).dropLast).put ((pieces path).foldl step here)
    (.regular content)

def at? (tree : FileTree) (place : List Bytes) : Option FileNode :=
  match tree.entries.find? fun entry => entry.1 == place with
  | some entry => some entry.2
  | none =>
    if tree.entries.any (fun entry => place.isPrefixOf entry.1) || place == [] then some .directory
    else none

/-- Follows the pieces of a path from a place; every place that is left must be a directory. -/
def follow (tree : FileTree) (place : List Bytes) : List Bytes → Option (List Bytes)
  | [] => some place
  | piece :: pieces =>
    if tree.at? place = some .directory then tree.follow (step place piece) pieces else none

def statusOf : FileNode → FileStatus
  | .directory => .noFile
  | .device => .noFile
  | .unreadable reason => .unreadable reason
  | .regular bytes => .content bytes

def pathLimit : Nat := 4095

/-- What a path leads to from the directory at `here`; a path that starts with a slash leads from
the top. The empty path leads nowhere, nor does one that is too long. -/
def status (tree : FileTree) (here : List Bytes) : FileSystem := fun path =>
  if path = [] ∨ pathLimit < path.length then .noFile
  else
    let start := if path.head? = some 47 then [] else here
    match (tree.follow start (pieces path)).bind tree.at? with
    | some node => statusOf node
    | none => .noFile

end FileTree

end WireBench
