import DocStore.Failure
import DocStore.FilePath

/-!
# File trees

Directories and files below a root, with a working directory. Every entry is listed under the names
that lead to it from the root.

* `FileTree.locate` follows a path; `FileTree.isDirectory`, `FileTree.exists?` and `FileTree.read`
  ask what it leads to.
* `FileTree.makeDirectory` and `FileTree.touch` make one directory and one file; they change nothing
  where they fail. Both `FileTree.put` an entry, of which `node?_put_self` and `node?_put_of_ne` are
  the laws.
* `FileTree.ensureDirectory` makes a directory with all that lead to it. Where it fails, the
  directories made before stay.
* `FileTree.listing` lists what is below the working directory.
-/

namespace DocStore

/-- What stands at a place of a file tree. -/
inductive FileTree.Node where
  | directory
  | file (content : String)
  deriving DecidableEq

/-- The entries below a root, each under the names that lead to it, and a working directory. -/
structure FileTree where
  entries : List (List String × FileTree.Node)
  workingDirectory : List String

namespace FileTree

/-- The number of bytes that a name may have. -/
def maxNameBytes : Nat := 255

/-- The number of bytes below which the text of a path has to stay. -/
def pathBytesBound : Nat := 4096

/-- What stands under names that lead from the root. -/
def node? (t : FileTree) (place : List String) : Option Node :=
  if place = [] then some .directory else t.entries.lookup place

/-- A tree without files, in which only the working directory and those that lead to it exist. -/
def ofWorkingDirectory (names : List String) : FileTree :=
  ⟨(List.range names.length).map fun i => (names.take (i + 1), .directory), names⟩

/-! ## Following paths -/

/-- Follow names from a place. Only a directory can be left. -/
def walk (t : FileTree) : List String → List String → Except FileFault (List String)
  | place, [] => .ok place
  | place, name :: rest =>
    if t.node? place ≠ some .directory then .error .notDirectory
    else if FilePath.isIdle name then walk t place rest
    else if name = ".." then walk t place.dropLast rest
    else if maxNameBytes < name.utf8ByteSize then .error .nameTooLong
    else if (t.node? (place ++ [name])).isSome then walk t (place ++ [name]) rest
    else .error .notFound

/-- What can be said against a path without following it. -/
def refusal? (p : FilePath) : Option FileFault :=
  if p.text.toList.contains '\x00' then some .zeroInName
  else if p = FilePath.empty then some .notFound
  else if pathBytesBound ≤ p.text.utf8ByteSize then some .nameTooLong
  else none

/-- Where a path starts. -/
def start (t : FileTree) (p : FilePath) : List String :=
  if p.absolute then [] else t.workingDirectory

/-- The place that a path leads to. -/
def locate (t : FileTree) (p : FilePath) : Except FileFault (List String) :=
  match refusal? p with
  | some fault => .error fault
  | none => t.walk (t.start p) p.names

/-- What a path leads to. -/
def find (t : FileTree) (p : FilePath) : Except FileFault Node := do
  let place ← t.locate p
  match t.node? place with
  | some node => .ok node
  | none => .error .notFound

/-- Whether a path leads to anything. -/
def exists? (t : FileTree) (p : FilePath) : Bool := (t.find p).isOk

/-- Whether a path leads to a directory. -/
def isDirectory (t : FileTree) (p : FilePath) : Bool :=
  match t.find p with
  | .ok .directory => true
  | _ => false

/-- The content of the file that a path leads to. -/
def read (t : FileTree) (p : FilePath) : Except FileFault String := do
  match ← t.find p with
  | .file content => .ok content
  | .directory => .error .isDirectory

/-! ## Making entries -/

/-- The tree with an entry in place of any other under its names. -/
def put (t : FileTree) (place : List String) (node : Node) : FileTree :=
  { t with entries := (place, node) :: t.entries.filter (·.1 ≠ place) }

@[simp] theorem node?_put_self (t : FileTree) {place : List String} (node : Node) (h : place ≠ []) :
    (t.put place node).node? place = some node := by
  simp [node?, put, h]

@[simp] theorem node?_put_of_ne (t : FileTree) {place other : List String} (node : Node)
    (h : other ≠ place) : (t.put place node).node? other = t.node? other := by
  have key : ∀ entries : List (List String × Node),
      (entries.filter (·.1 ≠ place)).lookup other = entries.lookup other := by
    intro entries
    induction entries with
    | nil => rfl
    | cons entry rest ih =>
      obtain ⟨k, n⟩ := entry
      by_cases hk : k = place
      · have ho : (other == k) = false := by simpa [hk] using h
        rw [List.filter_cons_of_neg (by simp [hk]), ih, List.lookup_cons, ho]
      · rw [List.filter_cons_of_pos (by simpa using hk), List.lookup_cons, List.lookup_cons, ih]
  have hne : (other == place) = false := by simpa using h
  simp only [node?, put, List.lookup_cons, hne, key]

/-- The place of a new entry: the directory that all names of a path but the last one lead to, and
the last name. -/
def newPlace (t : FileTree) (p : FilePath) (names : List String) :
    Except FileFault (List String × String) :=
  match refusal? p, names.getLast? with
  | some fault, _ => .error fault
  | none, none => .error .alreadyExists
  | none, some name => do
    let place ← t.walk (t.start p) names.dropLast
    if t.node? place ≠ some .directory then .error .notDirectory
    else if FilePath.isIdle name ∨ name = ".." then .error .alreadyExists
    else if maxNameBytes < name.utf8ByteSize then .error .nameTooLong
    else .ok (place, name)

/-- Make a directory. Slashes at the end of its path are of no account. -/
def makeDirectory (t : FileTree) (p : FilePath) : Except FileFault FileTree := do
  let names := (p.names.reverse.dropWhile (· == "")).reverse
  let (place, name) ← t.newPlace p names
  if (t.node? (place ++ [name])).isSome then .error .alreadyExists
  else .ok (t.put (place ++ [name]) .directory)

/-- Make a directory, or find it made. -/
def settleDirectory (t : FileTree) (p : FilePath) : Except FileFault FileTree :=
  match t.makeDirectory p with
  | .ok t => .ok t
  | .error fault => if t.isDirectory p then .ok t else .error fault

/-- Make a directory and, as far as they are missing, the ones that lead to it, given by their paths
from the nearest one up. -/
def ensure (t : FileTree) : List FilePath → Except FileFault Unit × FileTree
  | [] => (.ok (), t)
  | p :: above =>
    if p = FilePath.empty then (.ok (), t)
    else
      match t.settleDirectory p with
      | .ok t => (.ok (), t)
      | .error .notFound =>
        match ensure t above with
        | (.ok (), t) =>
          match t.settleDirectory p with
          | .ok t => (.ok (), t)
          | .error fault => (.error fault, t)
        | failed => failed
      | .error fault => (.error fault, t)

/-- Make a directory with all that lead to it. -/
def ensureDirectory (t : FileTree) (p : FilePath) : Except FileFault Unit × FileTree :=
  t.ensure (p :: p.parents)

/-- Make an empty file unless there is one. -/
def touch (t : FileTree) (p : FilePath) : Except FileFault FileTree := do
  let (place, name) ← t.newPlace p p.names
  match t.node? (place ++ [name]) with
  | none => .ok (t.put (place ++ [name]) (.file ""))
  | some (.file _) => .ok t
  | some .directory => .error .isDirectory

/-- Write a file, in a directory that is made where it is missing. -/
def write (t : FileTree) (p : FilePath) (content : String) : Except FileFault Unit × FileTree :=
  match p.parents with
  | [] => (.error .isDirectory, t)
  | parents =>
    match t.ensure parents with
    | (.ok (), t) =>
      match t.touch p with
      | .ok t =>
        match t.locate p with
        | .ok place => (.ok (), t.put place (.file content))
        | .error fault => (.error fault, t)
      | .error fault => (.error fault, t)
    | failed => failed

/-! ## Listing -/

/-- The text of an entry below the working directory, with a slash behind a directory. -/
def entryText (names : List String) : Node → String
  | .directory => (FilePath.mk false names).text ++ "/"
  | .file _ => (FilePath.mk false names).text

/-- The texts of all entries below the working directory, in order. -/
def listing (t : FileTree) : List String :=
  (t.entries.filterMap fun (place, node) =>
    if t.workingDirectory.isPrefixOf place && t.workingDirectory.length < place.length then
      some (entryText (place.drop t.workingDirectory.length) node)
    else none).mergeSort fun a b => decide (a ≤ b)

end FileTree

end DocStore
