import DocStore.Text.Pieces

/-!
# File paths

A path leads from the root of a file tree, or from its working directory, through names between
slashes. The empty name and `.` stay in place and `..` leads one directory up; a path keeps them,
since it can be followed through them only where they stand behind a directory.

* `FilePath.ofText` and `FilePath.text` read and write a path; `text_ofText` says that no text is
  changed by it.
* `FilePath.join` is the path that one path makes behind another one.
* `FilePath.parents` are the paths above a path.
-/

namespace DocStore

/-- The names that lead to a file, from the root or from the working directory. -/
structure FilePath where
  absolute : Bool
  names : List String
  deriving DecidableEq

namespace FilePath

/-! ## Reading and writing -/

/-- The path without names, which leads nowhere. -/
def empty : FilePath := ⟨false, []⟩

/-- The names between slashes. -/
def namesOf (cs : List Char) : List String := (Text.pieces '/' cs).map String.ofList

/-- The path that a text writes. -/
def ofText (s : String) : FilePath :=
  match s.toList with
  | [] => empty
  | c :: rest => if c = '/' then ⟨true, namesOf rest⟩ else ⟨false, namesOf (c :: rest)⟩

/-- The text that writes a path. -/
def text (p : FilePath) : String :=
  String.ofList ((if p.absolute then ['/'] else []) ++
    Text.joined '/' (p.names.map String.toList))

@[simp] theorem joined_namesOf (cs : List Char) :
    Text.joined '/' ((namesOf cs).map String.toList) = cs := by
  have h : (namesOf cs).map String.toList = Text.pieces '/' cs := by
    simp [namesOf, Function.comp_def]
  rw [h, Text.joined_pieces]

@[simp] theorem text_ofText (s : String) : (ofText s).text = s := by
  unfold ofText
  split
  · rename_i h
    rw [← String.ofList_toList (s := s), h]
    rfl
  · rename_i c rest h
    rw [← String.ofList_toList (s := s), h]
    split
    · rename_i hc
      simp [text, hc]
    · simp [text]

/-! ## Paths behind and above a path -/

/-- The path that `q` makes behind `p`: `q` itself where it leads from the root. -/
def join (p q : FilePath) : FilePath :=
  if q.absolute then q
  else
    let names := if p.names.getLast? = some "" then p.names.dropLast else p.names
    ⟨p.absolute, names ++ q.names⟩

/-- Whether a name stays in place. -/
def isIdle (name : String) : Bool := name == "" || name == "."

/-- Of names, last one first, the shorter and shorter paths that end in a name that does not stay in
place. -/
def shortenings : List String → List (List String)
  | [] => [[]]
  | name :: before =>
    if isIdle name then shortenings before else (name :: before) :: shortenings before

/-- The paths above a path, the nearest one first. The last one is the root or the empty path. -/
def parents (p : FilePath) : List FilePath :=
  if p.absolute then (shortenings p.names.reverse).tail.map fun names => ⟨true, names.reverse⟩
  else
    match p.names with
    | [] => []
    | first :: rest =>
      ((shortenings rest.reverse).tail.map fun names => ⟨false, first :: names.reverse⟩) ++ [empty]

/-! ## Names of files -/

/-- The last name of a path that does not stay in place. -/
def fileName? (p : FilePath) : Option String := (p.names.reverse.dropWhile isIdle).head?

/-- What stands behind the last dot of a file name, unless the dot leads the name. -/
def extension? (p : FilePath) : Option String := do
  let name ← p.fileName?
  if name = ".." then none
  match (Text.pieces '.' name.toList).reverse with
  | last :: before => if before = [] ∨ before = [[]] then none else some (String.ofList last)
  | [] => none

end FilePath

end DocStore
