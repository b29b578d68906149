import DocStore.Catalog
import DocStore.Text.Alphanumeric

/-!
# Environments

The variables of an environment. A text may refer to one as `$ENV{NAME}`.

* `Environment.get?` is the value of a variable.
* `Environment.expand` puts the values of variables in the place of references to them; a reference
  to a variable that is not set stays as it is.
-/

namespace DocStore

/-- The values of variables. -/
abbrev Environment := Catalog String

namespace Environment

/-- The value of a variable. -/
def get? (environment : Environment) (name : String) : Option String :=
  Catalog.find? environment name

/-- What opens a reference to a variable. -/
def opening : List Char := ['$', 'E', 'N', 'V', '\x7b']

/-- Whether a character may stand in the name of a variable that is referred to: a letter or number
of any script, an underscore or a dot. -/
def isNameChar (c : Char) : Bool := Text.isAlphanumeric c || c == '_' || c == '.'

/-- The name between the opening of a reference and its closing brace. A name does not begin with a
dot. -/
def reference? (cs : List Char) : Option String :=
  let name := cs.takeWhile isNameChar
  if name.isEmpty ∨ name.head? = some '.' then none
  else if (cs.dropWhile isNameChar).head? = some '\x7d' then some (String.ofList name)
  else none

/-- The names of the variables that a text refers to. -/
def references : List Char → List String
  | [] => []
  | c :: rest =>
    let later := references rest
    if opening.isPrefixOf (c :: rest) then
      match reference? ((c :: rest).drop opening.length) with
      | some name => name :: later
      | none => later
    else later

/-- A text with every occurrence of a nonempty part replaced. No occurrence is looked for inside
another one; `skip` characters at the front belong to the occurrence before. -/
def replaceAll (part replacement : List Char) : (skip : Nat) → List Char → List Char
  | _, [] => []
  | skip + 1, _ :: rest => replaceAll part replacement skip rest
  | 0, c :: rest =>
    if part.isPrefixOf (c :: rest) then
      replacement ++ replaceAll part replacement (part.length - 1) rest
    else c :: replaceAll part replacement 0 rest

/-- A text with the value of one variable in the place of references to it. -/
def substitute (environment : Environment) (cs : List Char) (name : String) : List Char :=
  match environment.get? name with
  | some value => replaceAll (opening ++ name.toList ++ ['\x7d']) value.toList 0 cs
  | none => cs

/-- A text with the values of variables in the place of references to them. References that a value
brings in stay, unless the text itself has them too. -/
def expand (environment : Environment) (s : String) : String :=
  String.ofList ((references s.toList).foldl environment.substitute s.toList)

end Environment

end DocStore
