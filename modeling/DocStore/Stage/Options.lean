import DocStore.Failure
import DocStore.Path

/-!
# Options of stages

A stage is configured by a document whose fields are its options. The readers here fail with a fault
that names the option.

* `Options.text` reads an option that has to be a text, `Options.path` one that has to be a path
  short enough to be followed.
* `Options.onlyKnown` refuses the first option that the stage does not know.
-/

namespace DocStore.Options

/-- An option that has to be a text; null counts as absent. -/
def text (configuration : Document) (stage key : String) : Except SpecificationFault String :=
  match configuration.get? key with
  | none | some .null => .error (.missingOption stage key configuration)
  | some (.string s) => .ok s
  | some value => .error (.wrongType stage key value.typeName)

/-- An option that has to be a path of at most `Path.maxSegments` segments. -/
def path (configuration : Document) (stage key : String) : Except SpecificationFault String := do
  let path ← text configuration stage key
  if Path.maxSegments < (Path.segments path).length then
    .error (.longPath stage key path Path.maxSegments)
  else .ok path

/-- Refuse the first option, in field order, that is not among the known ones. -/
def onlyKnown (configuration : Document) (stage : String) (known : List String) :
    Except SpecificationFault Unit :=
  match configuration.keys.find? fun key => !known.contains key with
  | some key => .error (.unknownOption stage key)
  | none => .ok ()

end DocStore.Options
