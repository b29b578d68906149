import DocStore.Toml.Quoted
import DocStore.Toml.Scalar

/-!
# Reading TOML

A text is a sequence of lines: keys with their values, and headers that say which table the keys
after them belong to. Arrays and inline tables may go over several lines, but a key may not.

* `Toml.ofText?` reads a whole text as the table of its keys.

As in the reader of JSON the depth that is left bounds the recursion into arrays and inline tables,
and the length of the text bounds the number of elements and of lines. A key has a bound of its own.
-/

namespace DocStore.Toml

/-- The number of arrays and inline tables that may be open at once. -/
def maxDepth : Nat := 80

/-- The number of parts that a key may have. -/
def maxKeyParts : Nat := 80

/-! ## Between tokens -/

/-- A text without the white space of a line in front. -/
def skipBlank (cs : List Char) : List Char := cs.dropWhile isBlank

/-- A text without the comment in front. -/
def skipComment : List Char → List Char
  | '#' :: rest => rest.dropWhile isPlain
  | cs => cs

/-- A text without white space, comments and line breaks in front, of which at most `limit` are line
breaks. -/
def skipLines : (limit : Nat) → List Char → List Char
  | 0, cs => cs
  | limit + 1, cs =>
    let rest := skipComment (skipBlank cs)
    match lineBreak? rest with
    | some more => skipLines limit more
    | none => rest

/-- A text without white space, comments and line breaks in front. -/
def skipAll (cs : List Char) : List Char := skipLines (cs.length + 1) cs

/-- The text after the end of a line: white space, a comment and a line break or the end. -/
def endLine? (cs : List Char) : Option (List Char) :=
  match skipComment (skipBlank cs) with
  | [] => some []
  | rest => lineBreak? rest

/-! ## Keys -/

/-- Whether a character may stand in a key without quotes. -/
def isKeyChar (c : Char) : Bool := c.isAlphanum || c == '_' || c == '-'

/-- One part of a key, quoted in one line or made of key characters. -/
def keyPart? (cs : List Char) : Option (String × List Char) :=
  match cs with
  | '\x22' :: rest =>
    (basic? (rest.length + 1) rest).map fun (part, rest) => (String.ofList part, rest)
  | '\x27' :: rest => (literal? rest).map fun (part, rest) => (String.ofList part, rest)
  | _ =>
    let part := cs.takeWhile isKeyChar
    if part.isEmpty then none else some (String.ofList part, cs.dropWhile isKeyChar)

/-- A key of at most `limit` parts: the parts before the last one, the last one, and the rest of the
text. -/
def key? : (limit : Nat) → List Char → Option (List String × String × List Char)
  | 0, _ => none
  | limit + 1, cs => do
    let (part, rest) ← keyPart? cs
    match skipBlank rest with
    | '.' :: more =>
      let (parts, last, rest) ← key? limit (skipBlank more)
      return (part :: parts, last, rest)
    | rest => return ([], part, rest)

/-- The key at the front of a text. -/
def readKey? (cs : List Char) : Option (List String × String × List Char) := key? maxKeyParts cs

/-! ## Values -/

/-- Whether a character may stand in a scalar without quotes. -/
def isScalarChar (c : Char) : Bool :=
  c.isAlphanum || c == '_' || c == '-' || c == '+' || c == '.' || c == ':'

/-- The run of characters of a scalar without quotes, and the rest of the text. One space may stand
in it, between a date and a time. -/
def scalarRun (cs : List Char) : List Char × List Char :=
  let run := cs.takeWhile isScalarChar
  let rest := cs.dropWhile isScalarChar
  match rest with
  | ' ' :: c :: _ =>
    if skipDate? run = some [] && Text.isDigit c then
      let time := rest.drop 1
      (run ++ ' ' :: time.takeWhile isScalarChar, time.dropWhile isScalarChar)
    else (run, rest)
  | _ => (run, rest)

mutual

/-- The value at the front of a text, with `depth` levels left to open. -/
def value? : (depth : Nat) → List Char → Option (Toml × List Char)
  | depth, cs =>
    match cs with
    | '\x22' :: _ | '\x27' :: _ => (quoted? cs).map fun (s, rest) => (.string s, rest)
    | '[' :: rest =>
      match depth with
      | 0 => none
      | depth + 1 => do
        let (items, rest) ← items? depth (rest.length + 1) (skipAll rest)
        return (.array items, rest)
    | '\x7b' :: rest =>
      match depth with
      | 0 => none
      | depth + 1 => do
        let (fields, rest) ← fields? depth (rest.length + 1) [] (skipAll rest)
        return (.inlineTable fields, rest)
    | _ => do
      let (run, rest) := scalarRun cs
      return (← scalar? run, rest)
termination_by depth => (depth, 0)

/-- At most `limit` elements of an array, up to its closing bracket. A comma may stand before it. -/
def items? : (depth limit : Nat) → List Char → Option (List Toml × List Char)
  | _, 0, _ => none
  | _, _, ']' :: rest => some ([], rest)
  | depth, limit + 1, cs => do
    let (item, rest) ← value? depth cs
    match skipAll rest with
    | ']' :: rest => return ([item], rest)
    | ',' :: rest =>
      let (items, rest) ← items? depth limit (skipAll rest)
      return (item :: items, rest)
    | _ => none
termination_by depth limit => (depth, limit)

/-- At most `limit` keys of an inline table after those it has, up to its closing brace. A comma may
stand before it. -/
def fields? : (depth limit : Nat) → Table → List Char → Option (Table × List Char)
  | _, 0, _, _ => none
  | _, _, known, '\x7d' :: rest => some (known, rest)
  | depth, limit + 1, known, cs => do
    let (parts, key, rest) ← readKey? cs
    let '=' :: rest := skipAll rest | none
    let (value, rest) ← value? depth (skipAll rest)
    let known ← Table.assign parts key value true known
    match skipAll rest with
    | '\x7d' :: rest => return (known, rest)
    | ',' :: rest => fields? depth limit known (skipAll rest)
    | _ => none
termination_by depth limit => (depth, limit)

end

/-! ## Lines -/

/-- A header after its opening brackets, up to its closing ones. -/
def header? (closing : List Char) (cs : List Char) :
    Option (List String × String × List Char) := do
  let (parts, key, rest) ← readKey? (skipBlank cs)
  let rest := skipBlank rest
  if closing.isPrefixOf rest then return (parts, key, rest.drop closing.length) else none

/-- At most `limit` lines, which add to a table; `path` leads to the table that the last header
opened. -/
def lines? : (limit : Nat) → (path : List String) → Table → List Char → Option Table
  | 0, _, _, _ => none
  | limit + 1, path, known, cs =>
    match skipAll cs with
    | [] => some known
    | '[' :: '[' :: rest => do
      let (parts, key, rest) ← header? [']', ']'] rest
      let known ← Table.within parts (Table.openElement key) known
      lines? limit (parts ++ [key]) known (← endLine? rest)
    | '[' :: rest => do
      let (parts, key, rest) ← header? [']'] rest
      let known ← Table.within parts (Table.openTable key) known
      lines? limit (parts ++ [key]) known (← endLine? rest)
    | cs => do
      let (parts, key, rest) ← readKey? cs
      let '=' :: rest := skipBlank rest | none
      let (value, rest) ← value? maxDepth (skipBlank rest)
      let known ← Table.within path (Table.assign parts key value true) known
      lines? limit path known (← endLine? rest)

/-- The table of the keys of a whole text, which may have a byte order mark in front. -/
def ofText? (s : String) : Option Table :=
  let cs := match s.toList with
    | '\ufeff' :: rest => rest
    | cs => cs
  lines? (cs.length + 1) [] [] cs

end DocStore.Toml
