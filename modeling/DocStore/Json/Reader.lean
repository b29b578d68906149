import DocStore.Json.Number

/-!
# Reading JSON

The strict grammar: nothing but space, tab, line feed and carriage return between tokens, no text
after the value, no raw control character and no half of a surrogate pair in a string, and at most
`Json.maxDepth` arrays and objects inside each other.

* `Json.ofText?` reads a whole text.

The depth that is left bounds the recursion into arrays and objects; within one, the number of
elements is bounded by the length of the text, since each takes a character at least.
-/

namespace DocStore.Json

/-- The number of arrays and objects that may be open at once. -/
def maxDepth : Nat := 127

/-- Whether a character may stand between tokens. -/
def isSpace (c : Char) : Bool := c == ' ' || c == '\t' || c == '\n' || c == '\r'

/-- A text without the space in front. -/
def skipSpace (cs : List Char) : List Char := cs.dropWhile isSpace

/-! ## Strings -/

/-- The number that four hexadecimal digits write, and the rest of the text. -/
def readHex4? : List Char → Option (Nat × List Char)
  | a :: b :: c :: d :: rest => do
    let digits ← [a, b, c, d].mapM Text.hexDigit?
    return (Text.ofDigits 16 digits, rest)
  | _ => none

/-- The character of a code unit, together with a second code unit where the first is the leading
half of a pair. -/
def readUnicode? (cs : List Char) : Option (Char × List Char) := do
  let (unit, rest) ← readHex4? cs
  if 0xd800 ≤ unit ∧ unit < 0xdc00 then
    match rest with
    | '\\' :: 'u' :: more =>
      let (low, tail) ← readHex4? more
      if 0xdc00 ≤ low ∧ low < 0xe000 then
        return (Char.ofNat (0x10000 + (unit - 0xd800) * 0x400 + (low - 0xdc00)), tail)
      else none
    | _ => none
  else if 0xdc00 ≤ unit ∧ unit < 0xe000 then none
  else return (Char.ofNat unit, rest)

/-- The character that a backslash and what follows it stand for. -/
def readEscape? : List Char → Option (Char × List Char)
  | '\x22' :: rest => some ('\x22', rest)
  | '\\' :: rest => some ('\\', rest)
  | '/' :: rest => some ('/', rest)
  | 'b' :: rest => some ('\x08', rest)
  | 'f' :: rest => some ('\x0c', rest)
  | 'n' :: rest => some ('\n', rest)
  | 'r' :: rest => some ('\r', rest)
  | 't' :: rest => some ('\t', rest)
  | 'u' :: rest => readUnicode? rest
  | _ => none

/-- The characters up to the closing quotation mark, of which there are at most `limit`, and the
rest of the text. -/
def readChars? : Nat → List Char → Option (List Char × List Char)
  | 0, _ => none
  | _, [] => none
  | limit + 1, c :: rest =>
    if c = '\x22' then some ([], rest)
    else if c = '\\' then do
      let (d, tail) ← readEscape? rest
      let (more, tail) ← readChars? limit tail
      return (d :: more, tail)
    else if c.toNat < 0x20 then none
    else do
      let (more, tail) ← readChars? limit rest
      return (c :: more, tail)

/-- The string after its opening quotation mark. -/
def readString? (cs : List Char) : Option (String × List Char) := do
  let (chars, rest) ← readChars? (cs.length + 1) cs
  return (String.ofList chars, rest)

/-! ## Values -/

mutual

/-- The value at the front of a text, with `depth` levels left to open. -/
def readValue? : Nat → List Char → Option (Json × List Char)
  | depth, cs =>
    match skipSpace cs with
    | 'n' :: 'u' :: 'l' :: 'l' :: rest => some (null, rest)
    | 't' :: 'r' :: 'u' :: 'e' :: rest => some (bool true, rest)
    | 'f' :: 'a' :: 'l' :: 's' :: 'e' :: rest => some (bool false, rest)
    | '\x22' :: rest => do
      let (s, tail) ← readString? rest
      return (string s, tail)
    | '[' :: rest =>
      match depth with
      | 0 => none
      | depth + 1 =>
        match skipSpace rest with
        | ']' :: tail => some (array [], tail)
        | _ => do
          let (items, tail) ← readItems? depth rest.length rest
          return (array items, tail)
    | '\x7b' :: rest =>
      match depth with
      | 0 => none
      | depth + 1 =>
        match skipSpace rest with
        | '\x7d' :: tail => some (object [], tail)
        | _ => do
          let (members, tail) ← readMembers? depth rest.length rest
          return (object members, tail)
    | other => readNumber? other
termination_by depth => (depth, 0)

/-- At most `limit` elements of an array, up to its closing bracket. -/
def readItems? : Nat → Nat → List Char → Option (List Json × List Char)
  | _, 0, _ => none
  | depth, limit + 1, cs => do
    let (item, rest) ← readValue? depth cs
    match skipSpace rest with
    | ']' :: tail => return ([item], tail)
    | ',' :: tail =>
      let (items, tail) ← readItems? depth limit tail
      return (item :: items, tail)
    | _ => none
termination_by depth limit => (depth, limit)

/-- At most `limit` members of an object, up to its closing brace. -/
def readMembers? : Nat → Nat → List Char → Option (List (String × Json) × List Char)
  | _, 0, _ => none
  | depth, limit + 1, cs => do
    let (name, rest) ← match skipSpace cs with
      | '\x22' :: rest => readString? rest
      | _ => none
    let rest ← match skipSpace rest with
      | ':' :: rest => some rest
      | _ => none
    let (value, rest) ← readValue? depth rest
    match skipSpace rest with
    | '\x7d' :: tail => return ([(name, value)], tail)
    | ',' :: tail =>
      let (members, tail) ← readMembers? depth limit tail
      return ((name, value) :: members, tail)
    | _ => none
termination_by depth limit => (depth, limit)

end

/-- The value that a whole text writes. -/
def ofText? (s : String) : Option Json := do
  let (value, rest) ← readValue? maxDepth s.toList
  if (skipSpace rest).isEmpty then some value else none

end DocStore.Json
