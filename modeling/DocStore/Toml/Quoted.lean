import DocStore.Text.Numeral

/-!
# TOML strings

Strings between quotation marks, in which a backslash leads an escape, and strings between
apostrophes, in which every character stands for itself. Either may be opened by three marks; it
then goes over several lines, and a line break right after the opening does not belong to it.

* `Toml.basic?` and `Toml.literal?` read a string of one line after its opening mark,
  `Toml.longBasic?` and `Toml.longLiteral?` one of several lines. They answer with the characters of
  the string and the rest of the text.

The number of steps is bounded by the length of the text.
-/

namespace DocStore.Toml

/-- Whether a character may stand in a string of one line as it is. -/
def isPlain (c : Char) : Bool := c == '\t' || (0x20 ≤ c.toNat && c.toNat ≠ 0x7f)

/-- Whether a character is white space within a line. -/
def isBlank (c : Char) : Bool := c == ' ' || c == '\t'

/-- The rest of a text after a line break. -/
def lineBreak? : List Char → Option (List Char)
  | '\n' :: rest => some rest
  | '\r' :: '\n' :: rest => some rest
  | _ => none

/-- A character by the number of its code point, in `count` hexadecimal digits. -/
def codePoint? (count : Nat) (cs : List Char) : Option (Char × List Char) := do
  let digits ← (cs.take count).mapM Text.hexDigit?
  let n := Text.ofDigits 16 digits
  if digits.length = count ∧ n.isValidChar then some (Char.ofNat n, cs.drop count) else none

/-- The character that a backslash and what follows it stand for. -/
def escaped? : List Char → Option (Char × List Char)
  | 'b' :: rest => some ('\x08', rest)
  | 't' :: rest => some ('\t', rest)
  | 'n' :: rest => some ('\n', rest)
  | 'f' :: rest => some ('\x0c', rest)
  | 'r' :: rest => some ('\r', rest)
  | 'e' :: rest => some ('\x1b', rest)
  | '\x22' :: rest => some ('\x22', rest)
  | '\\' :: rest => some ('\\', rest)
  | 'x' :: rest => codePoint? 2 rest
  | 'u' :: rest => codePoint? 4 rest
  | 'U' :: rest => codePoint? 8 rest
  | _ => none

/-! ## Strings of one line -/

/-- The characters of a string up to its closing quotation mark, of which there are at most
`limit`. -/
def basic? : (limit : Nat) → List Char → Option (List Char × List Char)
  | 0, _ => none
  | _, [] => none
  | limit + 1, c :: rest =>
    if c = '\x22' then some ([], rest)
    else if c = '\\' then do
      let (d, rest) ← escaped? rest
      let (more, rest) ← basic? limit rest
      return (d :: more, rest)
    else if isPlain c then do
      let (more, rest) ← basic? limit rest
      return (c :: more, rest)
    else none

/-- The characters of a string up to its closing apostrophe. -/
def literal? : List Char → Option (List Char × List Char)
  | [] => none
  | c :: rest =>
    if c = '\x27' then some ([], rest)
    else if isPlain c then do
      let (more, rest) ← literal? rest
      return (c :: more, rest)
    else none

/-! ## Strings of several lines -/

/-- The text after the closing marks of a long string, with the marks before them that belong to it.
Of up to five marks the last three close. -/
def closing? (mark : Char) (cs : List Char) : Option (List Char × List Char) :=
  let marks := (cs.takeWhile (· == mark)).length
  if marks < 3 then none
  else
    let own := min (marks - 3) 2
    some (List.replicate own mark, cs.drop (own + 3))

/-- The text after a backslash at the end of a line: all white space and line breaks are left out.
-/
def continued? (cs : List Char) : Option (List Char) :=
  match lineBreak? (cs.dropWhile isBlank) with
  | some rest => some (skipLines rest.length rest)
  | none => none
where
  /-- At most `limit` lines of white space are skipped. -/
  skipLines : Nat → List Char → List Char
    | 0, cs => cs.dropWhile isBlank
    | limit + 1, cs =>
      match lineBreak? (cs.dropWhile isBlank) with
      | some rest => skipLines limit rest
      | none => cs.dropWhile isBlank

/-- The characters of a long string up to its closing quotation marks. -/
def longBasic? : (limit : Nat) → List Char → Option (List Char × List Char)
  | 0, _ => none
  | _, [] => none
  | limit + 1, c :: rest =>
    match closing? '\x22' (c :: rest) with
    | some closed => some closed
    | none =>
      if c = '\\' then
        match continued? rest with
        | some rest => longBasic? limit rest
        | none => do
          let (d, rest) ← escaped? rest
          let (more, rest) ← longBasic? limit rest
          return (d :: more, rest)
      else if isPlain c || (lineBreak? (c :: rest)).isSome || c = '\n' then do
        let (more, rest) ← longBasic? limit rest
        return (c :: more, rest)
      else none

/-- The characters of a long string up to its closing apostrophes. -/
def longLiteral? : (limit : Nat) → List Char → Option (List Char × List Char)
  | 0, _ => none
  | _, [] => none
  | limit + 1, c :: rest =>
    match closing? '\x27' (c :: rest) with
    | some closed => some closed
    | none =>
      if isPlain c || (lineBreak? (c :: rest)).isSome then do
        let (more, rest) ← longLiteral? limit rest
        return (c :: more, rest)
      else none

/-- A text without a line break at its very front. -/
def dropLineBreak (cs : List Char) : List Char := (lineBreak? cs).getD cs

/-! ## Any string -/

/-- The string at the front of a text, and the rest of it. -/
def quoted? (cs : List Char) : Option (String × List Char) := do
  let (chars, rest) ← match cs with
    | '\x22' :: '\x22' :: '\x22' :: rest => longBasic? (rest.length + 1) (dropLineBreak rest)
    | '\x27' :: '\x27' :: '\x27' :: rest => longLiteral? (rest.length + 1) (dropLineBreak rest)
    | '\x22' :: rest => basic? (rest.length + 1) rest
    | '\x27' :: rest => literal? rest
    | _ => none
  return (String.ofList chars, rest)

end DocStore.Toml
