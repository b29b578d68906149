import DocStore.Text.Numeral
import DocStore.Text.Printable

/-!
# Quoted text

Text between quotation marks in which every character can be seen: the quotation mark, the backslash
and the common controls have short escapes, any other character without a glyph of its own is
written by its code point in hexadecimal between braces, and all else stands for itself.

* `quoted` writes one text, `quotedList` several between brackets.
-/

namespace DocStore.Text

/-- The characters that write one character inside quotation marks. -/
def escape (c : Char) : String :=
  match c with
  | '\x00' => "\\0"
  | '\t' => "\\t"
  | '\r' => "\\r"
  | '\n' => "\\n"
  | '\x22' => "\\\""
  | '\\' => "\\\\"
  | c => if isPrintable c then c.toString else "\\u\x7b" ++ hex c.toNat ++ "\x7d"

/-- A text between quotation marks, escaped. -/
def quoted (s : String) : String :=
  "\"" ++ String.join (s.toList.map escape) ++ "\""

/-- Several quoted texts between brackets. -/
def quotedList (texts : List String) : String :=
  "[" ++ ", ".intercalate (texts.map quoted) ++ "]"

end DocStore.Text
