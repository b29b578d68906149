/-!
# Base 64

Bytes as text over the standard alphabet of sixty-four characters, three bytes to four characters,
the last group filled up with `=`.
-/

namespace DocStore.Text

/-- The character of a six-bit number. -/
def base64Char (n : Nat) : Char :=
  if n < 26 then Char.ofNat ('A'.toNat + n)
  else if n < 52 then Char.ofNat ('a'.toNat + (n - 26))
  else if n < 62 then Char.ofNat ('0'.toNat + (n - 52))
  else if n = 62 then '+'
  else '/'

/-- The four characters of a group of three bytes, from the number that the bytes make together. -/
def base64Group (n : Nat) : List Char :=
  [n / 262144, n / 4096 % 64, n / 64 % 64, n % 64].map base64Char

/-- The characters that write a list of bytes. -/
def base64Chars : List UInt8 → List Char
  | [] => []
  | [a] => (base64Group (a.toNat * 65536)).take 2 ++ ['=', '=']
  | [a, b] => (base64Group (a.toNat * 65536 + b.toNat * 256)).take 3 ++ ['=']
  | a :: b :: c :: rest =>
    base64Group (a.toNat * 65536 + b.toNat * 256 + c.toNat) ++ base64Chars rest

/-- Bytes in base 64. -/
def base64 (bytes : List UInt8) : String := String.ofList (base64Chars bytes)

end DocStore.Text
