/-!
# Numerals

Reading and writing natural numbers as runs of digits.

* `digit?` and `hexDigit?` are the values of a decimal and a hexadecimal digit.
* `ofDigits` is positional value, most significant digit first.
* `readNat?` reads a nonempty run of decimal digits and nothing else; `readUnsigned?` also allows
  one plus sign in front and refuses what does not fit below a bound.
* `hex` writes a number in lowercase hexadecimal without padding, `hexByte` with two digits.
-/

namespace DocStore.Text

/-! ## Digits -/

/-- The value of a decimal digit. -/
def digit? (c : Char) : Option Nat :=
  if '0' ≤ c ∧ c ≤ '9' then some (c.toNat - '0'.toNat) else none

/-- The value of a hexadecimal digit of either case. -/
def hexDigit? (c : Char) : Option Nat :=
  if '0' ≤ c ∧ c ≤ '9' then some (c.toNat - '0'.toNat)
  else if 'a' ≤ c ∧ c ≤ 'f' then some (c.toNat - 'a'.toNat + 10)
  else if 'A' ≤ c ∧ c ≤ 'F' then some (c.toNat - 'A'.toNat + 10)
  else none

/-- Whether a character is a decimal digit. -/
def isDigit (c : Char) : Bool := (digit? c).isSome

/-- The number that a run of digits writes in a base, most significant digit first. -/
def ofDigits (base : Nat) (digits : List Nat) : Nat :=
  digits.foldl (fun n d => n * base + d) 0

theorem digit?_lt {c : Char} {n : Nat} (h : digit? c = some n) : n < 10 := by
  unfold digit? at h
  split at h
  · rename_i hc
    have h9 : c.toNat ≤ '9'.toNat := hc.2
    simp only [Option.some.injEq] at h
    have : '9'.toNat = 57 := rfl
    have : '0'.toNat = 48 := rfl
    omega
  · simp at h

/-! ## Reading -/

/-- The number written by a nonempty run of decimal digits, nothing before or after it. -/
def readNat? (cs : List Char) : Option Nat :=
  if cs.isEmpty then none else (cs.mapM digit?).map (ofDigits 10)

/-- A text without the plus sign in front, if it has one. -/
def dropPlus : List Char → List Char
  | '+' :: rest => rest
  | cs => cs

/-- A number below `bound`, written in decimal digits after an optional plus sign. -/
def readUnsigned? (bound : Nat) (s : String) : Option Nat :=
  (readNat? (dropPlus s.toList)).filter (· < bound)

/-- The bytes written by pairs of hexadecimal digits. -/
def readHexBytes? : List Char → Option (List UInt8)
  | [] => some []
  | [_] => none
  | high :: low :: rest => do
    let h ← hexDigit? high
    let l ← hexDigit? low
    return UInt8.ofNat (16 * h + l) :: (← readHexBytes? rest)

theorem readUnsigned?_lt {bound : Nat} {s : String} {n : Nat} (h : readUnsigned? bound s = some n) :
    n < bound := by
  simpa using (Option.filter_eq_some_iff.1 h).2

/-! ## Writing -/

/-- A number in lowercase hexadecimal, without padding. -/
def hex (n : Nat) : String := String.ofList (Nat.toDigits 16 n)

/-- A byte as two lowercase hexadecimal digits. -/
def hexByte (b : UInt8) : String := hex (b.toNat / 16) ++ hex (b.toNat % 16)

/-- A number in decimal, with zeros in front up to a width. -/
def padded (width n : Nat) : String :=
  let digits := Nat.toDigits 10 n
  String.ofList (List.replicate (width - digits.length) '0' ++ digits)

end DocStore.Text
