import DocStore.Text.Numeral
import DocStore.Toml

/-!
# TOML scalars without quotes

Truth values, numbers, dates and times, each from the whole run of characters that writes it.

* `Toml.scalar?` reads such a run.

Digits may have single underscores between them. A decimal number may have a sign and has no zero in
front; a number in another base has neither. A float that is too large for a double is refused.
-/

namespace DocStore.Toml

/-! ## Numbers -/

/-- The digits of a run in which single underscores stand between digits. -/
def grouped? (digit? : Char → Option Nat) : List Char → Option (List Nat)
  | [] => none
  | [c] => do return [← digit? c]
  | c :: '_' :: rest => do return (← digit? c) :: (← grouped? digit? rest)
  | c :: rest => do return (← digit? c) :: (← grouped? digit? rest)

/-- The value of a digit in a base of at most sixteen. -/
def digitBelow? (base : Nat) (c : Char) : Option Nat :=
  (Text.hexDigit? c).filter (· < base)

/-- An integer that fits one hundred and twenty-eight bits, with or without a sign. -/
def integer? (n : Int) : Option Toml :=
  if -(Nat.pow 2 127 : Int) ≤ n ∧ n < Nat.pow 2 128 then some (.integer n) else none

/-- An integer in a base other than ten. -/
def inBase? (base : Nat) (cs : List Char) : Option Toml := do
  let digits ← grouped? (digitBelow? base) cs
  integer? (Text.ofDigits base digits)

/-- A float from its digits and a power of ten. Powers far beyond all doubles are told by the number
of digits alone. -/
def float? (negative : Bool) (digits : List Nat) (exponent : Int) : Option Toml :=
  let n := Text.ofDigits 10 digits
  let magnitude := exponent + (Nat.toDigits 10 n).length
  if n = 0 ∨ magnitude < -400 then some (.float (Double.ofRatio negative 0 1))
  else if 400 < magnitude then none
  else
    let d := Double.ofRatio negative (n * Nat.pow 10 exponent.toNat)
      (Nat.pow 10 (-exponent).toNat)
    if d.isInfinite then none else some (.float d)

/-- Whether a character leads an exponent. -/
def isExponentMark (c : Char) : Bool := c == 'e' || c == 'E'

/-- The digits after a point, none where there is no point. -/
def places? : List Char → Option (List Nat)
  | [] => some []
  | '.' :: rest => grouped? Text.digit? rest
  | _ => none

/-- The exponent after its mark, zero where there is none. -/
def exponent? : List Char → Option Int
  | [] => some 0
  | _ :: '-' :: rest => do return -(Text.ofDigits 10 (← grouped? Text.digit? rest))
  | _ :: '+' :: rest => do return Text.ofDigits 10 (← grouped? Text.digit? rest)
  | _ :: rest => do return Text.ofDigits 10 (← grouped? Text.digit? rest)

/-- A decimal number whose sign has been read. -/
def decimal? (negative : Bool) (cs : List Char) : Option Toml := do
  let front := cs.takeWhile fun c => c ≠ '.' && !isExponentMark c
  let behind := cs.dropWhile fun c => c ≠ '.' && !isExponentMark c
  let whole ← grouped? Text.digit? front
  if whole.head? = some 0 && 1 < whole.length then none
  if behind.isEmpty then
    let n : Int := Text.ofDigits 10 whole
    integer? (if negative then -n else n)
  else
    let places ← places? (behind.takeWhile (!isExponentMark ·))
    let exponent ← exponent? (behind.dropWhile (!isExponentMark ·))
    float? negative (whole ++ places) (exponent - places.length)

/-- A number, an infinity or a NaN whose sign has been read. -/
def signed? (negative : Bool) (cs : List Char) : Option Toml :=
  if cs = ['i', 'n', 'f'] then some (.float (Double.infinity negative))
  else if cs = ['n', 'a', 'n'] then some (.float Double.nan)
  else decimal? negative cs

/-! ## Dates and times -/

/-- The number that exactly `count` digits at the front write, and the rest. -/
def fixedDigits? (count : Nat) (cs : List Char) : Option (Nat × List Char) :=
  if cs.length < count then none
  else (Text.readNat? (cs.take count)).map fun n => (n, cs.drop count)

/-- The rest of a text after one of some characters. -/
def after? (marks : List Char) : List Char → Option (List Char)
  | [] => none
  | c :: rest => if marks.contains c then some rest else none

/-- The number of days of a month. -/
def daysOfMonth (year month : Nat) : Nat :=
  if month = 2 then
    if year % 4 = 0 ∧ (year % 100 ≠ 0 ∨ year % 400 = 0) then 29 else 28
  else if [4, 6, 9, 11].contains month then 30
  else 31

/-- A date at the front of a text, and the rest. -/
def skipDate? (cs : List Char) : Option (List Char) := do
  let (year, cs) ← fixedDigits? 4 cs
  let (month, cs) ← fixedDigits? 2 (← after? ['-'] cs)
  let (day, cs) ← fixedDigits? 2 (← after? ['-'] cs)
  if 1 ≤ month ∧ month ≤ 12 ∧ 1 ≤ day ∧ day ≤ daysOfMonth year month then some cs else none

/-- The fraction of a second, if there is one, and the rest. -/
def skipFraction? : List Char → Option (List Char)
  | '.' :: rest =>
    if (rest.takeWhile Text.isDigit).isEmpty then none else some (rest.dropWhile Text.isDigit)
  | cs => some cs

/-- The seconds of a time, if they are given, and the rest. -/
def skipSeconds? : List Char → Option (List Char)
  | ':' :: rest => do
    let (second, cs) ← fixedDigits? 2 rest
    if second ≤ 60 then skipFraction? cs else none
  | cs => some cs

/-- A time at the front of a text, and the rest. -/
def skipTime? (cs : List Char) : Option (List Char) := do
  let (hour, cs) ← fixedDigits? 2 cs
  let (minute, cs) ← fixedDigits? 2 (← after? [':'] cs)
  if hour ≤ 23 ∧ minute ≤ 59 then skipSeconds? cs else none

/-- An offset from universal time, if there is one, and the rest. -/
def skipOffset? (cs : List Char) : Option (List Char) :=
  match cs with
  | [] => some []
  | 'Z' :: rest | 'z' :: rest => some rest
  | _ => do
    let (hour, cs) ← fixedDigits? 2 (← after? ['+', '-'] cs)
    let (minute, cs) ← fixedDigits? 2 (← after? [':'] cs)
    if hour ≤ 23 ∧ minute ≤ 59 then some cs else none

/-- What follows a date: nothing, or a time with or without an offset. -/
def skipDayTime? : List Char → Option (List Char)
  | [] => some []
  | cs => do
    let cs ← skipTime? (← after? ['T', 't', ' '] cs)
    skipOffset? cs

/-- A date, a time, or both. -/
def moment? (cs : List Char) : Option Toml :=
  let rest := match skipDate? cs with
    | some rest => skipDayTime? rest
    | none => skipTime? cs
  if rest = some [] then some (.moment (String.ofList cs)) else none

/-! ## All scalars -/

/-- A scalar without quotes, from the whole run of characters that writes it. -/
def scalar? (cs : List Char) : Option Toml :=
  if cs = ['t', 'r', 'u', 'e'] then some (.bool true)
  else if cs = ['f', 'a', 'l', 's', 'e'] then some (.bool false)
  else
    match cs with
    | '+' :: rest => signed? false rest
    | '-' :: rest => signed? true rest
    | '0' :: 'x' :: rest => inBase? 16 rest
    | '0' :: 'o' :: rest => inBase? 8 rest
    | '0' :: 'b' :: rest => inBase? 2 rest
    | _ => signed? false cs <|> moment? cs

end DocStore.Toml
