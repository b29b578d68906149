import DocStore.Text.Numeral

/-!
# Object identifiers

Twelve bytes that name a document, kept as one number of ninety-six bits with the first byte
leading, so that the order of the bytes is the order of the numbers.
-/

namespace DocStore

/-- An identifier of twelve bytes. -/
structure ObjectId where
  bits : BitVec 96
  deriving DecidableEq

namespace ObjectId

/-- The identifier as twenty-four lowercase hexadecimal digits. -/
def hex (id : ObjectId) : String :=
  let digits := Nat.toDigits 16 id.bits.toNat
  String.ofList (List.replicate (24 - digits.length) '0' ++ digits)

/-- The identifier that twenty-four hexadecimal digits write. -/
def ofHex? (s : String) : Option ObjectId := do
  let digits ← s.toList.mapM Text.hexDigit?
  if digits.length = 24 then some ⟨BitVec.ofNat 96 (Text.ofDigits 16 digits)⟩ else none

end ObjectId

end DocStore
