import Mathlib.Data.UInt

/-!
# Machinery/Ascii — character classes

The classes of `<ctype.h>` in the C locale, on bytes.  What holds of every byte is checked on the
numbers below 256: `byte_induction`.
-/

namespace Machinery

/-- `isspace` -/
def isSpace (byte : UInt8) : Bool := byte == 32 || (9 ≤ byte && byte ≤ 13)

/-- `isdigit` -/
def isDigit (byte : UInt8) : Bool := 48 ≤ byte && byte ≤ 57

/-- `isalpha` -/
def isAlpha (byte : UInt8) : Bool := (65 ≤ byte && byte ≤ 90) || (97 ≤ byte && byte ≤ 122)

/-- `isalnum` -/
def isAlnum (byte : UInt8) : Bool := isAlpha byte || isDigit byte

/-- `tolower` -/
def toLower (byte : UInt8) : UInt8 := if 65 ≤ byte && byte ≤ 90 then byte + 32 else byte

/-- A continuation byte of UTF-8. -/
def isUtf8Tail (byte : UInt8) : Bool := byte &&& 0xc0 == 0x80

/-- The bytes of ASCII text. -/
def ascii (text : String) : List UInt8 := text.toList.map fun letter => letter.toNat.toUInt8

/-- What holds of every number below a bound holds of every byte below it. -/
theorem byte_induction {P : UInt8 → Prop} (k : ℕ) (h : ∀ n < k, P n.toUInt8) (byte : UInt8)
    (hlt : byte.toNat < k) : P byte := by
  simpa using h byte.toNat hlt

end Machinery
