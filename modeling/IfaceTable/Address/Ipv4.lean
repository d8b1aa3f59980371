import IfaceTable.Text.Decimal
import IfaceTable.Text.Fields

/-!
# IPv4 addresses

An address is four octets. It is written as four decimal numbers with dots between them, without
zeros in front; reading accepts exactly that form and says what is wrong with any other text.
-/

namespace IfaceTable

open Text

/-- An IPv4 address, most significant octet first. -/
structure Ipv4 where
  a : UInt8
  b : UInt8
  c : UInt8
  d : UInt8
  deriving DecidableEq, Repr, Inhabited

namespace Ipv4

/-- The address 0.0.0.0, which stands for an address that is not known yet. -/
def unspecified : Ipv4 := ⟨0, 0, 0, 0⟩

def octets (x : Ipv4) : List UInt8 := [x.a, x.b, x.c, x.d]

/-- The address whose octets are the digits of `n` to the base 256; digits above the fourth are
ignored. -/
def ofNat (n : Nat) : Ipv4 :=
  ⟨UInt8.ofNat (n >>> 24), UInt8.ofNat (n >>> 16), UInt8.ofNat (n >>> 8), UInt8.ofNat n⟩

/-- The address with the given octets, with zeros for those that are not there. -/
def ofOctets (octets : List UInt8) : Ipv4 :=
  ⟨octets.getD 0 0, octets.getD 1 0, octets.getD 2 0, octets.getD 3 0⟩

def toChars (x : Ipv4) : List Char := join '.' (x.octets.map fun o => decimal o.toNat)

/-- The dotted decimal text of an address. -/
def toText (x : Ipv4) : String := String.ofList x.toChars

/-- What is wrong with one of the four numbers. -/
inductive OctetError where
  | empty
  /-- Some character is not one of the digits 0 to 9. -/
  | notDecimal (field : String)
  /-- There are more than three digits. -/
  | tooLong (field : String)
  /-- There is a zero in front of another digit. -/
  | leadingZero (field : String)
  /-- The number is above 255. -/
  | tooLarge (value : Nat)
  deriving DecidableEq, Repr

/-- The octet that a field of a dotted text writes. -/
def readOctet (field : List Char) : Except OctetError UInt8 :=
  if field = [] then .error .empty
  else if !field.all Char.isDigit then .error (.notDecimal (String.ofList field))
  else if 3 < field.length then .error (.tooLong (String.ofList field))
  else if field.head? = some '0' ∧ field ≠ ['0'] then .error (.leadingZero (String.ofList field))
  else
    let value := Nat.ofDigitChars 10 field 0
    if 255 < value then .error (.tooLarge value) else .ok (UInt8.ofNat value)

/-- What is wrong with the text of an address. -/
inductive TextError where
  /-- There is a slash, as in the text of a network. -/
  | slash
  | empty
  /-- There are not four fields between dots. -/
  | notFourFields
  | octet (cause : OctetError)
  deriving DecidableEq, Repr

/-- The address that a text writes. -/
def ofChars (text : List Char) : Except TextError Ipv4 :=
  if '/' ∈ text then .error .slash
  else if text = [] then .error .empty
  else
    match split '.' text with
    | [a, b, c, d] =>
      (do return ⟨← readOctet a, ← readOctet b, ← readOctet c, ← readOctet d⟩ :
        Except OctetError Ipv4).mapError .octet
    | _ => .error .notFourFields

end Ipv4

end IfaceTable
