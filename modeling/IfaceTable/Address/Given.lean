import IfaceTable.Address.Ipv4
import IfaceTable.Text.Quoted

/-!
# Given addresses

An IPv4 address is given to the table as a text, a number, four octets, or an address that was
already read. `GivenAddress.read` finds the address or says why there is none.
-/

namespace IfaceTable

open Text

/-- The forms in which an address is given. -/
inductive GivenAddress where
  | text (value : String)
  | number (value : Int)
  | octets (value : List UInt8)
  | address (value : Ipv4)
  deriving DecidableEq, Repr

/-- Why no IPv4 address was found. -/
inductive AddressError where
  /-- A number below zero. -/
  | negative (value : Int)
  /-- A number of more than 32 bits. -/
  | tooLarge (value : Int)
  /-- Not four octets. -/
  | wrongLength (octets : List UInt8)
  | badText (text : String) (cause : Ipv4.TextError)
  deriving DecidableEq, Repr

/-- What is wrong with one of the four numbers, in words. -/
def Ipv4.OctetError.message : Ipv4.OctetError → String
  | .empty => "Empty octet not permitted"
  | .notDecimal field => "Only decimal digits permitted in " ++ quoted field
  | .tooLong field => "At most 3 characters permitted in " ++ quoted field
  | .leadingZero field => "Leading zeros are not permitted in " ++ quoted field
  | .tooLarge value => "Octet " ++ value.repr ++ " (> 255) not permitted"

def AddressError.message : AddressError → String
  | .negative value => value.repr ++ " (< 0) is not permitted as an IPv4 address"
  | .tooLarge value => value.repr ++ " (>= 2**32) is not permitted as an IPv4 address"
  | .wrongLength octets =>
    quotedBytes octets ++ " (len " ++ octets.length.repr
      ++ " != 4) is not permitted as an IPv4 address"
  | .badText text .slash => "Unexpected \x27/\x27 in " ++ quoted text
  | .badText _ .empty => "Address cannot be empty"
  | .badText text .notFourFields => "Expected 4 octets in " ++ quoted text
  | .badText text (.octet cause) => cause.message ++ " in " ++ quoted text

/-- The address that was given. -/
def GivenAddress.read : GivenAddress → Except AddressError Ipv4
  | .text value => (Ipv4.ofChars value.toList).mapError (.badText value)
  | .number value =>
    if value < 0 then .error (.negative value)
    else if (UInt32.size : Int) ≤ value then .error (.tooLarge value)
    else .ok (Ipv4.ofNat value.toNat)
  | .octets value =>
    if value.length = 4 then .ok (Ipv4.ofOctets value) else .error (.wrongLength value)
  | .address value => .ok value

end IfaceTable
