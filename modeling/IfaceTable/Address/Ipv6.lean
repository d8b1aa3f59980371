import IfaceTable.Address.Ipv4
import IfaceTable.Text.Hex

/-!
# IPv6 addresses

An address is eight groups of sixteen bits. Its text has the groups in lower-case hexadecimal
without zeros in front and with colons between them; the longest stretch of two or more zero
groups, the first of several, is left out and leaves a double colon. A dotted tail is accepted on
input only.

* `toText`: the text of an address.
* `ofText?`: the address that a text writes.
* `Zoned`: an address with the zone it is valid in.
-/

namespace IfaceTable

open Text

/-- An IPv6 address, most significant group first. -/
structure Ipv6 where
  groups : Vector UInt16 8
  deriving DecidableEq, Repr

namespace Ipv6

/-- The address with the given octets, with zeros for those that are not there. -/
def ofOctets (octets : List UInt8) : Ipv6 :=
  let octet (i : Nat) : Nat := (octets.getD i 0).toNat
  ⟨Vector.ofFn fun i => UInt16.ofNat (octet (2 * i) * 256 + octet (2 * i + 1))⟩

/-- How many zero groups there are from position `i` on without a break. -/
def zeroRun (groups : List UInt16) (i : Nat) : Nat :=
  ((groups.drop i).takeWhile (· = 0)).length

/-- Where the first of the longest stretches of zero groups starts. -/
def longestRunStart (groups : List UInt16) : Nat :=
  (List.range groups.length).foldl
    (fun best i => if zeroRun groups best < zeroRun groups i then i else best) 0

/-- Groups in hexadecimal with colons between them. -/
def groupChars (groups : List UInt16) : List Char :=
  join ':' (groups.map fun g => hex 1 g.toNat)

/-- The text of a list of groups. -/
def charsOf (groups : List UInt16) : List Char :=
  let start := longestRunStart groups
  let length := zeroRun groups start
  if length < 2 then groupChars groups
  else groupChars (groups.take start) ++ [':', ':'] ++ groupChars (groups.drop (start + length))

def toText (x : Ipv6) : String := String.ofList (charsOf x.groups.toList)

/-! ## Reading -/

/-- The group that one to four hexadecimal digits write. -/
def readGroup? (field : List Char) : Option UInt16 :=
  if field.length = 0 ∨ 4 < field.length then none
  else (hexNumber? field).map UInt16.ofNat

/-- The two groups that a dotted tail writes. -/
def readTail? (field : List Char) : Option (List UInt16) :=
  match Ipv4.ofChars field with
  | .ok x =>
    some [UInt16.ofNat (x.a.toNat * 256 + x.b.toNat), UInt16.ofNat (x.c.toNat * 256 + x.d.toNat)]
  | .error _ => none

/-- The groups that the fields between colons write; the last one may be a dotted tail. -/
def readFields? (tail : Bool) : List (List Char) → Option (List UInt16)
  | [] => some []
  | [field] =>
    if tail && '.' ∈ field then readTail? field else (readGroup? field).map ([·])
  | field :: fields => do return (← readGroup? field) :: (← readFields? tail fields)

/-- The groups of a part of a text that has no double colon; an empty part has none. -/
def readPart? (tail : Bool) (part : List Char) : Option (List UInt16) :=
  if part = [] then some [] else readFields? tail (split ':' part)

/-- The parts of a text before and behind its first double colon. -/
def cutDouble? : List Char → Option (List Char × List Char)
  | ':' :: ':' :: rest => some ([], rest)
  | c :: rest => (cutDouble? rest).map fun (before, behind) => (c :: before, behind)
  | [] => none

/-- The eight groups that a text writes. -/
def readGroups? (text : List Char) : Option (List UInt16) :=
  match cutDouble? text with
  | some (before, behind) => do
    let left ← readPart? false before
    let right ← readPart? true behind
    if left.length + right.length < 8 then
      return left ++ List.replicate (8 - left.length - right.length) 0 ++ right
    else none
  | none => do
    let groups ← readFields? true (split ':' text)
    if groups.length = 8 then return groups else none

/-- The address that a text writes. -/
def ofText? (text : String) : Option Ipv6 :=
  (readGroups? text.toList).bind fun groups =>
    if h : groups.toArray.size = 8 then some ⟨⟨groups.toArray, h⟩⟩ else none

/-! ## Zones -/

/-- An address with the zone it is valid in, if one is given. -/
structure Zoned where
  address : Ipv6
  zone : Option String
  deriving DecidableEq, Repr

/-- The text of the address, and the zone behind a percent sign. -/
def Zoned.toText (x : Zoned) : String :=
  x.address.toText ++ (x.zone.map ("%" ++ ·)).getD ""

/-- The address and the zone that a text writes. A zone is not empty and holds neither a percent
sign nor a slash. -/
def Zoned.ofText? (text : String) : Option Zoned :=
  match split '%' text.toList with
  | [address] => return ⟨← Ipv6.ofText? (String.ofList address), none⟩
  | [address, zone] =>
    if zone = [] ∨ '/' ∈ zone then none
    else return ⟨← Ipv6.ofText? (String.ofList address), some (String.ofList zone)⟩
  | _ => none

end Ipv6

end IfaceTable
