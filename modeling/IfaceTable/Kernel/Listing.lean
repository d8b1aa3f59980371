import IfaceTable.Kernel.Basic
import IfaceTable.Text.Decimal
import IfaceTable.Text.Fields
import IfaceTable.Text.Hex

/-!
# Listings

States of the kernel written down, one link on each line: the name, the index, the flags and the
number of the address family, and the octets of the address in hexadecimal, with a blank between
each two of them. The family and the octets may be left out. An empty line ends a state.

* `Kernel.ofLines?`: one state. `Kernel.allOfLines?`: the states of a listing.
-/

namespace IfaceTable

open Text

namespace Link

/-- The family and the octets in the last fields of a line. -/
def readAddress? : List (List Char) → Option (Option UInt16 × List UInt8)
  | [] => some (none, [])
  | [family] => (decimalValue? family).map fun n => (some (UInt16.ofNat n), [])
  | [family, octets] => do
    return (some (UInt16.ofNat (← decimalValue? family)), ← hexBytes? octets)
  | _ => none

/-- The link on a line, and its index. -/
def ofLine? (line : String) : Option (Link × UInt32) :=
  match (split ' ' line.toList).filter (· ≠ []) with
  | name :: index :: flags :: rest => do
    let (family, octets) ← readAddress? rest
    let name := Text.Utf8.encode (String.ofList name)
    let flags := UInt32.ofNat (← decimalValue? flags)
    return ({ name, flags, family, octets }, UInt32.ofNat (← decimalValue? index))
  | _ => none

end Link

namespace Kernel

/-- The state that some lines write. -/
def ofLines? (lines : List String) : Option Kernel := do
  let links ← lines.mapM Link.ofLine?
  return {
    links := links.map (·.1)
    indexes := links.map fun (link, index) => (link.name, index) }

/-- The lines of each state of a listing. -/
def cutStates : List String → List (List String)
  | [] => [[]]
  | line :: lines =>
    match cutStates lines with
    | [] => [[line]]
    | state :: states => if line = "" then [] :: state :: states else (line :: state) :: states

/-- The states of a listing, as far as they can be read. -/
def allOfLines? (lines : List String) : Option (List Kernel) := (cutStates lines).mapM ofLines?

end Kernel

end IfaceTable
