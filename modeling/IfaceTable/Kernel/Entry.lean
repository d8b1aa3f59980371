import IfaceTable.Family
import IfaceTable.Flag
import IfaceTable.Iface
import IfaceTable.Json
import IfaceTable.Kernel.Basic

/-!
# Entries

An entry is a link of the kernel in a form that can be read: its name as text, its flags by name,
its address by family. Only the first fifteen bytes of a name are taken over.

* `Entry.ofLink`: the entry for one link.
* `Entry.render`: an entry with its address as text.
* `Entry.line`, `Entry.Rendered.toJson`: an entry in a listing.
-/

namespace IfaceTable

open Text

/-- An address of one of the two families. -/
inductive NetAddress where
  | ipv4 (value : Ipv4)
  | ipv6 (value : Ipv6)
  deriving DecidableEq, Repr

def NetAddress.toText : NetAddress → String
  | ipv4 value => value.toText
  | ipv6 value => value.toText

/-- One address of one interface, as a query reports it. -/
structure Entry where
  name : String
  index : UInt32
  flags : UInt32
  family : Family
  address : Option NetAddress
  deriving DecidableEq, Repr

/-- The kernel's number for the family of a link; -1 if it has no address. -/
def Link.familyNumber (link : Link) : Int := (link.family.map fun n => (n.toNat : Int)).getD (-1)

/-- The address of a link, if it is of one of the two families. -/
def Link.address? (link : Link) : Option NetAddress :=
  if link.familyNumber = Family.ipv4Number then some (.ipv4 (.ofOctets link.octets))
  else if link.familyNumber = Family.ipv6Number then some (.ipv6 (.ofOctets link.octets))
  else none

namespace Entry

/-- The entry for a link. -/
def ofLink (kernel : Kernel) (link : Link) : Entry where
  name := Text.Utf8.decode (link.name.take nameLimit)
  index := kernel.index link.name
  flags := link.flags
  family := .ofNumber link.familyNumber
  address := link.address?

def flagNames (entry : Entry) : List String := Flag.names entry.flags.toNat

/-- An entry with its flags by name and its address as text. -/
structure Rendered where
  name : String
  index : UInt32
  flags : UInt32
  flagNames : List String
  family : Family
  address : Option String
  deriving DecidableEq, Repr

def render (entry : Entry) : Rendered where
  name := entry.name
  index := entry.index
  flags := entry.flags
  flagNames := entry.flagNames
  family := entry.family
  address := entry.address.map NetAddress.toText

/-- The line of an entry in a listing: name, index, family, address and flags, in columns. -/
def line (entry : Entry) : String :=
  String.ofList
    (padEnd 16 entry.name.toList ++ [' '] ++ padStart 6 (decimal entry.index.toNat) ++ [' ', ' ']
      ++ padEnd 6 (entry.family.label?.getD "-").toList ++ [' ', ' ']
      ++ padEnd 39 ((entry.address.map NetAddress.toText).getD "-").toList ++ [' ', ' '])
    ++ "<" ++ String.intercalate "," entry.flagNames ++ ">\n"

end Entry

/-- A family as a JSON value: its name, its number, or nothing. -/
def Family.toJson : Family → Json
  | other number => .number number
  | family => (family.label?.map Json.string).getD .null

/-- An entry as a JSON value. -/
def Entry.Rendered.toJson (entry : Entry.Rendered) : Json :=
  .object [
    ("name", .string entry.name),
    ("index", .number entry.index.toNat),
    ("flags", .number entry.flags.toNat),
    ("flag_names", .array (entry.flagNames.map .string)),
    ("family", entry.family.toJson),
    ("address", (entry.address.map Json.string).getD .null)]

end IfaceTable
