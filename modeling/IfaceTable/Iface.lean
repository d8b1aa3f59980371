import IfaceTable.Address.Ipv4
import IfaceTable.Json
import IfaceTable.Text.Columns
import IfaceTable.Text.Quoted

/-!
# Interfaces

What the table knows of one network interface. The kernel registration code writes its VIF and MIF
numbers, which are negative until then; the table itself only ever fills in an address.

* `Iface.create`: a new interface, with its name cut to the kernel's limit.
* `Iface.hasAddress`: the interface has an address that can be used.
* `Iface.statusLine`: the line of an interface in the status table.
* `Assignment`: new values for some of the fields.
-/

namespace IfaceTable

open Text

/-- A network interface. -/
structure Iface where
  name : String
  /-- The kernel's number for the interface; 0 if the kernel gave none. -/
  ifindex : Int
  flags : Int := 0
  address : Option Ipv4 := none
  /-- The number of the IPv4 multicast interface. -/
  vif : Int := -1
  /-- The number of the IPv6 multicast interface. -/
  mif : Int := -1
  /-- Multicast router discovery is on. -/
  mrdisc : Bool := false
  /-- The TTL threshold of multicast packets. -/
  threshold : Int := 1
  deriving DecidableEq, Repr

/-- How many characters the name of an interface may have. -/
def nameLimit : Nat := 15

/-- The name of an interface, cut to the limit. -/
def cutName (name : String) : String := String.ofList (name.toList.take nameLimit)

/-- The name of the interface that an alias such as eth0:1 belongs to: what stands before the
first colon. -/
def baseName (name : String) : String := String.ofList (name.toList.takeWhile (· ≠ ':'))

namespace Iface

/-- A new interface, with no VIF and no MIF. -/
def create (name : String) (ifindex : Int) (flags : Int := 0) (address : Option Ipv4 := none)
    (threshold : Int := 1) : Iface :=
  { name := cutName name, ifindex, flags, address, threshold }

/-- The address of an interface, if it is another one than 0.0.0.0. -/
def usableAddress? (iface : Iface) : Option Ipv4 := iface.address.filter (· ≠ Ipv4.unspecified)

/-- The interface has an address that can be used. -/
def hasAddress (iface : Iface) : Bool := iface.usableAddress?.isSome

/-- The line of an interface in the status table: name, kernel index, VIF and MIF, in columns. -/
def statusChars (iface : Iface) : List Char :=
  padEnd 16 iface.name.toList ++ [' ', ' '] ++ padStart 6 (decimal iface.ifindex) ++ [' ', ' ']
    ++ padStart 3 (decimal iface.vif) ++ [' ', ' '] ++ padStart 3 (decimal iface.mif) ++ ['\n']

def statusLine (iface : Iface) : String := String.ofList iface.statusChars

/-- An interface as a JSON value. -/
def toJson (iface : Iface) : Json :=
  .object [
    ("name", .string iface.name),
    ("address", (iface.address.map fun address => Json.string address.toText).getD .null),
    ("flags", .number iface.flags),
    ("ifindex", .number iface.ifindex),
    ("vif", .number iface.vif),
    ("mif", .number iface.mif),
    ("mrdisc", .bool iface.mrdisc),
    ("threshold", .number iface.threshold)]

/-- One line for a log: the name in quotes, and the numbers that change. -/
def summary (iface : Iface) : String :=
  "Iface(name=" ++ quoted iface.name ++ ", ifindex=" ++ iface.ifindex.repr
    ++ ", address=" ++ (iface.address.map Ipv4.toText).getD "None"
    ++ ", vif=" ++ iface.vif.repr ++ ", mif=" ++ iface.mif.repr ++ ")"

end Iface

/-- Values for the fields that others than the table write. A field without a value keeps its
own. -/
structure Assignment where
  vif : Option Int := none
  mif : Option Int := none
  mrdisc : Option Bool := none
  threshold : Option Int := none
  address : Option (Option Ipv4) := none
  deriving DecidableEq, Repr

/-- The interface with the values of an assignment. -/
def Assignment.apply (values : Assignment) (iface : Iface) : Iface :=
  { iface with
    vif := values.vif.getD iface.vif
    mif := values.mif.getD iface.mif
    mrdisc := values.mrdisc.getD iface.mrdisc
    threshold := values.threshold.getD iface.threshold
    address := values.address.getD iface.address }

end IfaceTable
