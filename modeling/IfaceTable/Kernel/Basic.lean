import IfaceTable.Address.Ipv6
import IfaceTable.Fault
import IfaceTable.Text.Utf8

/-!
# The kernel

What the kernel knows of its network interfaces at one moment: a list of links, one for each
address of each interface, and the index of each name. Names are bytes here, which need not be those
of a text.

* `Kernel.index`: the index of a name.
* `Kernel.list`: the links, or why they cannot be listed.
-/

namespace IfaceTable

/-- One address of one interface, or an interface without an address, as the kernel lists it. -/
structure Link where
  name : List UInt8
  flags : UInt32 := 0
  /-- The number of the address family; none if there is no address. -/
  family : Option UInt16 := none
  /-- The octets of the address, most significant first. -/
  octets : List UInt8 := []
  deriving DecidableEq, Repr

/-- The state of the kernel at one moment. -/
structure Kernel where
  links : List Link := []
  /-- The indexes of the interfaces by name. -/
  indexes : List (List UInt8 × UInt32) := []
  /-- The error with which the kernel refuses to list its links. -/
  refusal : Option Int := none
  /-- There is no memory to copy the links to. -/
  outOfMemory : Bool := false
  /-- A fault that keeps the kernel from being asked at all. -/
  obstacle : Option Fault := none
  /-- The words that the system has for an error, by its number. -/
  errorText : Int → String := Int.repr

namespace Kernel

/-- The fault with which a listing ends that the system refuses. -/
def refused (kernel : Kernel) (errno : Int) : Fault := .enumeration errno (kernel.errorText errno)

/-- The number of the error that there is no memory. -/
def noMemory : Int := 12

/-- The index of the interface with the given name, 0 if there is none. -/
def index (kernel : Kernel) (name : List UInt8) : UInt32 := (kernel.indexes.lookup name).getD 0

/-- The links of the kernel. A refusal without an error number lists no links. -/
def list (kernel : Kernel) : Except Fault (List Link) :=
  match kernel.obstacle, kernel.refusal with
  | some fault, _ => .error fault
  | none, some errno => if 0 < errno then .error (kernel.refused errno) else .ok []
  | none, none => if kernel.outOfMemory then .error (kernel.refused noMemory) else .ok kernel.links

end Kernel

end IfaceTable
