import IfaceTable.Family
import IfaceTable.Fault

/-!
# Snapshots

What the host tells the registry: a list of reports, one for each address of each interface,
and the kernel index of each name. Both may be incomplete, and the list may not come at all.

* `Report.ipv4?`: the IPv4 address that a report brings.
* `Host.index`: the kernel index of a name.
-/

namespace IfaceTable

/-- What a report says about the name of its interface. -/
inductive ReportedName where
  /-- Nothing is said about the name. -/
  | missing
  /-- The place for the name is empty. -/
  | empty
  | text (name : String)
  deriving DecidableEq, Repr

/-- One address of one interface, or an interface without an address. -/
structure Report where
  name : ReportedName := .missing
  flags : Int := 0
  family : Family := .absent
  address : Option GivenAddress := none
  deriving DecidableEq, Repr

/-- The IPv4 address that a report brings, if it brings one. An address of another family is not
looked at. -/
def Report.ipv4? (report : Report) : Except AddressError (Option Ipv4) :=
  match report.family, report.address with
  | .ipv4, some given => given.read.map some
  | _, _ => .ok none

/-- Kernel indexes by name. -/
abbrev IndexTable := List (String × Int)

/-- The kernel index of a name, 0 for a name that the kernel does not know. -/
def IndexTable.index (table : IndexTable) (name : String) : Int := (table.lookup name).getD 0

/-- What the host answers at one moment. -/
structure Host where
  /-- The reports, or why there are none. -/
  snapshot : Except Fault (List Report)
  indexes : IndexTable

/-- The kernel index of a name at that moment. -/
def Host.index (host : Host) (name : String) : Int := host.indexes.index name

/-- How a snapshot is brought into the table. -/
inductive Mode where
  /-- Add new interfaces, and fill in addresses. -/
  | full
  /-- Fill in addresses only. -/
  | refreshOnly
  deriving DecidableEq, Repr

def Mode.ofName? : String → Option Mode
  | "full" => some .full
  | "refresh_only" => some .refreshOnly
  | _ => none

end IfaceTable
