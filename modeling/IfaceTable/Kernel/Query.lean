import IfaceTable.Kernel.Entry
import IfaceTable.Snapshot

/-!
# Queries

A query asks the kernel for its links and answers with one entry for each, in the kernel's order.
It may be limited to one of the two address families.

* `Kernel.query`: the entries that a filter lets through. `Kernel.queryAs`: with filters by name.
* `Kernel.host`: the kernel as the registry sees it.
-/

namespace IfaceTable

/-- The family that a query is limited to. -/
inductive Filter where
  | ipv4
  | ipv6
  deriving DecidableEq, Repr

namespace Filter

def ofName? : String → Option Filter
  | "ipv4" => some ipv4
  | "ipv6" => some ipv6
  | _ => none

/-- The kernel's number for the family. -/
def familyNumber : Filter → Int
  | ipv4 => Family.ipv4Number
  | ipv6 => Family.ipv6Number

/-- The filter lets the link through. -/
def admits (filter : Filter) (link : Link) : Bool := link.familyNumber = filter.familyNumber

end Filter

namespace Kernel

/-- The entries for the links that the filter lets through, in the kernel's order. -/
def query (kernel : Kernel) (filter : Option Filter) : Except Fault (List Entry) :=
  kernel.list.map fun links =>
    (links.filter fun link => filter.all (·.admits link)).map (Entry.ofLink kernel)

/-- A query without a filter has an entry for each link. -/
theorem query_none (kernel : Kernel) :
    kernel.query none = kernel.list.map fun links => links.map (Entry.ofLink kernel) := by
  have hall (links : List Link) :
      (links.filter fun link => (none : Option Filter).all (·.admits link)) = links :=
    List.filter_eq_self.mpr fun _ _ => rfl
  simp only [query, hall]

/-- A query with a filter by name. The name given with the query counts before the one that was
set up, and a name without a filter is refused before the kernel is asked. -/
def queryAs (kernel : Kernel) (setUp given : Option String) : Except Fault (List Entry) :=
  match given.or setUp with
  | none => kernel.query none
  | some name =>
    match Filter.ofName? name with
    | some filter => kernel.query (some filter)
    | none => .error (.unknownFamily name)

/-- What an entry tells the registry. -/
def report (entry : Entry) : Report where
  name := .text entry.name
  flags := entry.flags.toNat
  family := entry.family
  address := entry.address.map fun
    | .ipv4 value => .address value
    | .ipv6 value => .text value.toText

/-- An index under its name as text, if the bytes of the name are those of one. -/
def namedIndex? (known : List UInt8 × UInt32) : Option (String × Int) :=
  (Text.Utf8.text? known.1).map fun name => (name, (known.2.toNat : Int))

/-- The kernel as the registry sees it, which asks for indexes by text. -/
def host (kernel : Kernel) : Host where
  snapshot := (kernel.query none).map (List.map report)
  indexes := kernel.indexes.filterMap namedIndex?

end Kernel

end IfaceTable
