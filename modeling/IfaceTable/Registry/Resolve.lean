import IfaceTable.Registry.Basic

/-!
# Resolution

Finding the record of an interface by its kernel index, its VIF or its name.

An alias such as eth0:1 has the VIF and MIF of the interface before the colon, so only that part
of a name counts. Several records may have the same name; the first one that has a VIF is the one
that is meant, and if none has, the one that came last.
-/

namespace IfaceTable

/-- The row that is meant by `base`, of those that are left: the first one of that name that has a
VIF, or else the last one of that name, which is the candidate if none follows. -/
def chooseFrom (base : String) : List Row → Option Row → Option Row
  | [], candidate => candidate
  | row :: rows, candidate =>
    if row.1.name = base then
      if 0 ≤ row.1.vif then some row else chooseFrom base rows (some row)
    else chooseFrom base rows candidate

/-- The row that is meant by `base` in a table with the given records. -/
def chooseRow (records : List Record) (base : String) : Option Row :=
  chooseFrom base records.zipIdx none

namespace Registry

/-- The first record with the given kernel index. -/
def find? (registry : Registry) (ifindex : Int) : Option Row :=
  registry.rows.find? fun (record, _) => record.ifindex = ifindex

/-- The record that a name stands for. No name, or an empty one, stands for none. -/
def findByName? (registry : Registry) (name : Option String) : Option Row :=
  match name with
  | none | some "" => none
  | some name => chooseRow registry.records (baseName name)

/-- The first record with the given VIF, which is not negative. -/
def findByVif? (registry : Registry) (vif : Int) : Option Row :=
  registry.rows.find? fun (record, _) => 0 ≤ record.vif ∧ record.vif = vif

/-- The VIF of a record, -1 if there is no record or it has none. -/
def vifOf (record : Option Record) : Int := (record.map fun r => r.vif).getD (-1)

/-- The MIF of a record, -1 if there is no record, or it has none, or IPv6 multicast is not
routed. -/
def mifOf (registry : Registry) (record : Option Record) : Int :=
  if registry.routesIpv6 then (record.map fun r => r.mif).getD (-1) else -1

end Registry

end IfaceTable
