import IfaceTable.Registry.Resolve

/-!
# Reconciliation

Bringing a snapshot into the table, one report after the other. A report about a known interface
without a usable address gives it the address it brings. A report about an unknown interface adds
a record, unless only addresses are refreshed. Records stay even if no report is about them.

A report that is at fault ends the work: it leaves no trace, and what the reports before it did
stays. A daemon cannot go on when the host refuses to enumerate its interfaces or the table
cannot grow, so both end the program.

* `Work.absorb`: one report. `Work.absorbAll`: one after the other, up to the first fault.
* `Registry.reconcile`: a snapshot of the host. The answer tells whether a record that was in
  the table got an address.
* `Registry.refresh`: addresses only. `Registry.populate`: a new table, which may have a limit.
-/

namespace IfaceTable

/-- The name in a report, if there is one. -/
def ReportedName.text? : ReportedName → Option String
  | missing | empty => none
  | text name => some name

namespace Registry

/-- The table with an address for the record at a position. -/
def setAddress (registry : Registry) (position : Nat) (address : Ipv4) : Registry :=
  registry.modifyAt position fun iface => { iface with address := some address }

/-- The interface that a report about an unknown name adds. -/
def newIface (registry : Registry) (host : Host) (report : Report) (name : String)
    (address : Option Ipv4) : Iface :=
  .create name (host.index name) report.flags address registry.threshold

/-- The table with an address that a report brings for the record of a row, and whether the record
got it. A record that has a usable address keeps it. -/
def fill (registry : Registry) (row : Row) (address : Option Ipv4) : Registry × Bool :=
  match address with
  | some address =>
    if row.1.hasAddress then (registry, false) else (registry.setAddress row.2 address, true)
  | none => (registry, false)

end Registry

namespace Work

/-- A new record comes for a report. -/
def add (host : Host) (report : Report) (address : Option Ipv4) : Work Unit := do
  match report.name.text? with
  | some name => append ((← get).newIface host report name address)
  | none => throw .nameEmpty

/-- A report comes. The answer tells whether a record got an address. -/
def absorb (host : Host) (mode : Mode) (report : Report) : Work Bool := do
  let address ← ofExcept (report.ipv4?.mapError .badAddress)
  if report.name = .missing then throw .nameMissing
  match (← get).findByName? report.name.text?, mode with
  | some row, _ =>
    let (next, changed) := (← get).fill row address
    set next
    return changed
  | none, .refreshOnly => return false
  | none, .full =>
    add host report address
    return false

/-- Reports come, one after the other. The answer tells whether a record got an address. -/
def absorbAll (host : Host) (mode : Mode) : List Report → Work Bool
  | [] => return false
  | report :: reports => do
    let changed ← absorb host mode report
    let later ← absorbAll host mode reports
    return changed || later

end Work

namespace Registry

/-- The table after a snapshot of the host, and whether a record that was in it got an
address. -/
def reconcile (registry : Registry) (host : Host) (mode : Mode) : Outcome Bool :=
  match host.snapshot with
  | .error (.enumeration _ reason) =>
    { answer := .error (.exit .fatal), registry, notices := [.enumerationFailed reason] }
  | .error fault => { answer := .error fault, registry }
  | .ok reports =>
    match registry.perform (.absorbAll host mode reports) with
    | { answer := .error .tableFull, registry := last, .. } =>
      { answer := .error (.exit .fatal), registry := last
        notices := [.growthFailed Fault.tableFull.message] }
    | outcome => outcome

/-- Reconciliation in the mode of the given name. A name that is not one of a mode is refused
before the host is asked. -/
def reconcileAs (registry : Registry) (host : Host) (mode : String) : Outcome Bool :=
  match Mode.ofName? mode with
  | some mode => registry.reconcile host mode
  | none => { answer := .error (.unknownMode mode), registry }

/-- Addresses for the records that have none. The answer tells whether one got an address. -/
def refresh (registry : Registry) (host : Host) : Outcome Bool :=
  let outcome := registry.reconcile host .refreshOnly
  match outcome.answer with
  | .ok true => { outcome with notices := outcome.notices ++ [.addressesUpdated] }
  | _ => outcome

/-- The table without records, and the limit that holds from then on, if there is one. -/
def anew (registry : Registry) (limit : Option Int) : Registry :=
  limit.elim registry.clear registry.clear.limitGrowth

/-- A new table from a snapshot of the host. The records of the old one, and with them all VIF
and MIF numbers, are gone. There may be a limit to the room for the new one. -/
def populate (registry : Registry) (host : Host) (limit : Option Int := none) : Outcome Unit :=
  let outcome := (registry.anew limit).reconcile host .full
  { outcome with answer := outcome.answer.map fun _ => () }

end Registry

end IfaceTable
