import IfaceTable.Registry.Reconcile
import IfaceTable.Registry.Registration

/-!
# Histories

What happens to a registry over time: it is filled, cleared, brought up to date with snapshots of
the host, which may differ each time and may fail; interfaces are added and registered, and fields
of records are assigned.

* `Event`: one thing that happens. `Event.keepsRecords`: it takes no record out of the table.
* `Registry.after`: the registry after a history.
* `Registry.after_append`: a history may be cut anywhere. `Registry.after_induction`: what each of
  its events keeps.
-/

namespace IfaceTable

/-- One thing that happens to a registry. -/
inductive Event where
  | populate (host : Host) (limit : Option Int := none)
  | clear
  | reconcile (host : Host) (mode : Mode)
  | refresh (host : Host)
  | append (iface : Iface)
  | limitGrowth (limit : Int)
  | register (pattern : Option Pattern)
  | assign (id : Nat) (values : Assignment)

namespace Event

/-- The registry after one event. What goes wrong in it keeps what was done before. -/
def apply (registry : Registry) : Event → Registry
  | populate host limit => (registry.populate host limit).registry
  | clear => registry.clear
  | reconcile host mode => (registry.reconcile host mode).registry
  | refresh host => (registry.refresh host).registry
  | append iface => (registry.perform (.append iface)).registry
  | limitGrowth limit => registry.limitGrowth limit
  | register pattern => (registry.registerAll pattern).1.registry
  | assign id values => registry.modify id values.apply

theorem apply_append (registry : Registry) (iface : Iface) :
    (append iface).apply registry = (registry.append iface).toOption.getD registry := by
  rw [apply, Registry.perform_append]
  cases registry.append iface <;> rfl

/-- The event takes no record out of the table. -/
def keepsRecords : Event → Bool
  | populate .. | clear => false
  | reconcile .. | refresh _ | append _ | limitGrowth _ | register _ | assign .. => true

/-- The event is the table's own upkeep: it adds records, fills in addresses, or fails. -/
def isUpkeep : Event → Bool
  | reconcile .. | refresh _ | append _ | limitGrowth _ => true
  | populate .. | clear | register _ | assign .. => false

end Event

/-- The registry after a history. -/
def Registry.after (registry : Registry) (history : List Event) : Registry :=
  history.foldl Event.apply registry

theorem Registry.after_append (registry : Registry) (earlier later : List Event) :
    registry.after (earlier ++ later) = (registry.after earlier).after later :=
  List.foldl_append

/-- What each event of a history keeps, the history keeps. -/
theorem Registry.after_induction {P : Registry → Prop} {Q : Event → Prop}
    (hstep : ∀ event registry, Q event → P registry → P (event.apply registry))
    {history : List Event} (hhistory : ∀ event ∈ history, Q event) {registry : Registry}
    (hstart : P registry) : P (registry.after history) := by
  induction history generalizing registry with
  | nil => exact hstart
  | cons event history ih =>
    exact ih (fun later hmem => hhistory later (List.mem_cons_of_mem event hmem))
      (hstep event registry (hhistory event List.mem_cons_self) hstart)

end IfaceTable
