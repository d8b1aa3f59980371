import IfaceTable.Iface
import IfaceTable.Notice
import IfaceTable.Slots
import IfaceTable.Snapshot

/-!
# The registry

The table of the network interfaces of a multicast routing daemon. Each interface that was ever
put into the table is a record with an identity of its own, so that whoever holds a reference to a
record finds that very record again, wherever it is by then. A record keeps its position until the
table is cleared; then it is retired, and the table never comes back to it.

* `Registry.rows`: the records of the table with their positions.
* `Work`: work on the registry that a fault may end. `Registry.perform`: what it leaves behind.
* `Work.append`: a new record behind the others. `Registry.perform_append`: a fault in it leaves the
  table as it was, so that it comes to `Registry.append`.
* `Registry.modifyAt`, `Registry.modify`: a change to one record, by position or by identity.
* `Registry.clear`: the table without records.
-/

namespace IfaceTable

/-- An interface in the table, with its identity. -/
structure Record extends Iface where
  id : Nat
  deriving DecidableEq, Repr

/-- A record and its position in the table. -/
abbrev Row := Record × Nat

/-- The record with `f` done to its interface. -/
def Record.update (f : Iface → Iface) (record : Record) : Record :=
  { record with toIface := f record.toIface }

/-- The interface table and its settings. -/
structure Registry where
  slots : Slots Record := .empty
  /-- The records that were in the table before it was last cleared, oldest first. -/
  retired : List Record := []
  /-- The identity of the next record; no record has it or a greater one yet. -/
  nextId : Nat := 0
  /-- The system routes IPv6 multicast; without that there are no MIF numbers. -/
  routesIpv6 : Bool := true
  /-- The TTL threshold of new interfaces. -/
  threshold : Int := 1

/-- What an operation leaves behind: its answer or what went wrong, the registry as it is then,
and what was reported on the way. Whatever was done before something went wrong stays done. -/
structure Outcome (α : Type) where
  answer : Except Fault α
  registry : Registry
  notices : List Notice := []

namespace Registry

/-- The records of the table, in order. -/
def records (registry : Registry) : List Record := registry.slots.toList

/-- The records of the table with their positions. -/
def rows (registry : Registry) : List Row := registry.records.zipIdx

def count (registry : Registry) : Nat := registry.slots.count

def capacity (registry : Registry) : Nat := registry.slots.capacity

/-- The record at a position. -/
def recordAt (registry : Registry) (position : Int) : Except Fault Record :=
  match registry.slots.at? position with
  | some record => .ok record
  | none => .error (.noRecord position)

/-- The table without records, with a single slot and without a limit. -/
def clear (registry : Registry) : Registry :=
  { registry with slots := .empty, retired := registry.retired ++ registry.records }

/-- The table with a new record behind the others, if there is room. -/
def append (registry : Registry) (iface : Iface) : Except Fault Registry :=
  match registry.slots.append? { iface with id := registry.nextId } with
  | some slots => .ok { registry with slots, nextId := registry.nextId + 1 }
  | none => .error .tableFull

/-- From now on the table may have no more than `limit` slots. -/
def limitGrowth (registry : Registry) (limit : Int) : Registry :=
  { registry with slots := registry.slots.limitGrowth limit }

/-- A change to the record at a position. -/
def modifyAt (registry : Registry) (position : Nat) (f : Iface → Iface) : Registry :=
  { registry with slots := registry.slots.modify position (Record.update f) }

/-- The position of the record with the given identity, if it is in the table. -/
def positionOf? (registry : Registry) (id : Nat) : Option Nat :=
  registry.records.findIdx? (·.id = id)

/-- The record with the given identity, in the table or retired. -/
def lookup? (registry : Registry) (id : Nat) : Option Record :=
  (registry.records ++ registry.retired).find? (·.id = id)

/-- A change to the record with the given identity, in the table or retired. -/
def modify (registry : Registry) (id : Nat) (f : Iface → Iface) : Registry :=
  match registry.positionOf? id with
  | some position => registry.modifyAt position f
  | none =>
    { registry with
      retired := registry.retired.map fun record => if record.id = id then record.update f else record }

end Registry

/-! ## Work -/

/-- Work on the registry that a fault may end. Whatever was done by then stays done. -/
abbrev Work (α : Type) := EStateM Fault Registry α

/-- What work leaves behind. -/
def Registry.perform {α : Type} (registry : Registry) (work : Work α) : Outcome α :=
  match work.run registry with
  | .ok answer registry => { answer := .ok answer, registry }
  | .error fault registry => { answer := .error fault, registry }

namespace Work

/-- Work on the slots of the table. The table has the slots that it leaves, also if it is
refused. -/
def onSlots {α : Type} (work : Slots.Attempt Record α) : Work α := do
  let registry ← get
  let (answer, slots) := registry.slots.attempt work
  set { registry with slots }
  match answer with
  | some answer => return answer
  | none => throw .tableFull

/-- A new record comes behind the others. -/
def append (iface : Iface) : Work Unit := do
  onSlots (.append { iface with id := (← get).nextId })
  modify fun registry => { registry with nextId := registry.nextId + 1 }

end Work

namespace Registry

section

variable {α β : Type} {registry next : Registry} {work : Work α} {later : α → Work β}

/-- What is made of an answer touches nothing else. -/
theorem perform_map (registry : Registry) (work : Work α) (f : α → β) :
    registry.perform (do return f (← work)) =
      { answer := (registry.perform work).answer.map f
        registry := (registry.perform work).registry } := by
  simp only [perform, EStateM.run_bind, EStateM.run_pure]
  cases work.run registry <;> rfl

/-- Work goes on where the work before it is done. -/
theorem perform_bind_of_ok {answer : α}
    (h : registry.perform work = { answer := .ok answer, registry := next }) :
    registry.perform (work >>= later) = next.perform (later answer) := by
  unfold perform at h ⊢
  split at h <;> simp_all

/-- A fault is the end of the work. -/
theorem perform_bind_of_error {fault : Fault}
    (h : registry.perform work = { answer := .error fault, registry := next }) :
    registry.perform (work >>= later) = { answer := .error fault, registry := next } := by
  unfold perform at h ⊢
  split at h <;> simp_all

end

theorem perform_append (registry : Registry) (iface : Iface) :
    registry.perform (.append iface) =
      match registry.append iface with
      | .ok next => { answer := .ok (), registry := next }
      | .error fault => { answer := .error fault, registry } := by
  unfold append
  cases hslots : registry.slots.append? { iface with id := registry.nextId } with
  | some slots => simp [perform, Work.append, Work.onSlots, Slots.attempt_append, hslots]
  | none => simp [perform, Work.append, Work.onSlots, Slots.attempt_append, hslots]

/-! ## What each operation does to the records -/

@[simp] theorem length_records (registry : Registry) :
    registry.records.length = registry.count := registry.slots.length_toList

@[simp] theorem records_clear (registry : Registry) : registry.clear.records = [] := rfl

theorem records_append {registry next : Registry} {iface : Iface}
    (h : registry.append iface = .ok next) :
    next.records = registry.records ++ [{ iface with id := registry.nextId }] := by
  unfold append at h
  split at h
  · next slots hslots =>
    cases h
    exact Slots.toList_of_append? hslots
  · cases h

theorem records_modifyAt (registry : Registry) (position : Nat) (f : Iface → Iface) :
    (registry.modifyAt position f).records =
      registry.records.modify position (Record.update f) :=
  registry.slots.toList_modify position _

end Registry

end IfaceTable
