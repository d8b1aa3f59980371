import IfaceTable.Registry.Basic

/-!
# Traversal

Two ways to go through the table while it changes.

* A `Walker` is a position. Each step looks at the table as it is by then, so a walker also comes
  to records that were added after it set out.
* A `Sweep` counts the records at its first step and takes as many steps as it counted. Each step
  reads a slot of the table as it is by then, so it may find a vacant one, or none at all, if the
  table was cleared meanwhile.
-/

namespace IfaceTable

/-- A walk through the table. -/
structure Walker where
  position : Nat := 0
  deriving DecidableEq, Repr

namespace Walker

/-- The record at the walker's position, if there is one, and the walker behind it. -/
def next (walker : Walker) (registry : Registry) : Option Record × Walker :=
  match registry.records[walker.position]? with
  | some record => (some record, ⟨walker.position + 1⟩)
  | none => (none, walker)

theorem next_of_lt {walker : Walker} {registry : Registry} {record : Record}
    (h : registry.records[walker.position]? = some record) :
    walker.next registry = (some record, ⟨walker.position + 1⟩) := by
  rw [next, h]

theorem next_of_le {walker : Walker} {registry : Registry} (h : registry.count ≤ walker.position) :
    walker.next registry = (none, walker) := by
  rw [next, List.getElem?_eq_none (by rwa [Registry.length_records])]

/-- A walker that comes to a record is in the table, and goes behind it. -/
theorem next_some {walker after : Walker} {registry : Registry} {record : Record}
    (h : walker.next registry = (some record, after)) :
    registry.records[walker.position]? = some record ∧ after = ⟨walker.position + 1⟩ := by
  unfold next at h
  split at h
  · next hget =>
    cases h
    exact ⟨hget, rfl⟩
  · cases h

/-- The records from the walker's position on, and the walker behind them. -/
def rest (walker : Walker) (registry : Registry) : List Record × Walker :=
  (registry.records.drop walker.position, ⟨max walker.position registry.count⟩)

end Walker

/-- A walk through as many records as there are at its first step. -/
inductive Sweep where
  /-- No step was taken yet. -/
  | waiting
  /-- The next slot, of the slots in front of `total`. -/
  | underway (total position : Nat)
  | done
  deriving DecidableEq, Repr

namespace Sweep

/-- What a step of a sweep comes to. -/
inductive Step where
  /-- A slot, which is vacant if it holds no record. -/
  | slot (content : Option Record)
  /-- The sweep is done. -/
  | finished
  deriving DecidableEq, Repr

/-- The next slot of the first `total` ones, and the sweep behind it. A sweep that comes to a
position without a slot is at fault and done. -/
def readSlot (registry : Registry) (total position : Nat) : Except Fault Step × Sweep :=
  if total ≤ position then (.ok .finished, done)
  else
    match registry.slots.cells[position]? with
    | some content => (.ok (.slot content), underway total (position + 1))
    | none => (.error .noSlot, done)

/-- One step of a sweep. -/
def next (sweep : Sweep) (registry : Registry) : Except Fault Step × Sweep :=
  match sweep with
  | waiting => readSlot registry registry.count 0
  | underway total position => readSlot registry total position
  | done => (.ok .finished, done)

end Sweep

end IfaceTable
