import IfaceTable.Proofs.Absorb
import IfaceTable.Registry.History

/-!
# Elementary changes

Whatever the table does of its own accord, it does by a few elementary changes: it is cleared or
put under a limit, a record comes last, or a record in it is changed. What none of these destroys is
kept by every operation, and by any number of them.

* `Registry.IsKept`: a property that no elementary change destroys. `IsKept.apply`: no event
  destroys it, but for an assignment from outside, which may also be to a record that is no longer
  in the table. `IsKept.after`: nor does a history.
* `Slots.IsTight`: only filled slots hold an item. `isTight_after`: this is kept.
-/

namespace IfaceTable

/-- The event is something that the table does, and not an assignment from outside. -/
def Event.isOwn : Event → Bool
  | populate .. | clear | reconcile .. | refresh _ | append _ | limitGrowth _ | register _ => true
  | assign .. => false

namespace Registry

/-- No elementary change of a table destroys the property. -/
structure IsKept (P : Registry → Prop) : Prop where
  clear : ∀ {registry : Registry}, P registry → P registry.clear
  append : ∀ {registry next : Registry} {iface : Iface}, P registry →
    registry.append iface = .ok next → P next
  modifyAt : ∀ {registry : Registry} (position : Nat) (f : Iface → Iface), P registry →
    P (registry.modifyAt position f)
  limitGrowth : ∀ {registry : Registry} (limit : Int), P registry → P (registry.limitGrowth limit)

namespace IsKept

variable {P : Registry → Prop} {registry : Registry}

theorem anew (h : IsKept P) (hstart : P registry) (limit : Option Int) :
    P (registry.anew limit) := by
  cases limit with
  | none => exact h.clear hstart
  | some limit => exact h.limitGrowth limit (h.clear hstart)

theorem fill (h : IsKept P) (hstart : P registry) (row : Row) (address : Option Ipv4) :
    P (registry.fill row address).1 := by
  unfold Registry.fill
  split
  · split
    · exact hstart
    · exact h.modifyAt _ _ hstart
  · exact hstart

theorem of_absorb (h : IsKept P) {host : Host} {mode : Mode} {next : Registry} {report : Report}
    {changed : Bool} (hstart : P registry)
    (habsorb : absorb host mode registry report = .ok (next, changed)) : P next := by
  obtain ⟨address, -, -, habsorbs⟩ := absorbs_of_absorb habsorb
  cases habsorbs with
  | known => exact h.fill hstart _ address
  | passed => exact hstart
  | added _ _ hnext => exact h.append hstart hnext

theorem reconcile (h : IsKept P) (hstart : P registry) (host : Host) (mode : Mode) :
    P (registry.reconcile host mode).registry :=
  reconcile_induction (fun _ _ _ _ _ _ _ hbefore => h.of_absorb hbefore) hstart

theorem registerAll (h : IsKept P) (hstart : P registry) (pattern : Option Pattern) :
    P (registry.registerAll pattern).1.registry := by
  refine registerAll_induction (fun state row hstate => ?_) hstart pattern
  unfold Registry.register
  simp only
  split
  · exact hstate
  · split
    · exact h.modifyAt _ _ hstate
    · exact hstate

theorem apply (h : IsKept P) {event : Event} (hown : event.isOwn) (hstart : P registry) :
    P (event.apply registry) := by
  cases event with
  | populate host limit => exact h.reconcile (h.anew hstart limit) host .full
  | clear => exact h.clear hstart
  | reconcile host mode => exact h.reconcile hstart host mode
  | refresh host =>
    rw [Event.apply, refresh_registry]
    exact h.reconcile hstart host .refreshOnly
  | append iface =>
    rw [Event.apply_append]
    cases happend : registry.append iface with
    | error fault => exact hstart
    | ok next => exact h.append hstart happend
  | limitGrowth limit => exact h.limitGrowth limit hstart
  | register pattern => exact h.registerAll hstart pattern
  | assign => cases hown

/-- What an assignment does not destroy either, no history does. -/
theorem after (h : IsKept P)
    (hassign : ∀ {registry : Registry} (id : Nat) (f : Iface → Iface), P registry →
      P (registry.modify id f))
    (hstart : P registry) (history : List Event) : P (registry.after history) := by
  refine after_induction (Q := fun _ => True) (fun event registry _ hbefore => ?_)
    (fun _ _ => trivial) hstart
  cases hown : event.isOwn with
  | true => exact h.apply hown hbefore
  | false =>
    cases event with
    | assign id values => exact hassign id values.apply hbefore
    | _ => cases hown

end IsKept

end Registry

/-! ## Slots behind the filled ones -/

namespace Slots

variable {α : Type} {s t : Slots α}

/-- Only filled slots hold an item. -/
def IsTight (s : Slots α) : Prop := ∀ (i : Nat) (a : α), s.cells[i]? = some (some a) → i < s.count

/-- An item in a slot is one of the items. -/
theorem IsTight.mem_toList (h : s.IsTight) {i : Nat} {a : α} (hcell : s.cells[i]? = some (some a)) :
    a ∈ s.toList := by
  have hitem := s.cells_getElem? (h i a hcell)
  rw [hcell, Option.some.injEq] at hitem
  exact List.mem_of_getElem? hitem.symm

theorem isTight_empty : (empty : Slots α).IsTight := by
  intro i a hcell
  cases i <;> simp [empty] at hcell

theorem IsTight.doubled (h : s.IsTight) : s.doubled.IsTight := by
  intro i a hcell
  rw [Slots.doubled, List.getElem?_append] at hcell
  split at hcell
  · exact h i a hcell
  · simp [List.getElem?_replicate] at hcell

theorem IsTight.place (h : s.IsTight) (a : α) (hroom : s.count < s.capacity) :
    (s.place a hroom).IsTight := by
  intro i b hcell
  simp only [Slots.place, List.getElem?_set] at hcell ⊢
  split at hcell
  · omega
  · have := h i b hcell
    omega

theorem IsTight.of_append? (h : s.IsTight) {a : α} (happend : s.append? a = some t) :
    t.IsTight := by
  unfold append? at happend
  split at happend
  · cases happend
    exact h.place a _
  · split at happend
    · cases happend
      exact h.doubled.place a _
    · cases happend

theorem IsTight.modify (h : s.IsTight) (position : Nat) (f : α → α) :
    (s.modify position f).IsTight := by
  intro i a hcell
  simp only [Slots.modify, List.getElem?_modify, Option.map_eq_map, Option.map_eq_some_iff] at hcell
  obtain ⟨cell, hold, hcell⟩ := hcell
  cases cell with
  | none => split at hcell <;> simp at hcell
  | some b => exact h i b hold

end Slots

namespace Registry

theorem isTight_after {registry : Registry} (h : registry.slots.IsTight) (history : List Event) :
    (registry.after history).slots.IsTight := by
  have hkept : IsKept fun registry => registry.slots.IsTight :=
    { clear := fun _ => Slots.isTight_empty
      append := fun {registry next iface} h happend => by
        unfold Registry.append at happend
        split at happend
        · next slots hslots =>
          cases happend
          exact h.of_append? hslots
        · cases happend
      modifyAt := fun position f h => h.modify position (Record.update f)
      limitGrowth := fun _ h => h }
  refine hkept.after (fun {registry} id f h => ?_) h history
  unfold modify
  split
  · exact h.modify _ _
  · exact h

end Registry

end IfaceTable
