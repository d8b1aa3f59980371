import IfaceTable.Proofs.Absorb
import IfaceTable.Registry.History
import Mathlib.Data.List.Chain

/-!
# Upkeep

Reconciling, refreshing and appending may fail at any point, and the host may tell something else
each time; still the table only grows, and only addresses are filled in.

* `Record.Persists`, `Registry.Extends`: what stays of one record, and of the table.
* `extends_of_absorb`: each report keeps it. `Registry.course`: every table that a history leads
  through, also between two reports of one snapshot.
* `extends_of_upkeep`: along the course of any upkeep each table extends all before it.
-/

namespace IfaceTable

/-- The later record is the earlier one, with the same address if that could be used. -/
structure Record.Persists (earlier later : Record) : Prop where
  fields : later = { earlier with address := later.address }
  address : earlier.hasAddress → later.address = earlier.address

/-- Each record of the earlier table is at its position in the later one. -/
def Registry.Extends (earlier later : Registry) : Prop :=
  ∀ (i : Nat) (record : Record), earlier.records[i]? = some record →
    ∃ kept, later.records[i]? = some kept ∧ record.Persists kept

namespace Record.Persists

theorem refl (record : Record) : record.Persists record := ⟨rfl, fun _ => rfl⟩

theorem hasAddress {earlier later : Record} (h : earlier.Persists later)
    (ha : earlier.hasAddress) : later.hasAddress := by
  rw [Iface.hasAddress_eq] at ha ⊢
  rwa [h.address (by rwa [Iface.hasAddress_eq])]

theorem trans {a b c : Record} (hab : a.Persists b) (hbc : b.Persists c) : a.Persists c := by
  refine ⟨?_, fun ha => (hbc.address (hab.hasAddress ha)).trans (hab.address ha)⟩
  rw [hbc.fields, hab.fields]

theorem offered (record : Record) (addresses : List Ipv4) :
    record.Persists (record.update (Iface.offered addresses)) := by
  refine ⟨rfl, fun ha => ?_⟩
  rw [Iface.hasAddress_eq] at ha
  simp only [update, Iface.offered, foldl_offer, ha, ↓reduceIte]

end Record.Persists

namespace Registry

/-! ## One event -/

theorem Extends.refl (registry : Registry) : registry.Extends registry :=
  fun _ record h => ⟨record, h, .refl record⟩

theorem Extends.trans {a b c : Registry} (hab : a.Extends b) (hbc : b.Extends c) :
    a.Extends c := by
  intro i record h
  obtain ⟨kept, hkept, hp⟩ := hab i record h
  obtain ⟨last, hlast, hp'⟩ := hbc i kept hkept
  exact ⟨last, hlast, hp.trans hp'⟩

instance : Trans Extends Extends Extends := ⟨Extends.trans⟩

theorem extends_of_append {registry next : Registry} {iface : Iface}
    (h : registry.append iface = .ok next) : registry.Extends next := by
  intro i record hi
  refine ⟨record, ?_, .refl record⟩
  rw [records_append h, List.getElem?_append_left (List.getElem?_eq_some_iff.mp hi).1]
  exact hi

theorem extends_fill {registry : Registry} {row : Row}
    (hrow : registry.records[row.2]? = some row.1) (address : Option Ipv4) :
    registry.Extends (registry.fill row address).1 := by
  intro i record hi
  rw [records_fill hrow, List.getElem?_modify, hi]
  by_cases hpos : row.2 = i
  · simp only [hpos, ↓reduceIte]
    exact ⟨_, rfl, .offered record address.toList⟩
  · simp only [hpos, ↓reduceIte]
    exact ⟨_, rfl, .refl record⟩

theorem extends_of_absorb {host : Host} {mode : Mode} {registry next : Registry} {report : Report}
    {changed : Bool} (h : absorb host mode registry report = .ok (next, changed)) :
    registry.Extends next := by
  obtain ⟨address, -, -, habsorbs⟩ := absorbs_of_absorb h
  cases habsorbs with
  | known hrow => exact extends_fill (getElem?_of_findByName? hrow) address
  | passed => exact .refl registry
  | added hnone hname hnext => exact extends_of_append hnext

/-! ## A whole history -/

/-- The tables after each of the reports up to the first one at fault. -/
def absorbCourse (host : Host) (mode : Mode) : Registry → List Report → List Registry
  | _, [] => []
  | registry, report :: reports =>
    let outcome := registry.perform (.absorb host mode report)
    outcome.registry ::
      match outcome.answer with
      | .error _ => []
      | .ok _ => absorbCourse host mode outcome.registry reports

/-- The tables that a snapshot of the host leads through. -/
def reconcileCourse (registry : Registry) (host : Host) (mode : Mode) : List Registry :=
  match host.snapshot with
  | .error _ => []
  | .ok reports => absorbCourse host mode registry reports

end Registry

/-- The tables that an event leads through before it is over. -/
def Event.course (registry : Registry) : Event → List Registry
  | populate host limit => registry.anew limit :: (registry.anew limit).reconcileCourse host .full
  | reconcile host mode => registry.reconcileCourse host mode
  | refresh host => registry.reconcileCourse host .refreshOnly
  | clear | append _ | limitGrowth _ | register _ | assign .. => []

namespace Registry

/-- The tables that a history leads through, from the first to the last. -/
def course (registry : Registry) : List Event → List Registry
  | [] => [registry]
  | event :: history => registry :: (event.course registry ++ course (event.apply registry) history)

theorem after_mem_course (registry : Registry) (history : List Event) :
    registry.after history ∈ registry.course history := by
  induction history generalizing registry with
  | nil => exact List.mem_singleton_self registry
  | cons event history ih =>
    exact List.mem_cons_of_mem _ (List.mem_append_right _ (ih (event.apply registry)))

theorem course_eq_cons (registry : Registry) (history : List Event) :
    ∃ later, registry.course history = registry :: later := by
  cases history with
  | nil => exact ⟨[], rfl⟩
  | cons event history => exact ⟨_, rfl⟩

theorem isChain_absorbCourse (host : Host) (mode : Mode) (registry : Registry)
    (reports : List Report) :
    (registry :: (absorbCourse host mode registry reports ++
      [(absorbAll host mode registry reports).1])).IsChain Extends := by
  induction reports generalizing registry with
  | nil => exact .cons_cons (.refl registry) (.singleton _)
  | cons report reports ih =>
    cases h : absorb host mode registry report with
    | error fault =>
      rw [absorbAll_cons_of_error h]
      simp only [absorbCourse, perform_absorb, h]
      exact .cons_cons (.refl registry) (.cons_cons (.refl registry) (.singleton _))
    | ok result =>
      obtain ⟨next, changed⟩ := result
      rw [absorbAll_cons_of_ok h]
      simp only [absorbCourse, perform_absorb, h]
      exact .cons_cons (extends_of_absorb h) (ih next)

theorem isChain_reconcileCourse (host : Host) (mode : Mode) (registry : Registry) :
    (registry :: (registry.reconcileCourse host mode ++
      [(registry.reconcile host mode).registry])).IsChain Extends := by
  unfold reconcileCourse
  cases h : host.snapshot with
  | error fault =>
    rw [reconcile_registry_of_error h]
    exact .cons_cons (.refl registry) (.singleton _)
  | ok reports =>
    rw [reconcile_registry h]
    exact isChain_absorbCourse host mode registry reports

theorem isChain_event_course {event : Event} (hupkeep : event.isUpkeep) (registry : Registry) :
    (registry :: (event.course registry ++ [event.apply registry])).IsChain Extends := by
  cases event with
  | reconcile host mode => exact isChain_reconcileCourse host mode registry
  | refresh host =>
    have h := isChain_reconcileCourse host .refreshOnly registry
    rwa [← refresh_registry] at h
  | append iface =>
    refine .cons_cons ?_ (.singleton _)
    rw [Event.apply_append]
    cases h : registry.append iface with
    | error fault => exact .refl registry
    | ok next => exact extends_of_append h
  | limitGrowth limit => exact .cons_cons (Extends.refl registry) (.singleton _)
  | populate | clear | register | assign => cases hupkeep

theorem isChain_course {history : List Event} (hupkeep : ∀ event ∈ history, event.isUpkeep)
    (registry : Registry) : (registry.course history).IsChain Extends := by
  induction history generalizing registry with
  | nil => exact .singleton registry
  | cons event history ih =>
    obtain ⟨later, hlater⟩ := course_eq_cons (event.apply registry) history
    have hhead := isChain_event_course (hupkeep event List.mem_cons_self) registry
    have htail := ih (fun e hmem => hupkeep e (List.mem_cons_of_mem event hmem))
      (event.apply registry)
    rw [hlater] at htail
    rw [course, hlater, List.append_cons]
    rw [← List.cons_append] at hhead ⊢
    exact hhead.append_overlap htail (List.cons_ne_nil _ _)

theorem extends_of_mem_course {history : List Event} (hupkeep : ∀ event ∈ history, event.isUpkeep)
    {registry table : Registry} (htable : table ∈ registry.course history) :
    registry.Extends table := by
  obtain ⟨later, hlater⟩ := course_eq_cons registry history
  have hpair := List.isChain_iff_pairwise.mp (isChain_course hupkeep registry)
  rw [hlater] at hpair htable
  exact hpair.rel_head_of_rel_head_head htable (.refl registry)

/-- Every record of the table is still at its position after any upkeep, with all its fields, but
for an address that could not be used; and from any moment on a usable address stays. -/
theorem extends_of_upkeep {history : List Event} (hupkeep : ∀ event ∈ history, event.isUpkeep)
    (registry : Registry) :
    registry.Extends (registry.after history) ∧ (registry.course history).Pairwise Extends := by
  have hpair := List.isChain_iff_pairwise.mp (isChain_course hupkeep registry)
  refine ⟨?_, hpair⟩
  obtain ⟨later, hlater⟩ := course_eq_cons registry history
  have hmem := after_mem_course registry history
  rw [hlater] at hmem hpair
  rcases List.mem_cons.mp hmem with heq | hmem
  · rw [heq]
    exact .refl registry
  · exact (List.pairwise_cons.mp hpair).1 _ hmem

/-- Two records of one name, of which the first has a VIF and waits for its address. -/
def twins : Registry :=
  Registry.after {}
    [.append { name := "eth0", ifindex := 2, address := some .unspecified, vif := 3 },
      .append { name := "eth0", ifindex := 2 }]

/-- Upkeep that goes wrong each time: no room for lo, then a text that is no address, and at last no
snapshot at all. -/
def brokenUpkeep : List Event :=
  [.limitGrowth 2,
    .reconcile ⟨.ok [⟨.text "eth0:1", 0, .ipv4, some (.octets [10, 0, 0, 6])⟩,
      ⟨.text "lo", 9, .absent, none⟩], []⟩ .full,
    .reconcile ⟨.ok [⟨.text "eth0", 0, .ipv4, some (.octets [10, 0, 0, 7])⟩,
      ⟨.text "eth0", 0, .ipv4, some (.octets [10])⟩], []⟩ .refreshOnly,
    .append { name := "lo", ifindex := 1 },
    .refresh ⟨.error (.enumeration 12 "Cannot allocate memory"), []⟩]

/-- Only the record with the VIF gets the address of the alias, and keeps it. -/
theorem extends_of_broken_upkeep :
    (∀ event ∈ brokenUpkeep, event.isUpkeep) ∧
      twins.Extends (twins.after brokenUpkeep) ∧
      (twins.course brokenUpkeep).Pairwise Extends ∧
      (twins.after brokenUpkeep).records.map
          (fun record => (record.name, record.vif, record.address)) =
        [("eth0", 3, some ⟨10, 0, 0, 6⟩), ("eth0", -1, none)] := by
  have hupkeep : ∀ event ∈ brokenUpkeep, event.isUpkeep := by decide
  obtain ⟨hafter, hcourse⟩ := extends_of_upkeep hupkeep twins
  exact ⟨hupkeep, hafter, hcourse, by decide⟩

end Registry

end IfaceTable
