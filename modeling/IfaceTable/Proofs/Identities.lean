import IfaceTable.Proofs.Elementary

/-!
# Identities

A record gets the next identity as it is added, and keeps it for good, also when the table is
cleared. So the identities of all records that were ever in the table are 0, 1, 2 and so on, each
given once, in the order in which the records came.

* `Registry.InOrder`: this invariant. `inOrder_after`: every history keeps it.
* `not_mem_everIds`: an identity that is not below the next one is that of no record.
* `ids_absorbAll`: the records that a pass adds have the identities that come next.
* `ids_prefix_apply`: as long as no record is taken out, each keeps its position.
-/

namespace IfaceTable

namespace Registry

/-- The identities of the records, in order. -/
def ids (registry : Registry) : List Nat := registry.records.map fun record => record.id

theorem length_ids (registry : Registry) : registry.ids.length = registry.records.length :=
  List.length_map _

theorem getElem?_ids {registry : Registry} {record : Record} {i : Nat}
    (h : registry.records[i]? = some record) : registry.ids[i]? = some record.id := by
  rw [ids, List.getElem?_map, h, Option.map_some]

/-- The identities of all records that are or were in the table, oldest first. -/
def everIds (registry : Registry) : List Nat :=
  registry.retired.map (fun record => record.id) ++ registry.ids

/-- The identities of the records that are no longer in the table. -/
def retiredIds (registry : Registry) : List Nat := registry.retired.map fun record => record.id

theorem everIds_eq (registry : Registry) : registry.everIds = registry.retiredIds ++ registry.ids :=
  rfl

/-- Identities were given one after the other, each to one record. -/
def InOrder (registry : Registry) : Prop := registry.everIds = List.range registry.nextId

instance (registry : Registry) : Decidable registry.InOrder := inferInstanceAs (Decidable (_ = _))

/-- An identity that is not given yet is that of no record. -/
theorem not_mem_everIds {registry : Registry} (h : registry.InOrder) {id : Nat}
    (hid : registry.nextId ≤ id) : id ∉ registry.everIds := by
  rw [h, List.mem_range]
  omega

variable {host : Host} {mode : Mode} {registry next : Registry} {report : Report}

/-! ## One step -/

theorem inOrder_clear (h : registry.InOrder) : registry.clear.InOrder := by
  have hever : registry.clear.everIds = registry.everIds := by
    rw [everIds, ids, records_clear, List.map_nil, List.append_nil]
    exact List.map_append
  rw [InOrder, hever]
  exact h

theorem ids_append {iface : Iface} (h : registry.append iface = .ok next) :
    next.ids = registry.ids ++ [registry.nextId] := by
  rw [ids, records_append h, List.map_append]
  rfl

theorem nextId_of_append {iface : Iface} (h : registry.append iface = .ok next) :
    next.nextId = registry.nextId + 1 ∧ next.retired = registry.retired := by
  unfold append at h
  split at h
  · cases h
    exact ⟨rfl, rfl⟩
  · cases h

theorem inOrder_of_append {iface : Iface} (h : registry.append iface = .ok next)
    (horder : registry.InOrder) : next.InOrder := by
  obtain ⟨hnext, hretired⟩ := nextId_of_append h
  rw [InOrder, everIds, hretired, ids_append h, ← List.append_assoc, hnext, List.range_succ]
  exact congrArg (· ++ [registry.nextId]) horder

theorem ids_modifyAt (registry : Registry) (position : Nat) (f : Iface → Iface) :
    (registry.modifyAt position f).ids = registry.ids :=
  map_records_modifyAt _ registry position fun _ => rfl

/-- A change to a record in the table leaves all identities as they are. -/
theorem inOrder_modifyAt (h : registry.InOrder) (position : Nat) (f : Iface → Iface) :
    (registry.modifyAt position f).InOrder := by
  rw [InOrder, everIds, ids_modifyAt]
  exact h

theorem retiredIds_modify (registry : Registry) (id : Nat) (f : Iface → Iface) :
    (registry.modify id f).retiredIds = registry.retiredIds := by
  unfold modify
  split
  · rfl
  · simp only [retiredIds, List.map_map]
    refine List.map_congr_left fun record _ => ?_
    simp only [Function.comp_apply]
    split <;> rfl

/-- So does a change to a record that was in the table before. -/
theorem inOrder_modify (h : registry.InOrder) (id : Nat) (f : Iface → Iface) :
    (registry.modify id f).InOrder := by
  have hids : (registry.modify id f).ids = registry.ids := map_records_modify _ _ _ fun _ => rfl
  have hnext : (registry.modify id f).nextId = registry.nextId := by
    unfold modify
    split <;> rfl
  rw [InOrder, everIds_eq, retiredIds_modify, hids, hnext]
  exact h

theorem ids_fill (registry : Registry) (row : Row) (address : Option Ipv4) :
    (registry.fill row address).1.ids = registry.ids :=
  map_records_fill _ registry row address fun _ _ => rfl

theorem nextId_fill (registry : Registry) (row : Row) (address : Option Ipv4) :
    (registry.fill row address).1.nextId = registry.nextId ∧
      (registry.fill row address).1.retired = registry.retired := by
  unfold fill
  split
  · split <;> exact ⟨rfl, rfl⟩
  · exact ⟨rfl, rfl⟩

/-! ## Histories -/

theorem isKept_inOrder : IsKept InOrder where
  clear := inOrder_clear
  append := fun horder h => inOrder_of_append h horder
  modifyAt := fun position f h => inOrder_modifyAt h position f
  limitGrowth := fun _ h => h

/-- Whatever happens, no identity is given twice. -/
theorem inOrder_after (h : registry.InOrder) (history : List Event) :
    (registry.after history).InOrder :=
  isKept_inOrder.after (fun id f horder => inOrder_modify horder id f) h history

/-! ## New records -/

/-- The records that a pass adds have the identities that come next, wherever it ends. -/
theorem ids_absorbAll (host : Host) (mode : Mode) (registry : Registry) (reports : List Report) :
    ∃ added, (absorbAll host mode registry reports).1.ids =
        registry.ids ++ List.range' registry.nextId added ∧
      (absorbAll host mode registry reports).1.nextId = registry.nextId + added := by
  apply absorbAll_induction (P := fun later => ∃ added,
    later.ids = registry.ids ++ List.range' registry.nextId added ∧
      later.nextId = registry.nextId + added)
  · rintro report - before next changed ⟨added, hids, hnext⟩ h
    obtain ⟨address, -, -, habsorbs⟩ := absorbs_of_absorb h
    cases habsorbs with
    | known => exact ⟨added, by rw [ids_fill, hids], by rw [(nextId_fill ..).1, hnext]⟩
    | passed => exact ⟨added, hids, hnext⟩
    | added hnone hname happend =>
      refine ⟨added + 1, ?_, ?_⟩
      · rw [ids_append happend, hids, hnext, List.range'_1_concat, ← List.append_assoc]
      · rw [(nextId_of_append happend).1, hnext, Nat.add_assoc]
  · exact ⟨0, by simp, rfl⟩

theorem ids_prefix_of_eq (h : next.ids = registry.ids) : registry.ids <+: next.ids :=
  ⟨[], by rw [List.append_nil, h]⟩

theorem ids_prefix_reconcile (registry : Registry) (host : Host) (mode : Mode) :
    registry.ids <+: (registry.reconcile host mode).registry.ids := by
  cases h : host.snapshot with
  | error fault =>
    exact ids_prefix_of_eq (by rw [reconcile_registry_of_error h])
  | ok reports =>
    obtain ⟨added, hids, -⟩ := ids_absorbAll host mode registry reports
    rw [reconcile_registry h, hids]
    exact List.prefix_append _ _

/-- A change to the fields of a record leaves each record at its position. -/
theorem ids_prefix_modify (registry : Registry) (id : Nat) (change : Iface → Iface) :
    registry.ids <+: (registry.modify id change).ids :=
  ids_prefix_of_eq (map_records_modify _ registry id fun _ => rfl)

/-- What takes no record out of the table leaves each at its position, with new ones behind. -/
theorem ids_prefix_apply {event : Event} (hkeeps : event.keepsRecords) (registry : Registry) :
    registry.ids <+: (event.apply registry).ids := by
  cases event with
  | reconcile host mode => exact ids_prefix_reconcile registry host mode
  | refresh host =>
    rw [Event.apply, refresh_registry]
    exact ids_prefix_reconcile registry host .refreshOnly
  | append iface =>
    rw [Event.apply_append]
    cases happend : registry.append iface with
    | error fault => exact List.prefix_refl _
    | ok next =>
      rw [Except.toOption, Option.getD_some, ids_append happend]
      exact List.prefix_append _ _
  | limitGrowth limit => exact List.prefix_refl _
  | register pattern =>
    exact ids_prefix_of_eq (map_records_registerAll _ (fun _ _ => rfl) registry pattern)
  | assign id values => exact ids_prefix_modify registry id values.apply
  | populate | clear => cases hkeeps

end Registry

end IfaceTable
