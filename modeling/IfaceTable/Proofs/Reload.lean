import IfaceTable.Proofs.Identities
import IfaceTable.Proofs.Seek
import IfaceTable.Registry.Status
import IfaceTable.Registry.Traversal

/-!
# A new start

Filling the table anew, whether or not it comes to its end, takes all records out of it, and whoever
holds a reference to one of these holds a record that the table does not come back to.

* `Registry.Yields`: what operations give out, with cursors, walkers and sweeps of any age.
  `Yields.mem_records`: it is in the table at that moment.
* `retired_after`: what is no longer in the table stays as it is, unless someone else writes to it.
  `lookup?_of_mem_retired`: a reference to it leads to it.
* `isUnassigned_populate`: nothing in the new table has a number yet.
* `reload_shares_nothing`: the new table and the old records have nothing to do with each other.
-/

namespace IfaceTable

/-- The record has what a new one has; nothing is said of its address. -/
structure Record.IsUnassigned (record : Record) (threshold : Int) : Prop where
  vif : record.vif = -1
  mif : record.mif = -1
  mrdisc : record.mrdisc = false
  threshold : record.threshold = threshold

namespace Registry

/-- Some history leads from a new registry to this one. -/
def IsReachable (registry : Registry) : Prop :=
  ∃ (routesIpv6 : Bool) (threshold : Int) (history : List Event),
    registry = after { routesIpv6, threshold } history

/-- Some operation gives out the record, whatever cursor, walker or sweep it goes on with. -/
inductive Yields (registry : Registry) : Record → Prop
  | find {ifindex : Int} {row : Row} (h : registry.find? ifindex = some row) :
    Yields registry row.1
  | findByName {name : Option String} {row : Row} (h : registry.findByName? name = some row) :
    Yields registry row.1
  | findByVif {vif : Int} {row : Row} (h : registry.findByVif? vif = some row) :
    Yields registry row.1
  | recordAt {position : Int} {record : Record} (h : registry.recordAt position = .ok record) :
    Yields registry record
  | search {kind : SearchKind} {pattern : Pattern} {cursor after : Cursor} {row : Row}
    (h : registry.search kind pattern cursor = .ok (some row, after)) : Yields registry row.1
  | selection {pattern : Option Pattern} {record : Record}
    (h : record ∈ (registry.selection pattern).1) : Yields registry record
  | walk {walker : Walker} {record : Record} (h : (walker.next registry).1 = some record) :
    Yields registry record
  | walkRest {walker : Walker} {record : Record} (h : record ∈ (walker.rest registry).1) :
    Yields registry record
  | sweep {sweep : Sweep} {record : Record}
    (h : (sweep.next registry).1 = .ok (.slot (some record))) : Yields registry record

variable {registry before table : Registry} {record : Record}

/-! ## What is given out -/

theorem mem_records_of_walker {walker : Walker} (h : (walker.next registry).1 = some record) :
    record ∈ registry.records := by
  unfold Walker.next at h
  split at h
  · next hget =>
    cases h
    exact List.mem_of_getElem? hget
  · cases h

theorem mem_records_of_sweep (htight : registry.slots.IsTight) {sweep : Sweep}
    (h : (sweep.next registry).1 = .ok (.slot (some record))) : record ∈ registry.records := by
  have hslot : ∀ total position,
      (Sweep.readSlot registry total position).1 = .ok (.slot (some record)) →
        record ∈ registry.records := by
    intro total position h
    unfold Sweep.readSlot at h
    split at h
    · cases h
    · split at h
      · next hcell =>
        cases h
        exact htight.mem_toList hcell
      · cases h
  cases sweep with
  | waiting => exact hslot _ _ h
  | underway total position => exact hslot _ _ h
  | done => cases h

theorem mem_records_of_selection {pattern : Option Pattern}
    (h : record ∈ (registry.selection pattern).1) : record ∈ registry.records := by
  cases pattern with
  | none => exact h
  | some pattern =>
    obtain ⟨row, hrow, rfl⟩ := List.mem_map.mp h
    have hrow : row ∈ registry.selectedRows (some pattern) := by rwa [← matchAll_fst]
    exact List.mem_of_getElem? (mem_rows.mp (List.mem_of_mem_filter hrow))

/-- Only records that are in the table at that moment are given out. -/
theorem Yields.mem_records (h : registry.Yields record) (htight : registry.slots.IsTight) :
    record ∈ registry.records := by
  cases h with
  | find h => exact List.mem_of_getElem? (mem_rows.mp (List.mem_of_find?_eq_some h))
  | findByName h => exact List.mem_of_getElem? (getElem?_of_findByName? h)
  | findByVif h => exact List.mem_of_getElem? (mem_rows.mp (List.mem_of_find?_eq_some h))
  | @recordAt position _ h =>
    unfold Registry.recordAt Slots.at? at h
    split at h
    · next hget =>
      cases h
      split at hget
      · cases hget
      · exact List.mem_of_getElem? hget
    · cases h
  | search h => exact List.mem_of_getElem? (getElem?_of_search h)
  | selection h => exact mem_records_of_selection h
  | walk h => exact mem_records_of_walker h
  | walkRest h => exact List.mem_of_mem_drop h
  | sweep h => exact mem_records_of_sweep htight h

/-! ## Records that are no longer in the table -/

/-- An identity is that of one record, in the table or not. -/
theorem InOrder.nodup (h : registry.InOrder) : (registry.retiredIds ++ registry.ids).Nodup := by
  rw [← everIds_eq, h]
  exact List.nodup_range

theorem InOrder.id_not_mem_retiredIds (h : registry.InOrder) (hrecord : record ∈ registry.records) :
    record.id ∉ registry.retiredIds := fun hretired =>
  (List.nodup_append.mp h.nodup).2.2 _ hretired _ (List.mem_map_of_mem hrecord) rfl

/-- A reference leads to the record with its identity. -/
theorem lookup?_of_mem (h : registry.InOrder)
    (hrecord : record ∈ registry.records ++ registry.retired) :
    registry.lookup? record.id = some record := by
  have hnodup : ((registry.records ++ registry.retired).map fun record => record.id).Nodup := by
    rw [List.map_append]
    exact List.nodup_append_comm.mp h.nodup
  unfold lookup?
  cases hfind : (registry.records ++ registry.retired).find? (·.id = record.id) with
  | none => simpa using List.find?_eq_none.mp hfind record hrecord
  | some other =>
    have hid : other.id = record.id := by simpa using List.find?_some hfind
    exact congrArg some
      (List.inj_on_of_nodup_map hnodup (List.mem_of_find?_eq_some hfind) hrecord hid)

theorem retired_apply {event : Event} (hown : event.isOwn) (registry : Registry) :
    registry.retired <+: (event.apply registry).retired := by
  have hkept : IsKept fun later => registry.retired <+: later.retired :=
    { clear := fun h => h.trans (List.prefix_append _ _)
      append := fun h happend => by rwa [(nextId_of_append happend).2]
      modifyAt := fun _ _ h => h
      limitGrowth := fun _ h => h }
  exact hkept.apply hown (List.prefix_refl _)

theorem retired_after {history : List Event} (hown : ∀ event ∈ history, event.isOwn)
    (registry : Registry) : registry.retired <+: (registry.after history).retired :=
  after_induction (P := fun later => registry.retired <+: later.retired)
    (fun _ later hevent h => h.trans (retired_apply hevent later)) hown (List.prefix_refl _)

theorem retiredIds_after (registry : Registry) (history : List Event) :
    registry.retiredIds <+: (registry.after history).retiredIds := by
  have hkept : IsKept fun later => registry.retiredIds <+: later.retiredIds :=
    { clear := fun {later} h => h.trans (by simp [retiredIds, clear])
      append := fun h happend => by simpa only [retiredIds, (nextId_of_append happend).2] using h
      modifyAt := fun _ _ h => h
      limitGrowth := fun _ h => h }
  exact hkept.after (fun id f h => by rwa [retiredIds_modify]) (List.prefix_refl _) history

/-- A record that is no longer in the table is not written to. -/
theorem lookup?_apply (h : registry.InOrder) {event : Event} (hown : event.isOwn) {id : Nat}
    (hid : id ∈ registry.retiredIds) :
    (event.apply registry).lookup? id = registry.lookup? id := by
  obtain ⟨record, hrecord, rfl⟩ := List.mem_map.mp hid
  have hlater : (event.apply registry).InOrder := inOrder_after h [event]
  rw [lookup?_of_mem h (List.mem_append_right _ hrecord),
    lookup?_of_mem hlater (List.mem_append_right _ ((retired_apply hown registry).subset hrecord))]

/-! ## A new table -/

theorem retired_reconcile (registry : Registry) (host : Host) (mode : Mode) :
    (registry.reconcile host mode).registry.retired = registry.retired := by
  apply reconcile_induction (P := fun later => later.retired = registry.retired)
  · intro _ _ report _ earlier next changed hearlier h
    obtain ⟨address, -, -, habsorbs⟩ := absorbs_of_absorb h
    cases habsorbs with
    | known => rw [(nextId_fill earlier _ address).2, hearlier]
    | passed => exact hearlier
    | added _ _ hnext => rw [(nextId_of_append hnext).2, hearlier]
  · rfl

theorem retired_populate (registry : Registry) (host : Host) (limit : Option Int) :
    (registry.populate host limit).registry.retired = registry.retired ++ registry.records := by
  rw [populate_registry, retired_reconcile, retired_anew]

theorem retiredIds_populate (registry : Registry) (host : Host) (limit : Option Int) :
    (registry.populate host limit).registry.retiredIds = registry.everIds := by
  rw [retiredIds, retired_populate, List.map_append]
  rfl

/-- Wherever filling the table ends, its records have no numbers and the threshold of the table. -/
theorem isUnassigned_populate (registry : Registry) (host : Host) (limit : Option Int) :
    ∀ record ∈ (registry.populate host limit).registry.records,
      record.IsUnassigned registry.threshold := by
  have hkept : (registry.populate host limit).registry.threshold = registry.threshold ∧
      ∀ record ∈ (registry.populate host limit).registry.records,
        record.IsUnassigned registry.threshold := by
    apply reconcile_induction (P := fun later => later.threshold = registry.threshold ∧
      ∀ record ∈ later.records, record.IsUnassigned registry.threshold)
    · intro _ _ report _ earlier next changed hearlier h
      refine ⟨(settings_of_absorb h).threshold.trans hearlier.1, fun record hrecord => ?_⟩
      obtain ⟨address, -, -, habsorbs⟩ := absorbs_of_absorb h
      cases habsorbs with
      | @known _ row hrow =>
        have hget := getElem?_of_findByName? hrow
        rcases mem_records_fill hget hrecord with rfl | ⟨i, hold, -⟩
        · obtain ⟨hvif, hmif, hmrdisc, hthreshold⟩ := hearlier.2 row.1 (List.mem_of_getElem? hget)
          exact ⟨hvif, hmif, hmrdisc, hthreshold⟩
        · exact hearlier.2 record (List.mem_of_getElem? hold)
      | added _ _ hnext =>
        rcases mem_records_of_append hnext hrecord with hold | hnew
        · exact hearlier.2 record hold
        · rw [← hearlier.1]
          exact ⟨by rw [hnew]; rfl, by rw [hnew]; rfl, by rw [hnew]; rfl, by rw [hnew]; rfl⟩
    · exact ⟨threshold_anew registry limit, by simp⟩
  exact hkept.2

theorem IsReachable.inOrder (h : registry.IsReachable) : registry.InOrder := by
  obtain ⟨routesIpv6, threshold, history, rfl⟩ := h
  exact inOrder_after (show InOrder { routesIpv6, threshold } from rfl) history

theorem IsReachable.isTight (h : registry.IsReachable) : registry.slots.IsTight := by
  obtain ⟨routesIpv6, threshold, history, rfl⟩ := h
  exact isTight_after Slots.isTight_empty history

theorem IsReachable.after (h : registry.IsReachable) (history : List Event) :
    (registry.after history).IsReachable := by
  obtain ⟨routesIpv6, threshold, earlier, rfl⟩ := h
  exact ⟨routesIpv6, threshold, earlier ++ history, (after_append _ _ _).symm⟩

/-- After the table was filled anew, or the attempt has failed at any point, be it for want of room,
no record in it was there before, and none has a number yet. Whatever happens then, no operation
gives out an old record or writes to one, also if it goes on with a cursor, a walker or a sweep from
before; so as long as nobody else writes to them, all references to old records lead to what they
led to before. -/
theorem reload_shares_nothing (hbefore : before.IsReachable) (host : Host) (limit : Option Int) :
    (∀ record ∈ (before.populate host limit).registry.records,
        record.id ∉ before.everIds ∧ record.IsUnassigned before.threshold) ∧
      ∀ history : List Event,
        (∀ record, ((before.populate host limit).registry.after history).Yields record →
          record.id ∉ before.everIds) ∧
        (∀ event : Event, event.isOwn → ∀ id ∈ before.everIds,
          (event.apply ((before.populate host limit).registry.after history)).lookup? id =
            ((before.populate host limit).registry.after history).lookup? id) ∧
        ((∀ event ∈ history, event.isOwn) → ∀ id ∈ before.everIds, ∃ record,
          before.lookup? id = some record ∧
            ((before.populate host limit).registry.after history).lookup? id = some record) := by
  have hnew : (before.populate host limit).registry.IsReachable :=
    hbefore.after [.populate host limit]
  have hold : before.everIds = (before.populate host limit).registry.retiredIds :=
    (retiredIds_populate before host limit).symm
  have hstale (history : List Event) :
      before.everIds ⊆ ((before.populate host limit).registry.after history).retiredIds := by
    rw [hold]
    exact (retiredIds_after _ history).subset
  refine ⟨fun record hrecord => ⟨?_, isUnassigned_populate before host limit record hrecord⟩,
    fun history => ⟨fun record hyields => ?_, fun event hown id hid => ?_, fun hown id hid => ?_⟩⟩
  · rw [hold]
    exact hnew.inOrder.id_not_mem_retiredIds hrecord
  · have hlater := hnew.after history
    exact fun hid => hlater.inOrder.id_not_mem_retiredIds (hyields.mem_records hlater.isTight)
      (hstale history hid)
  · exact lookup?_apply (hnew.after history).inOrder hown (hstale history hid)
  · -- The records from before stand at the front of the retired ones, and stay there.
    have hfront : before.retired ++ before.records <+:
        ((before.populate host limit).registry.after history).retired := by
      rw [← retired_populate before host limit]
      exact retired_after hown _
    rw [everIds_eq, retiredIds, ids, ← List.map_append] at hid
    obtain ⟨record, hrecord, rfl⟩ := List.mem_map.mp hid
    refine ⟨record, lookup?_of_mem hbefore.inOrder ?_,
      lookup?_of_mem (hnew.after history).inOrder (List.mem_append_right _ (hfront.subset hrecord))⟩
    exact List.mem_append.mpr (List.mem_append.mp hrecord).symm

/-- A table in use, in which eth0 is registered. -/
def inUse : Registry :=
  after {}
    [.populate ⟨.ok [⟨.text "eth0", 0, .ipv4, some (.octets [10, 0, 0, 5])⟩,
        ⟨.text "lo", 8, .ipv4, some (.octets [127, 0, 0, 1])⟩], [("eth0", 2), ("lo", 1)]⟩,
      .assign 0 { vif := some 0 }]

/-- A host on which eth0 has lost its address, and of whose interfaces the last one is reported with
something that is none. -/
def halfway : Host :=
  ⟨.ok [⟨.text "eth0", 0, .absent, none⟩, ⟨.text "lo", 8, .ipv4, some (.octets [127])⟩],
    [("eth0", 2)]⟩

/-- A host with one interface more than a table under a limit of 1 has room for. -/
def crowd : Host := ⟨.ok [⟨.text "lo", 8, .absent, none⟩, ⟨.text "eth0", 0, .absent, none⟩], []⟩

/-- Later eth0 gets another address. -/
def otherAddress : List Event :=
  [.refresh ⟨.ok [⟨.text "eth0", 0, .ipv4, some (.octets [10, 0, 0, 9])⟩], []⟩]

/-- Two reloads fail with one record in the table, one over a report and one for want of room. After
the first one, the reference to the old record still leads to its VIF and its address, and a walker
from before the reload comes to the new record. -/
theorem reload_shares_nothing_halfway :
    inUse.IsReachable ∧ inUse.everIds = [0, 1] ∧
      (inUse.populate halfway).answer.isOk = false ∧
      (∀ record ∈ (inUse.populate halfway).registry.records,
        record.id ∉ [0, 1] ∧ record.IsUnassigned 1) ∧
      (inUse.populate crowd (some 1)).answer = .error (.exit .fatal) ∧
      (inUse.populate crowd (some 1)).registry.count = 1 ∧
      (∀ record ∈ (inUse.populate crowd (some 1)).registry.records,
        record.id ∉ [0, 1] ∧ record.IsUnassigned 1) ∧
      (∀ event ∈ otherAddress, event.isOwn) ∧
      (∃ record, inUse.lookup? 0 = some record ∧
        ((inUse.populate halfway).registry.after otherAddress).lookup? 0 = some record ∧
        record.vif = 0 ∧ record.address = some ⟨10, 0, 0, 5⟩) ∧
      ∃ record, (Walker.next ⟨0⟩ ((inUse.populate halfway).registry.after otherAddress)).1 =
        some record ∧ record.id ∉ [0, 1] ∧ record.address = some ⟨10, 0, 0, 9⟩ := by
  have hreachable : inUse.IsReachable := ⟨true, 1, _, rfl⟩
  have hever : inUse.everIds = [0, 1] := by decide
  have hown : ∀ event ∈ otherAddress, event.isOwn := by decide
  obtain ⟨hnew, hlater⟩ := reload_shares_nothing hreachable halfway none
  obtain ⟨hfew, -⟩ := reload_shares_nothing hreachable crowd (some 1)
  obtain ⟨hyields, -, hkept⟩ := hlater otherAddress
  rw [hever] at hnew hfew hyields hkept
  obtain ⟨old, hbefore, hafter⟩ := hkept hown 0 (by decide)
  have hold : (inUse.lookup? 0).map (fun record => (record.vif, record.address)) =
      some (0, some ⟨10, 0, 0, 5⟩) := by decide
  rw [hbefore, Option.map_some, Option.some.injEq, Prod.mk.injEq] at hold
  obtain ⟨record, hwalk, haddress⟩ :
      ∃ record, (Walker.next ⟨0⟩ ((inUse.populate halfway).registry.after otherAddress)).1 =
        some record ∧ record.address = some ⟨10, 0, 0, 9⟩ := ⟨_, rfl, rfl⟩
  exact ⟨hreachable, hever, by decide, hnew, by decide, by decide, hfew, hown,
    ⟨old, hbefore, hafter, hold⟩, record, hwalk, hyields record (.walk hwalk), haddress⟩

end Registry

end IfaceTable
