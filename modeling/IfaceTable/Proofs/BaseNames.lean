import IfaceTable.Proofs.Absorb
import IfaceTable.Registry.History

/-!
# Base names

The table never asks whether a new record has a name of its own. Still no two records share a name
without a colon, since a record is only added where no record has the base of its name, and no
record is nameless.

* `DistinctBases`: the invariant. It is about the names alone, so whatever writes other fields
  keeps it (`names_modify`, `names_registerAll`).
* `distinctBases_after`: it holds along every history of the daemon whose snapshots report names
  that fit.
* `base_names_resolve`: a base name, alone or with any alias label, stands for the one record that
  has it.
-/

namespace IfaceTable

/-- No name is empty, and no two are the same without a colon. -/
structure DistinctBases (names : List String) : Prop where
  ne_empty : ∀ name ∈ names, name ≠ ""
  nodup : (names.filter fun name => IsBase name).Nodup

/-- If the report gives a name, it is not empty and the table need not cut it. -/
def Report.NameFits (report : Report) : Prop :=
  ∀ name ∈ report.name.text?, name ≠ "" ∧ name.length ≤ nameLimit

instance (report : Report) : Decidable report.NameFits :=
  inferInstanceAs (Decidable (∀ _ ∈ _, _))

/-- All names that the host reports fit. -/
def Host.NamesFit (host : Host) : Prop :=
  ∀ reports ∈ host.snapshot.toOption, ∀ report ∈ reports, report.NameFits

instance (host : Host) : Decidable host.NamesFit := inferInstanceAs (Decidable (∀ _ ∈ _, _))

/-- An event in the life of the daemon, who puts nothing into the table but what hosts report under
names that fit. -/
def Event.IsFitting : Event → Prop
  | populate host _ | reconcile host _ | refresh host => host.NamesFit
  | append _ => False
  | clear | limitGrowth _ | register _ | assign .. => True

instance : (event : Event) → Decidable event.IsFitting
  | .populate host _ | .reconcile host _ | .refresh host => inferInstanceAs (Decidable host.NamesFit)
  | .append _ => inferInstanceAs (Decidable False)
  | .clear | .limitGrowth _ | .register _ | .assign .. => inferInstanceAs (Decidable True)

namespace DistinctBases

theorem nil : DistinctBases [] := ⟨by simp, by simp⟩

/-- A new name may come last if it is not there yet, or has a colon. -/
theorem append {names : List String} (h : DistinctBases names) {name : String} (hne : name ≠ "")
    (hnew : IsBase name → name ∉ names) : DistinctBases (names ++ [name]) := by
  refine ⟨?_, ?_⟩
  · intro other hmem
    rcases List.mem_append.mp hmem with hmem | hmem
    · exact h.ne_empty other hmem
    · rwa [List.mem_singleton.mp hmem]
  · rw [List.filter_append]
    by_cases hbase : IsBase name
    · rw [List.filter_cons_of_pos (by simpa using hbase), List.filter_nil]
      refine List.nodup_append.mpr ⟨h.nodup, by simp, ?_⟩
      rintro a ha b hb rfl
      rw [List.mem_singleton.mp hb] at ha
      exact hnew hbase (List.mem_filter.mp ha).1
    · rw [List.filter_cons_of_neg (by simpa using hbase), List.filter_nil, List.append_nil]
      exact h.nodup

/-- A name without a colon is at one position only. -/
theorem index_eq {names : List String} (h : DistinctBases names) {name : String} {i j : Nat}
    (hbase : IsBase name) (hi : names[i]? = some name) (hj : names[j]? = some name) : i = j := by
  have hpair := List.pairwise_iff_getElem.mp (List.pairwise_filter.mp h.nodup)
  obtain ⟨hi', hi⟩ := List.getElem?_eq_some_iff.mp hi
  obtain ⟨hj', hj⟩ := List.getElem?_eq_some_iff.mp hj
  rcases Nat.lt_trichotomy i j with hlt | heq | hlt
  · exact absurd (hi.trans hj.symm) (hpair i j hi' hj' hlt (by simpa [hi]) (by simpa [hj]))
  · exact heq
  · exact absurd (hj.trans hi.symm) (hpair j i hj' hi' hlt (by simpa [hj]) (by simpa [hi]))

end DistinctBases

namespace Registry

/-- The names of the records, in order. -/
def names (registry : Registry) : List String := registry.records.map fun record => record.name

theorem getElem?_names {registry : Registry} {i : Nat} {record : Record}
    (h : registry.records[i]? = some record) : registry.names[i]? = some record.name := by
  rw [names, List.getElem?_map, h, Option.map_some]

/-! ## What keeps the names -/

theorem names_modify (registry : Registry) (id : Nat) {f : Iface → Iface}
    (hf : ∀ iface, (f iface).name = iface.name) :
    (registry.modify id f).names = registry.names :=
  map_records_modify _ registry id fun record => hf record.toIface

theorem names_fill (registry : Registry) (row : Row) (address : Option Ipv4) :
    (registry.fill row address).1.names = registry.names :=
  map_records_fill _ registry row address fun _ _ => rfl

theorem names_registerAll (registry : Registry) (pattern : Option Pattern) :
    (registry.registerAll pattern).1.registry.names = registry.names :=
  map_records_registerAll _ (fun _ _ => rfl) registry pattern

theorem names_append {registry next : Registry} {iface : Iface}
    (h : registry.append iface = .ok next) : next.names = registry.names ++ [iface.name] := by
  rw [names, records_append h, List.map_append]
  rfl

/-- A base name that stands for no record is not the name of one. -/
theorem not_mem_names_of_unknown {registry : Registry} {name : String} (hne : name ≠ "")
    (hbase : IsBase name) (hnone : registry.findByName? (some name) = none) :
    name ∉ registry.names := by
  rw [findByName?_of_ne_empty hne, hbase.baseName_eq, chooseRow_eq_none_iff] at hnone
  intro hmem
  obtain ⟨record, hrecord, hname⟩ := List.mem_map.mp hmem
  exact hnone record hrecord hname

/-! ## What keeps the invariant -/

theorem distinctBases_of_absorb {host : Host} {mode : Mode} {registry next : Registry}
    {report : Report} {changed : Bool} (hfit : report.NameFits)
    (h : absorb host mode registry report = .ok (next, changed))
    (hdistinct : DistinctBases registry.names) : DistinctBases next.names := by
  obtain ⟨address, -, -, habsorbs⟩ := absorbs_of_absorb h
  cases habsorbs with
  | known => rwa [names_fill]
  | passed => exact hdistinct
  | @added name _ hnone hname hnext =>
    obtain ⟨hne, hlength⟩ := hfit name (by rw [hname]; rfl)
    rw [hname, ReportedName.text?] at hnone
    rw [names_append hnext, newIface, Iface.create, cutName_eq_self hlength]
    exact hdistinct.append hne fun hbase => not_mem_names_of_unknown hne hbase hnone

theorem distinctBases_reconcile {host : Host} (hfit : host.NamesFit) (registry : Registry)
    (hdistinct : DistinctBases registry.names) (mode : Mode) :
    DistinctBases (registry.reconcile host mode).registry.names := by
  apply reconcile_induction (P := fun registry => DistinctBases registry.names)
  · intro reports hreports report hmem registry next changed hdistinct h
    have hreports : reports ∈ host.snapshot.toOption := by rw [hreports]; rfl
    exact distinctBases_of_absorb (hfit reports hreports report hmem) h hdistinct
  · exact hdistinct

theorem distinctBases_apply {event : Event} (hfit : event.IsFitting) {registry : Registry}
    (hdistinct : DistinctBases registry.names) : DistinctBases (event.apply registry).names := by
  cases event with
  | populate host limit =>
    refine distinctBases_reconcile hfit (registry.anew limit) ?_ .full
    rw [names, records_anew]
    exact .nil
  | clear => exact .nil
  | reconcile host mode => exact distinctBases_reconcile hfit registry hdistinct mode
  | refresh host =>
    rw [Event.apply, refresh_registry]
    exact distinctBases_reconcile hfit registry hdistinct .refreshOnly
  | append iface => exact hfit.elim
  | limitGrowth limit => exact hdistinct
  | register pattern =>
    rw [Event.apply, names_registerAll]
    exact hdistinct
  | assign id values =>
    rw [Event.apply, names_modify registry id (f := values.apply) fun _ => rfl]
    exact hdistinct

theorem distinctBases_after {history : List Event} (hfit : ∀ event ∈ history, event.IsFitting)
    {registry : Registry} (hdistinct : DistinctBases registry.names) :
    DistinctBases (registry.after history).names :=
  after_induction (P := fun registry => DistinctBases registry.names)
    (fun _ _ hevent hbefore => distinctBases_apply hevent hbefore) hfit hdistinct

/-! ## Resolution -/

/-- Whatever its VIF is, the record with a base name is the one that every name with this base
stands for. -/
theorem findByName?_of_distinct {registry : Registry} (hdistinct : DistinctBases registry.names)
    {i : Nat} {record : Record} (hget : registry.records[i]? = some record) {name : String}
    (hne : name ≠ "") (hname : baseName name = record.name) :
    registry.findByName? (some name) = some (record, i) := by
  have hbase : IsBase record.name := hname ▸ isBase_baseName name
  rw [findByName?_of_ne_empty hne, hname]
  refine chooseRow_of_unique hget rfl fun j other hother hsame => ?_
  exact hdistinct.index_eq hbase (hsame ▸ getElem?_names hother) (getElem?_names hget)

/-- In every table that a daemon comes to, a name without a colon belongs to one record, and this is
the record that the name stands for, alone or with any label of an alias. -/
theorem base_names_resolve {history : List Event} (hfit : ∀ event ∈ history, event.IsFitting)
    {start : Registry} (hstart : start.records = []) :
    (∀ (i j : Nat) (a b : Record), (start.after history).records[i]? = some a →
      (start.after history).records[j]? = some b → IsBase a.name → a.name = b.name → i = j) ∧
    ∀ row ∈ (start.after history).rows, IsBase row.1.name →
      (start.after history).findByName? (some row.1.name) = some row ∧
      ∀ label,
        (start.after history).findByName? (some (row.1.name ++ ":" ++ label)) = some row := by
  have hdistinct : DistinctBases (start.after history).names := by
    refine distinctBases_after hfit ?_
    rw [names, hstart]
    exact .nil
  constructor
  · intro i j a b ha hb hbase hsame
    exact hdistinct.index_eq hbase (getElem?_names ha) (hsame ▸ getElem?_names hb)
  · intro row hrow hbase
    have hget := List.mem_zipIdx_iff_getElem?.mp hrow
    have hne := hdistinct.ne_empty row.1.name
      (List.mem_map.mpr ⟨row.1, List.mem_of_getElem? hget, rfl⟩)
    refine ⟨findByName?_of_distinct hdistinct hget hne hbase.baseName_eq, fun label => ?_⟩
    refine findByName?_of_distinct hdistinct hget ?_ (hbase.baseName_append label)
    simp

/-- The alias comes first, is met again before its interface is there, and gets a VIF; a later
snapshot ends at a bad address. -/
def aliasFirst : List Event :=
  [.populate ⟨.ok [⟨.text "eth0:1", 0, .ipv4, some (.octets [10, 0, 0, 6])⟩,
      ⟨.text "eth0:1", 0, .absent, none⟩, ⟨.text "eth0", 0, .absent, none⟩], [("eth0", 2)]⟩,
    .assign 0 { vif := some 0 },
    .reconcile ⟨.ok [⟨.text "eth0:2", 0, .ipv4, some (.octets [10, 0, 0, 7])⟩,
      ⟨.text "lo", 9, .absent, none⟩, ⟨.text "eth0", 0, .ipv4, some (.octets [])⟩], []⟩ .full,
    .register none,
    .assign 2 { vif := some (-1), address := some none }]

/-- The two records of the alias share a name, and eth0 is still found under both of its names. -/
theorem base_names_resolve_after_alias :
    (∀ event ∈ aliasFirst, event.IsFitting) ∧
      (after {} aliasFirst).names = ["eth0:1", "eth0:1", "eth0", "lo"] ∧
      ∃ row ∈ (after {} aliasFirst).rows, row.1.name = "eth0" ∧
        (after {} aliasFirst).findByName? (some "eth0") = some row ∧
        (after {} aliasFirst).findByName? (some "eth0:1") = some row := by
  have hfit : ∀ event ∈ aliasFirst, event.IsFitting := by decide
  have hrow : ∃ row ∈ (after {} aliasFirst).rows, row.1.name = "eth0" := by decide
  obtain ⟨row, hmem, hname⟩ := hrow
  have hbase : IsBase row.1.name := by
    rw [hname]
    decide
  obtain ⟨hself, hlabel⟩ :=
    (base_names_resolve hfit (show records {} = [] from rfl)).2 row hmem hbase
  rw [hname] at hself hlabel
  exact ⟨hfit, by decide, row, hmem, hname, hself, hlabel "1"⟩

end Registry

end IfaceTable
