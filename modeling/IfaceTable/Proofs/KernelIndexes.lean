import IfaceTable.Proofs.BaseNames

/-!
# Kernel indexes

A record gets the kernel index of its name as it is added, and keeps both. So as long as the kernel
tells its interfaces apart by their indexes, it makes no difference whether an interface is looked
up by its index or by its name, although one search ends at the first record and the other one
prefers a record with a VIF, and otherwise the last.

* `TellsApart`: names of which each has an index of its own.
* `isIndexed_after`: each record has the index of its name, along every history of the daemon.
* `lookups_agree`: both searches come to the same record, or to none.
-/

namespace IfaceTable

/-- Names of interfaces, and none of an alias, of which each fits and has an index of its own. The
index 0 is one like any other here. -/
structure TellsApart (index : String → Int) (names : List String) : Prop where
  fits : ∀ name ∈ names, name ≠ "" ∧ name.length ≤ nameLimit
  base : ∀ name ∈ names, IsBase name
  distinct : ∀ a ∈ names, ∀ b ∈ names, index a = index b → a = b

instance (index : String → Int) (names : List String) : Decidable (TellsApart index names) :=
  decidable_of_iff
    ((∀ name ∈ names, name ≠ "" ∧ name.length ≤ nameLimit) ∧ (∀ name ∈ names, IsBase name) ∧
      ∀ a ∈ names, ∀ b ∈ names, index a = index b → a = b)
    ⟨fun ⟨hfits, hbase, hdistinct⟩ => ⟨hfits, hbase, hdistinct⟩,
      fun ⟨hfits, hbase, hdistinct⟩ => ⟨hfits, hbase, hdistinct⟩⟩

/-- Whatever the host reports, it is about the given names, and it knows them by the given
indexes. -/
def Host.StaysWith (host : Host) (index : String → Int) (names : List String) : Prop :=
  (∀ name ∈ names, host.index name = index name) ∧
    ∀ reports ∈ host.snapshot.toOption, ∀ report ∈ reports, ∀ name ∈ report.name.text?,
      name ∈ names

instance (host : Host) (index : String → Int) (names : List String) :
    Decidable (host.StaysWith index names) := inferInstanceAs (Decidable (_ ∧ _))

/-- An event in the life of the daemon, who puts nothing into the table but what hosts report under
the given names. -/
def Event.StaysWith (index : String → Int) (names : List String) : Event → Prop
  | populate host _ | reconcile host _ | refresh host => host.StaysWith index names
  | append _ => False
  | clear | limitGrowth _ | register _ | assign .. => True

instance (index : String → Int) (names : List String) :
    (event : Event) → Decidable (event.StaysWith index names)
  | .populate host _ | .reconcile host _ | .refresh host =>
    inferInstanceAs (Decidable (host.StaysWith index names))
  | .append _ => inferInstanceAs (Decidable False)
  | .clear | .limitGrowth _ | .register _ | .assign .. => inferInstanceAs (Decidable True)

section Fitting

variable {index : String → Int} {names : List String}

theorem TellsApart.length_le (h : TellsApart index names) :
    ∀ name ∈ names, name.length ≤ nameLimit := fun name hname => (h.fits name hname).2

theorem Host.StaysWith.namesFit {host : Host} (h : host.StaysWith index names)
    (hnames : TellsApart index names) : host.NamesFit :=
  fun reports hreports report hreport name hname =>
    hnames.fits name (h.2 reports hreports report hreport name hname)

theorem Event.StaysWith.isFitting {event : Event} (h : event.StaysWith index names)
    (hnames : TellsApart index names) : event.IsFitting := by
  cases event with
  | populate host limit => exact Host.StaysWith.namesFit h hnames
  | reconcile host mode => exact Host.StaysWith.namesFit h hnames
  | refresh host => exact Host.StaysWith.namesFit h hnames
  | append iface => exact h.elim
  | clear | limitGrowth | register | assign => trivial

end Fitting

namespace Registry

/-- The names of the records with their kernel indexes, in order. -/
def tags (registry : Registry) : List (String × Int) :=
  registry.records.map fun record => (record.name, record.ifindex)

/-- Each record has one of the names, and the index of that name. -/
def IsIndexed (registry : Registry) (index : String → Int) (names : List String) : Prop :=
  ∀ tag ∈ registry.tags, tag.1 ∈ names ∧ tag.2 = index tag.1

variable {index : String → Int} {names : List String} {host : Host} {mode : Mode}
  {registry next : Registry} {report : Report}

/-! ## What keeps the indexes -/

theorem tags_fill (registry : Registry) (row : Row) (address : Option Ipv4) :
    (registry.fill row address).1.tags = registry.tags :=
  map_records_fill _ registry row address fun _ _ => rfl

theorem tags_modify (registry : Registry) (id : Nat) (values : Assignment) :
    (registry.modify id values.apply).tags = registry.tags :=
  map_records_modify _ registry id fun _ => rfl

theorem tags_registerAll (registry : Registry) (pattern : Option Pattern) :
    (registry.registerAll pattern).1.registry.tags = registry.tags :=
  map_records_registerAll _ (fun _ _ => rfl) registry pattern

theorem tags_append {iface : Iface} (h : registry.append iface = .ok next) :
    next.tags = registry.tags ++ [(iface.name, iface.ifindex)] := by
  rw [tags, records_append h, List.map_append]
  rfl

theorem isIndexed_nil (h : registry.records = []) : registry.IsIndexed index names := by
  rw [IsIndexed, tags, h]
  simp

theorem isIndexed_of_absorb {changed : Bool}
    (hlength : ∀ name ∈ names, name.length ≤ nameLimit)
    (hindex : ∀ name ∈ names, host.index name = index name)
    (hreport : ∀ name ∈ report.name.text?, name ∈ names)
    (h : absorb host mode registry report = .ok (next, changed))
    (hindexed : registry.IsIndexed index names) : next.IsIndexed index names := by
  obtain ⟨address, -, -, habsorbs⟩ := absorbs_of_absorb h
  cases habsorbs with
  | known => rwa [IsIndexed, tags_fill]
  | passed => exact hindexed
  | @added name _ hnone hname hnext =>
    have hmem : name ∈ names := hreport name (by rw [hname]; rfl)
    have hcut : cutName name = name := cutName_eq_self (hlength name hmem)
    intro tag htag
    rw [tags_append hnext, newIface, Iface.create, hcut, hindex name hmem] at htag
    rcases List.mem_append.mp htag with htag | htag
    · exact hindexed tag htag
    · obtain rfl := List.mem_singleton.mp htag
      exact ⟨hmem, rfl⟩

theorem isIndexed_reconcile (hlength : ∀ name ∈ names, name.length ≤ nameLimit)
    (hstays : host.StaysWith index names) (hindexed : registry.IsIndexed index names)
    (mode : Mode) : (registry.reconcile host mode).registry.IsIndexed index names := by
  apply reconcile_induction (P := fun later => later.IsIndexed index names)
  · intro reports hreports report hmem registry next changed hindexed h
    have hreports : reports ∈ host.snapshot.toOption := by rw [hreports]; rfl
    exact isIndexed_of_absorb hlength hstays.1 (hstays.2 reports hreports report hmem) h hindexed
  · exact hindexed

theorem isIndexed_apply {event : Event} (hnames : TellsApart index names)
    (hstays : event.StaysWith index names) (hindexed : registry.IsIndexed index names) :
    (event.apply registry).IsIndexed index names := by
  cases event with
  | populate host limit =>
    exact isIndexed_reconcile hnames.length_le hstays (isIndexed_nil (records_anew registry limit))
      .full
  | clear => exact isIndexed_nil rfl
  | reconcile host mode => exact isIndexed_reconcile hnames.length_le hstays hindexed mode
  | refresh host =>
    rw [Event.apply, refresh_registry]
    exact isIndexed_reconcile hnames.length_le hstays hindexed .refreshOnly
  | append iface => exact hstays.elim
  | limitGrowth limit => exact hindexed
  | register pattern => rwa [Event.apply, IsIndexed, tags_registerAll]
  | assign id values => rwa [Event.apply, IsIndexed, tags_modify]

theorem isIndexed_after {history : List Event} (hnames : TellsApart index names)
    (hstays : ∀ event ∈ history, event.StaysWith index names)
    (hindexed : registry.IsIndexed index names) :
    (registry.after history).IsIndexed index names :=
  after_induction (P := fun registry => registry.IsIndexed index names)
    (fun _ _ hevent hbefore => isIndexed_apply hnames hevent hbefore) hstays hindexed

/-! ## Lookup -/

theorem IsIndexed.of_mem (h : registry.IsIndexed index names) {record : Record}
    (hrecord : record ∈ registry.records) :
    record.name ∈ names ∧ record.ifindex = index record.name :=
  h (record.name, record.ifindex) (List.mem_map.mpr ⟨record, hrecord, rfl⟩)

theorem IsIndexed.of_getElem? (h : registry.IsIndexed index names) {i : Nat} {record : Record}
    (hget : registry.records[i]? = some record) :
    record.name ∈ names ∧ record.ifindex = index record.name :=
  h.of_mem (List.mem_of_getElem? hget)

theorem find?_eq_some {ifindex : Int} {row : Row} (h : registry.find? ifindex = some row) :
    registry.records[row.2]? = some row.1 ∧ row.1.ifindex = ifindex :=
  ⟨mem_rows.mp (List.mem_of_find?_eq_some h), by simpa using List.find?_some h⟩

theorem find?_eq_none_iff {ifindex : Int} :
    registry.find? ifindex = none ↔ ∀ row ∈ registry.rows, row.1.ifindex ≠ ifindex := by
  simp [find?]

theorem find?_of_unique {i : Nat} {record : Record} (hget : registry.records[i]? = some record)
    (hunique : ∀ j other, registry.records[j]? = some other →
      other.ifindex = record.ifindex → j = i) :
    registry.find? record.ifindex = some (record, i) := by
  cases h : registry.find? record.ifindex with
  | none => exact absurd rfl (find?_eq_none_iff.mp h (record, i) (mem_rows.mpr hget))
  | some row =>
    obtain ⟨hrow, hindex⟩ := find?_eq_some h
    obtain rfl := hunique row.2 row.1 hrow hindex
    rw [hget] at hrow
    cases hrow
    rfl

/-- A table in which names and indexes belong together one to one. -/
theorem IsIndexed.find?_eq (hindexed : registry.IsIndexed index names)
    (hnames : TellsApart index names) (hdistinct : DistinctBases registry.names) {name : String}
    (hname : name ∈ names) :
    registry.find? (index name) = registry.findByName? (some name) := by
  have hbase := (hnames.base name hname).baseName_eq
  have hne := (hnames.fits name hname).1
  -- The index of a record tells its name.
  have hsame : ∀ (i : Nat) (record : Record), registry.records[i]? = some record →
      record.ifindex = index name → record.name = name := by
    intro i record hget hindex
    obtain ⟨hmem, hown⟩ := hindexed.of_getElem? hget
    exact hnames.distinct _ hmem _ hname (hown.symm.trans hindex)
  cases h : registry.findByName? (some name) with
  | some row =>
    obtain ⟨_, htext, -, hchoose⟩ := findByName?_eq_some h
    cases htext
    obtain ⟨hget, hrow⟩ := getElem?_of_chooseRow hchoose
    rw [hbase] at hrow
    have hown : row.1.ifindex = index name := hrow ▸ (hindexed.of_getElem? hget).2
    rw [← hown]
    refine find?_of_unique hget fun j other hother hindex => ?_
    have hothername := hsame j other hother (hindex.trans hown)
    exact hdistinct.index_eq (hnames.base name hname) (hothername ▸ getElem?_names hother)
      (hrow ▸ getElem?_names hget)
  | none =>
    rw [findByName?_of_ne_empty hne, hbase, chooseRow_eq_none_iff] at h
    refine find?_eq_none_iff.mpr fun row hrow hindex => ?_
    have hget := mem_rows.mp hrow
    exact h row.1 (List.mem_of_getElem? hget) (hsame row.2 row.1 hget hindex)

/-- As long as the kernel tells its interfaces apart by their indexes, an interface is found under
its index exactly if it is found under its name, and it is the same record. -/
theorem lookups_agree {history : List Event} (hnames : TellsApart index names)
    (hstays : ∀ event ∈ history, event.StaysWith index names) {start : Registry}
    (hstart : start.records = []) :
    ∀ name ∈ names, (start.after history).find? (index name) =
      (start.after history).findByName? (some name) := by
  intro name hname
  have hfit : ∀ event ∈ history, event.IsFitting := fun event hmem =>
    (hstays event hmem).isFitting hnames
  have hdistinct : DistinctBases (start.after history).names := by
    refine distinctBases_after hfit ?_
    rw [Registry.names, hstart]
    exact .nil
  exact (isIndexed_after hnames hstays (isIndexed_nil hstart)).find?_eq hnames hdistinct hname

/-- The indexes of three interfaces. -/
def threeIndexes : IndexTable := [("lo", 1), ("eth0", 2), ("eth1", 7)]

/-- Three passes over other reports each time: one ends at a report without a name, one at a table
without room; the VIFs are set meanwhile, and a reload follows. -/
def changingReports : List Event :=
  [.reconcile ⟨.ok [⟨.text "eth1", 0, .absent, none⟩, {}, ⟨.text "lo", 9, .absent, none⟩],
      threeIndexes⟩ .full,
    .assign 0 { vif := some 4, mif := some (-3) }, .limitGrowth 1,
    .reconcile ⟨.ok [⟨.text "eth1", 0, .absent, none⟩, ⟨.text "eth0", 0, .absent, none⟩],
      threeIndexes⟩ .full,
    .populate ⟨.ok [⟨.text "eth0", 0, .ipv4, some (.octets [10, 0, 0, 5])⟩,
      ⟨.text "eth1", 0, .absent, none⟩], threeIndexes⟩]

/-- The record of eth1 comes second now. The table has none for lo, under its index or its name. -/
theorem lookups_agree_after_reload :
    TellsApart threeIndexes.index ["lo", "eth0", "eth1"] ∧
      (∀ event ∈ changingReports,
        event.StaysWith threeIndexes.index ["lo", "eth0", "eth1"]) ∧
      (after {} changingReports).find? 7 = (after {} changingReports).findByName? (some "eth1") ∧
      ((after {} changingReports).find? 7).map Prod.snd = some 1 ∧
      (after {} changingReports).find? 1 = (after {} changingReports).findByName? (some "lo") ∧
      (after {} changingReports).find? 1 = none := by
  have hnames : TellsApart threeIndexes.index ["lo", "eth0", "eth1"] := by decide
  have hstays : ∀ event ∈ changingReports,
      event.StaysWith threeIndexes.index ["lo", "eth0", "eth1"] := by decide
  have hagree := lookups_agree hnames hstays (show records {} = [] from rfl)
  exact ⟨hnames, hstays, hagree "eth1" (by decide), by decide, hagree "lo" (by decide), by decide⟩

end Registry

end IfaceTable
