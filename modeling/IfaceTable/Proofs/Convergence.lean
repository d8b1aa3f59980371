import IfaceTable.Proofs.Distribution
import IfaceTable.Proofs.Populate

/-!
# Convergence

An alias that is reported ahead of its interface, or without it, gets a record under its own name.
But it is looked for under the name of its interface, so a second pass over the same snapshot does
not find this record again.

* `ParentsReported`: otherwise the second full pass adds the alias once more.
* `AddressesSettled`: otherwise the second pass gives an interface the address of an alias, or
  0.0.0.0, that it did not get the first time.
* `populate_converges_iff`: these two decide whether the second pass leaves the records alone.
-/

namespace IfaceTable

/-- No alias is reported without its interface. -/
def ParentsReported (reports : List Report) : Prop :=
  ∀ report ∈ reports, ∀ name ∈ report.name.text?, baseName name ∈ interfaceNames reports

instance (reports : List Report) : Decidable (ParentsReported reports) :=
  inferInstanceAs (Decidable (∀ _ ∈ _, ∀ _ ∈ _, _))

/-- An address that is reported ahead of the interface it is for does not matter to it: from its own
name on a usable one is reported, or the same. -/
def AddressesSettled (reports : List Report) : Prop :=
  ∀ base ∈ interfaceNames reports, ∀ early ∈ addressesFor base (earlyReports base reports),
    ∃ own ∈ addressesFor base (ownReports base reports), own.isUsable ∨ own = early

instance (reports : List Report) : Decidable (AddressesSettled reports) :=
  inferInstanceAs (Decidable (∀ _ ∈ _, ∀ _ ∈ _, ∃ _ ∈ _, _))

theorem Report.IsSound.isReadable {report : Report} (h : report.IsSound) : report.IsReadable := by
  obtain ⟨name, hname, -⟩ := h.name
  exact ⟨by rw [hname]; simp, h.address⟩

/-- No report is about an alias itself. -/
theorem addressesFor_of_alias {name : String} (halias : ¬ IsBase name) (reports : List Report) :
    addressesFor name reports = [] := by
  rw [addressesFor, List.filter_eq_nil_iff.mpr, List.flatMap_nil]
  intro report _ hname
  rw [decide_eq_true_eq, Report.base?, Option.map_eq_some_iff] at hname
  obtain ⟨text, -, rfl⟩ := hname
  exact halias (isBase_baseName text)

theorem Record.update_offered_eq_iff {record : Record} {addresses : List Ipv4} :
    record.update (Iface.offered addresses) = record ↔
      addresses.foldl offer record.address = record.address := by
  constructor
  · intro h
    exact congrArg (fun other : Record => other.address) h
  · intro h
    simp only [update, Iface.offered, h]

namespace Registry

variable {host : Host} {mode : Mode} {table : Registry} {reports : List Report}

/-! ## Where the reports are aimed -/

theorem positionFor?_eq_some_iff (hdistinct : DistinctBases table.names) {i : Nat} {record : Record}
    (hget : table.records[i]? = some record) {report : Report} (hfit : report.NameFits) :
    table.positionFor? report = some i ↔ report.base? = some record.name := by
  rw [positionFor?, Report.base?]
  constructor
  · intro h
    obtain ⟨row, hrow, rfl⟩ := Option.map_eq_some_iff.mp h
    obtain ⟨name, hname, -, hchoose⟩ := findByName?_eq_some hrow
    obtain ⟨hget', hbase⟩ := getElem?_of_chooseRow hchoose
    rw [hget] at hget'
    cases hget'
    rw [hname, Option.map_some, hbase]
  · intro h
    obtain ⟨name, hname, hbase⟩ := Option.map_eq_some_iff.mp h
    rw [hname, findByName?_of_distinct hdistinct hget (hfit name hname).1 hbase]
    rfl

/-- All that is reported for an interface, early or not, goes to its record now. -/
theorem aimedAt_eq_addressesFor (hdistinct : DistinctBases table.names) {i : Nat} {record : Record}
    (hget : table.records[i]? = some record) (hfit : ∀ report ∈ reports, report.NameFits) :
    table.aimedAt i reports = addressesFor record.name reports := by
  rw [aimedAt, addressesFor]
  congr 1
  refine List.filter_congr fun report hmem => ?_
  exact decide_eq_decide.mpr (positionFor?_eq_some_iff hdistinct hget (hfit report hmem))

/-- A report of the snapshot finds a record if its interface is reported, too. -/
theorem Describes.knows_iff (h : Describes host reports table) {report : Report} {name : String}
    (hname : report.name = .text name) (hne : name ≠ "") :
    table.Knows report ↔ baseName name ∈ interfaceNames reports := by
  have hbase := isBase_baseName name
  rw [Knows, positionFor?, Option.isSome_map, hname, ReportedName.text?,
    findByName?_of_ne_empty hne, Option.isSome_iff_ne_none, Ne, chooseRow_eq_none_iff,
    h.mem_interfaceNames_iff]
  simp [hbase]

/-- An interface keeps its address exactly if those that come early do not matter to it. -/
theorem Describes.update_offered_eq_iff (h : Describes host reports table) {record : Record}
    (hmem : record ∈ table.records) (hbase : IsBase record.name) :
    record.update (Iface.offered (addressesFor record.name reports)) = record ↔
      ∀ early ∈ addressesFor record.name (earlyReports record.name reports),
        ∃ own ∈ addressesFor record.name (ownReports record.name reports),
          own.isUsable ∨ own = early := by
  have haddress : record.address =
      preferred (addressesFor record.name (ownReports record.name reports)) :=
    congrArg Iface.address (h.bases record hmem hbase)
  have hsplit : addressesFor record.name reports =
      addressesFor record.name (earlyReports record.name reports) ++
        addressesFor record.name (ownReports record.name reports) := by
    rw [← addressesFor_append, early_append_own]
  rw [Record.update_offered_eq_iff, haddress, hsplit, foldl_offer_preferred_iff]

/-! ## The second pass -/

/-- A second pass in which no unknown interface is to be added changes nothing exactly if the
addresses are settled. -/
theorem Describes.records_absorbAll_of_knows (h : Describes host reports table)
    (hdistinct : DistinctBases table.names) (hsound : ∀ report ∈ reports, report.IsSound)
    (hknows : mode = .full → ∀ report ∈ reports, table.Knows report) :
    (absorbAll host mode table reports).1.records = table.records ↔ AddressesSettled reports := by
  have hread : ∀ report ∈ reports, report.IsReadable := fun report hmem =>
    (hsound report hmem).isReadable
  have hpass := (getElem?_absorbAll host hread hknows).2
  have haimed : ∀ (i : Nat) (record : Record), table.records[i]? = some record →
      table.aimedAt i reports = addressesFor record.name reports := fun i record hget =>
    aimedAt_eq_addressesFor hdistinct hget fun report hmem => (hsound report hmem).nameFits
  constructor
  · intro hsame base hmem
    obtain ⟨hbase, record, hrecord, rfl⟩ := h.mem_interfaceNames_iff.mp hmem
    obtain ⟨i, hget⟩ := List.mem_iff_getElem?.mp hrecord
    have hkept := hpass i
    rw [hsame, hget, Option.map_some, haimed i record hget] at hkept
    exact (h.update_offered_eq_iff hrecord hbase).mp (Option.some.inj hkept).symm
  · intro hsettled
    apply List.ext_getElem?
    intro i
    rw [hpass]
    cases hget : table.records[i]? with
    | none => rfl
    | some record =>
      have hrecord := List.mem_of_getElem? hget
      rw [Option.map_some, haimed i record hget]
      by_cases hbase : IsBase record.name
      · have hname := h.mem_interfaceNames hrecord hbase
        rw [(h.update_offered_eq_iff hrecord hbase).mpr (hsettled record.name hname)]
      · rw [addressesFor_of_alias hbase, Record.update_offered_nil]

/-- All reports find a record exactly if no alias is reported without its interface. -/
theorem Describes.knows_all_iff (h : Describes host reports table)
    (hsound : ∀ report ∈ reports, report.IsSound) :
    (∀ report ∈ reports, table.Knows report) ↔ ParentsReported reports := by
  constructor
  · intro hknows report hmem text htext
    obtain ⟨name, hname, hne, -⟩ := (hsound report hmem).name
    rw [hname, ReportedName.text?, Option.mem_some_iff] at htext
    subst htext
    exact (h.knows_iff hname hne).mp (hknows report hmem)
  · intro hparents report hmem
    obtain ⟨name, hname, hne, -⟩ := (hsound report hmem).name
    exact (h.knows_iff hname hne).mpr
      (hparents report hmem name (ReportedName.text?_eq_some_iff.mpr hname))

/-- A second pass that comes to its end leaves all records as they are exactly if the addresses are
settled and, if it may add records, all interfaces are known. -/
theorem Describes.records_absorbAll_iff (h : Describes host reports table)
    (hdistinct : DistinctBases table.names) (hsound : ∀ report ∈ reports, report.IsSound)
    {changed : Bool} (hok : (absorbAll host mode table reports).2 = .ok changed) :
    (absorbAll host mode table reports).1.records = table.records ↔
      AddressesSettled reports ∧ (mode = .full → ParentsReported reports) := by
  constructor
  · intro hsame
    have hknows : mode = .full → ∀ report ∈ reports, table.Knows report := by
      rintro rfl
      exact knows_of_length hok (congrArg List.length hsame)
    exact ⟨(h.records_absorbAll_of_knows hdistinct hsound hknows).mp hsame,
      fun hmode => (h.knows_all_iff hsound).mp (hknows hmode)⟩
  · rintro ⟨hsettled, hparents⟩
    exact (h.records_absorbAll_of_knows hdistinct hsound fun hmode =>
      (h.knows_all_iff hsound).mpr (hparents hmode)).mpr hsettled

/-- After the table was filled from a snapshot, a second pass over it comes to its end; it leaves
all records as they are exactly if the addresses are settled and, if it may add records, no alias
is reported without its interface. -/
theorem populate_converges_iff (hsnapshot : host.snapshot = .ok reports) (hfit : host.NamesFit)
    (registry : Registry) (hok : (registry.populate host).answer = .ok ()) (mode : Mode) :
    (∃ changed, ((registry.populate host).registry.reconcile host mode).answer = .ok changed) ∧
      (((registry.populate host).registry.reconcile host mode).registry.records =
          (registry.populate host).registry.records ↔
        AddressesSettled reports ∧ (mode = .full → ParentsReported reports)) := by
  have hfits : ∀ report ∈ reports, report.NameFits := hfit reports (by rw [hsnapshot]; rfl)
  obtain ⟨changed, hfirst⟩ := populate_answer_eq_ok_iff.mp hok
  have hsound : ∀ report ∈ reports, report.IsSound :=
    sound_of_absorbAll hfits ((reconcile_answer_eq_ok_iff hsnapshot).mp hfirst)
  rw [populate_registry, anew_none]
  have h : Describes host reports (registry.clear.reconcile host .full).registry :=
    describes_reconcile rfl hsnapshot hfits hfirst
  have hdistinct : DistinctBases (registry.clear.reconcile host .full).registry.names :=
    distinctBases_reconcile hfit registry.clear .nil .full
  have hlimit := (settings_reconcile registry.clear host .full).growthLimit
  generalize (registry.clear.reconcile host .full).registry = table at h hdistinct hlimit ⊢
  rcases reconcile_of_sound hsnapshot hsound table mode with
    ⟨gained, hsecond⟩ | ⟨-, -, hlimited⟩
  · refine ⟨⟨gained, hsecond⟩, ?_⟩
    rw [reconcile_registry hsnapshot]
    exact h.records_absorbAll_iff hdistinct hsound
      ((reconcile_answer_eq_ok_iff hsnapshot).mp hsecond)
  · exact absurd hlimit hlimited

/-- The host reports an alias without its interface. -/
def orphanAlias : Host := ⟨.ok [⟨.text "eth0:1", 0, .absent, none⟩], []⟩

/-- The host reports an alias with an address, and then its interface without one. -/
def earlyAlias : Host :=
  ⟨.ok [⟨.text "eth0:1", 0, .ipv4, some (.octets [10, 0, 0, 6])⟩, ⟨.text "eth0", 0, .absent, none⟩],
    []⟩

/-- The alias without an interface stays as it is when addresses are refreshed; a second full pass
is not idle. -/
theorem populate_converges_orphanAlias :
    orphanAlias.NamesFit ∧ (populate {} orphanAlias).answer = .ok () ∧
      ((populate {} orphanAlias).registry.reconcile orphanAlias .refreshOnly).registry.records =
        (populate {} orphanAlias).registry.records ∧
      ((populate {} orphanAlias).registry.reconcile orphanAlias .full).registry.records ≠
        (populate {} orphanAlias).registry.records := by
  have hfit : orphanAlias.NamesFit := by decide
  have hok : (populate {} orphanAlias).answer = .ok () := rfl
  refine ⟨hfit, hok, ?_, ?_⟩
  · exact (populate_converges_iff rfl hfit {} hok .refreshOnly).2.mpr (by decide)
  · rw [Ne, (populate_converges_iff rfl hfit {} hok .full).2]
    decide

/-- The full pass adds the alias again, and the refresh gives its address to the interface. -/
theorem second_pass_over_aliases :
    (orphanAlias.NamesFit ∧ (populate {} orphanAlias).answer = .ok () ∧
      (populate {} orphanAlias).registry.names = ["eth0:1"] ∧
      ((populate {} orphanAlias).registry.reconcile orphanAlias .full).registry.names =
        ["eth0:1", "eth0:1"]) ∧
    earlyAlias.NamesFit ∧ (populate {} earlyAlias).answer = .ok () ∧
      (populate {} earlyAlias).registry.records.map (fun record => (record.name, record.address)) =
        [("eth0:1", some ⟨10, 0, 0, 6⟩), ("eth0", none)] ∧
      ((populate {} earlyAlias).registry.reconcile earlyAlias .refreshOnly).registry.records.map
          (fun record => (record.name, record.address)) =
        [("eth0:1", some ⟨10, 0, 0, 6⟩), ("eth0", some ⟨10, 0, 0, 6⟩)] :=
  ⟨⟨by decide, rfl, by decide, by decide⟩, by decide, rfl, by decide, by decide⟩

end Registry

end IfaceTable
