import IfaceTable.Proofs.BaseNames
import IfaceTable.Proofs.Reported

/-!
# Populating

A full pass over a snapshot, into a table without records, looks every name up in the table that it
is about to fill. `Describes` ties that table to the reports of which the pass has made an end.

* `describes_absorbAll`: a full pass keeps `Describes`, in whatever order aliases and their
  interfaces are reported.
* `reconcile_of_sound`: a snapshot of sound reports fails only where the table may not grow.
* `populate_describes`: if no alias is reported ahead of its interface, there is one record for each
  interface, and it is all that the snapshot says of that interface.
-/

namespace IfaceTable

/-- The report gives a name that fits, and no address that cannot be read. -/
structure Report.IsSound (report : Report) : Prop where
  name : ∃ name, report.name = .text name ∧ name ≠ "" ∧ name.length ≤ nameLimit
  address : ∃ address, report.ipv4? = .ok address

/-- Each alias is reported behind the interface that it belongs to. -/
def AliasesFollow (reports : List Report) : Prop :=
  ∀ (i : Nat) (h : i < reports.length), ∀ name ∈ reports[i].name.text?, ¬ IsBase name →
    ∃ parent ∈ reports.take i, parent.name = .text (baseName name)

instance (report : Report) : Decidable report.IsSound :=
  decidable_of_iff
    ((∃ name ∈ report.name.text?, name ≠ "" ∧ name.length ≤ nameLimit) ∧ report.ipv4?.isOk) <| by
      simp only [Option.mem_def, ReportedName.text?_eq_some_iff]
      refine ⟨fun ⟨hname, hok⟩ => ⟨hname, ?_⟩, fun h => ⟨h.name, ?_⟩⟩
      · cases haddress : report.ipv4? with
        | ok address => exact ⟨address, rfl⟩
        | error cause => simp [haddress, Except.isOk, Except.toBool] at hok
      · obtain ⟨address, haddress⟩ := h.address
        simp [haddress, Except.isOk, Except.toBool]

instance (reports : List Report) : Decidable (AliasesFollow reports) :=
  inferInstanceAs (Decidable (∀ _ _, ∀ _ ∈ _, _))

theorem Report.IsSound.nameFits {report : Report} (h : report.IsSound) : report.NameFits := by
  obtain ⟨name, hname, hfits⟩ := h.name
  intro other hother
  rw [hname, ReportedName.text?, Option.mem_some_iff] at hother
  rwa [← hother]

namespace Registry

/-! ## Sound reports -/

theorem absorb_of_sound {host : Host} {mode : Mode} {registry : Registry} {report : Report}
    (hsound : report.IsSound) {fault : Fault}
    (h : absorb host mode registry report = .error fault) :
    fault = .tableFull ∧ mode = .full ∧ registry.slots.growthLimit ≠ none := by
  obtain ⟨name, hname, -⟩ := hsound.name
  obtain ⟨address, haddress⟩ := hsound.address
  cases atFault_of_absorb h with
  | badAddress hcause =>
    rw [haddress] at hcause
    cases hcause
  | nameMissing _ hmissing =>
    rw [hname] at hmissing
    cases hmissing
  | nameEmpty _ hempty =>
    rw [hname] at hempty
    cases hempty
  | tableFull _ _ _ _ hgrow => exact ⟨rfl, rfl, Slots.growthLimit_ne_none hgrow⟩

theorem absorbAll_of_sound {reports : List Report} (hsound : ∀ report ∈ reports, report.IsSound)
    (host : Host) (mode : Mode) (registry : Registry) :
    (∃ changed, (absorbAll host mode registry reports).2 = .ok changed) ∨
      (absorbAll host mode registry reports).2 = .error .tableFull ∧ mode = .full ∧
        registry.slots.growthLimit ≠ none := by
  induction reports generalizing registry with
  | nil => exact .inl ⟨false, rfl⟩
  | cons report reports ih =>
    cases h : absorb host mode registry report with
    | error fault =>
      obtain ⟨rfl, hmode, hlimit⟩ := absorb_of_sound (hsound report List.mem_cons_self) h
      rw [absorbAll_cons_of_error h]
      exact .inr ⟨rfl, hmode, hlimit⟩
    | ok result =>
      obtain ⟨next, changed⟩ := result
      rw [absorbAll_cons_of_ok h, ← (settings_of_absorb h).growthLimit]
      rcases ih (fun other hmem => hsound other (List.mem_cons_of_mem report hmem)) next with
        ⟨later, hlater⟩ | ⟨hfull, hmode, hlimit⟩
      · exact .inl ⟨changed || later, by simp [hlater, Except.map]⟩
      · exact .inr ⟨by simp [hfull, Except.map], hmode, hlimit⟩

/-- A snapshot of sound reports is brought in, or the table may not grow and the program ends. -/
theorem reconcile_of_sound {host : Host} {reports : List Report}
    (hsnapshot : host.snapshot = .ok reports) (hsound : ∀ report ∈ reports, report.IsSound)
    (registry : Registry) (mode : Mode) :
    (∃ changed, (registry.reconcile host mode).answer = .ok changed) ∨
      (registry.reconcile host mode).answer = .error (.exit .fatal) ∧ mode = .full ∧
        registry.slots.growthLimit ≠ none := by
  rcases absorbAll_of_sound hsound host mode registry with
    ⟨changed, hok⟩ | ⟨hfull, hmode, hlimit⟩
  · exact .inl ⟨changed, (reconcile_answer_eq_ok_iff hsnapshot).mpr hok⟩
  · refine .inr ⟨?_, hmode, hlimit⟩
    rw [reconcile_of_snapshot hsnapshot]
    split
    · rfl
    · next last answer hne heq =>
      rw [heq] at hfull
      exact absurd hfull hne

/-- A full pass comes to its end only over sound reports. -/
theorem sound_of_absorbAll {host : Host} {registry : Registry} {reports : List Report}
    {changed : Bool} (hfit : ∀ report ∈ reports, report.NameFits)
    (hok : (absorbAll host .full registry reports).2 = .ok changed) :
    ∀ report ∈ reports, report.IsSound := by
  induction reports generalizing registry changed with
  | nil => simp
  | cons report reports ih =>
    obtain ⟨next, gained, later, habsorb, hlater, -⟩ := absorbAll_cons_eq_ok hok
    obtain ⟨address, haddress, -, habsorbs⟩ := absorbs_of_absorb habsorb
    have htext : ∃ name, report.name.text? = some name := by
      cases habsorbs with
      | known hrow =>
        obtain ⟨name, hname, -⟩ := findByName?_eq_some hrow
        exact ⟨name, hname⟩
      | @added name _ hnone hname hnext => exact ⟨name, by rw [hname]; rfl⟩
    intro other hmem
    rcases List.mem_cons.mp hmem with rfl | hmem
    · obtain ⟨name, hname⟩ := htext
      exact ⟨⟨name, ReportedName.text?_eq_some_iff.mp hname, hfit _ List.mem_cons_self name hname⟩,
        address, haddress⟩
    · exact ih (fun other hmem => hfit other (List.mem_cons_of_mem report hmem)) hlater other hmem

/-! ## The table while it is filled -/

/-- The table holds the interfaces of the reports, and beside them only aliases that were reported
while their interface was not yet known. -/
structure Describes (host : Host) (reports : List Report) (registry : Registry) : Prop where
  names : (registry.names.filter fun name => IsBase name) = interfaceNames reports
  bases : ∀ record ∈ registry.records, IsBase record.name →
    record.toIface = describedBy host registry.threshold reports record.name
  aliases : ∀ record ∈ registry.records, ¬ IsBase record.name →
    ∃ early report late, reports = early ++ report :: late ∧ report.name = .text record.name ∧
      baseName record.name ∉ interfaceNames early

variable {host : Host} {registry next : Registry} {reports : List Report} {report : Report}

theorem Describes.nil {start : Registry} (h : start.records = []) : Describes host [] start where
  names := by rw [Registry.names, h]; rfl
  bases := by simp [h]
  aliases := by simp [h]

namespace Describes

theorem mem_interfaceNames_iff (h : Describes host reports registry) {base : String} :
    base ∈ interfaceNames reports ↔
      IsBase base ∧ ∃ record ∈ registry.records, record.name = base := by
  rw [← h.names, List.mem_filter, Registry.names, List.mem_map, decide_eq_true_eq]
  exact and_comm

theorem mem_interfaceNames (h : Describes host reports registry) {record : Record}
    (hmem : record ∈ registry.records) (hbase : IsBase record.name) :
    record.name ∈ interfaceNames reports :=
  h.mem_interfaceNames_iff.mpr ⟨hbase, record, hmem, rfl⟩

/-- What is described of an interface stays when another one is reported. -/
theorem describedBy_other (h : Describes host reports registry) {record : Record}
    (hmem : record ∈ registry.records) (hbase : IsBase record.name)
    (hother : report.base? ≠ some record.name) :
    record.toIface = describedBy host registry.threshold (reports ++ [report]) record.name := by
  have hown := (IfaceTable.mem_interfaceNames.mp (h.mem_interfaceNames hmem hbase)).2
  rw [describedBy_concat hown, addressesFor_other hother, Iface.offered_nil]
  exact h.bases record hmem hbase

theorem aliases_concat (h : Describes host reports registry) {record : Record}
    (hmem : record ∈ registry.records) (halias : ¬ IsBase record.name) :
    ∃ early own late, reports ++ [report] = early ++ own :: late ∧ own.name = .text record.name ∧
      baseName record.name ∉ interfaceNames early := by
  obtain ⟨early, own, late, hsplit, hname, hnew⟩ := h.aliases record hmem halias
  exact ⟨early, own, late ++ [report], by rw [hsplit]; simp, hname, hnew⟩

end Describes

/-- A report about an interface that has a record. -/
theorem describes_fill (hdistinct : DistinctBases registry.names)
    (h : Describes host reports registry) {address : Option Ipv4}
    (haddress : report.ipv4? = .ok address) {row : Row}
    (hrow : registry.findByName? report.name.text? = some row) :
    Describes host (reports ++ [report]) (registry.fill row address).1 := by
  obtain ⟨name, htext, hne, hchoose⟩ := findByName?_eq_some hrow
  obtain ⟨hget, hrname⟩ := getElem?_of_chooseRow hchoose
  have hbase : IsBase row.1.name := hrname ▸ isBase_baseName name
  have hreport : report.base? = some row.1.name := by
    rw [Report.base?, htext, Option.map_some, hrname]
  have hknown := h.mem_interfaceNames (List.mem_of_getElem? hget) hbase
  refine ⟨?_, ?_, ?_⟩
  · rw [names_fill, h.names, interfaceNames_concat_of_base hreport hknown]
  · intro record hmem hb
    rw [(settings_fill registry row address).threshold]
    rcases mem_records_fill hget hmem with rfl | ⟨i, hi, hpos⟩
    · have hown := (mem_interfaceNames.mp hknown).2
      have hname : (row.1.update (Iface.offered address.toList)).name = row.1.name := rfl
      rw [hname, describedBy_concat hown, addressesFor_singleton hreport,
        Report.addresses_of_ok haddress, ← h.bases row.1 (List.mem_of_getElem? hget) hbase]
      rfl
    · refine h.describedBy_other (List.mem_of_getElem? hi) hb fun hsame => hpos ?_
      have hsame : row.1.name = record.name := Option.some.inj (hreport.symm.trans hsame)
      exact hdistinct.index_eq hbase (hsame ▸ getElem?_names hi) (getElem?_names hget)
  · intro record hmem halias
    rcases mem_records_fill hget hmem with rfl | ⟨i, hi, -⟩
    · exact absurd hbase halias
    · exact h.aliases_concat (List.mem_of_getElem? hi) halias

/-- A report about an interface that has no record yet. -/
theorem describes_append (h : Describes host reports registry) {address : Option Ipv4}
    (haddress : report.ipv4? = .ok address) {name : String} (hname : report.name = .text name)
    (hne : name ≠ "") (hlength : name.length ≤ nameLimit)
    (hnone : registry.findByName? report.name.text? = none)
    (hnext : registry.append (registry.newIface host report name address) = .ok next) :
    Describes host (reports ++ [report]) next := by
  rw [hname, ReportedName.text?, findByName?_of_ne_empty hne, chooseRow_eq_none_iff] at hnone
  have hcut : (registry.newIface host report name address).name = name := cutName_eq_self hlength
  have hreport : report.base? = some (baseName name) := by
    rw [Report.base?, hname, ReportedName.text?, Option.map_some]
  have hnew : baseName name ∉ interfaceNames reports := by
    intro hmem
    obtain ⟨-, record, hrecord, hrname⟩ := h.mem_interfaceNames_iff.mp hmem
    exact hnone record hrecord hrname
  refine ⟨?_, ?_, ?_⟩
  · rw [names_append hnext, List.filter_append, h.names, hcut,
      interfaceNames_concat_of_new hname hnew]
  · intro record hmem hb
    rw [(settings_of_append hnext).threshold]
    rcases mem_records_of_append hnext hmem with hmem | hrecord
    · exact h.describedBy_other hmem hb fun hsame =>
        hnone record hmem (Option.some.inj (hsame.symm.trans hreport))
    · have hrname : record.name = name := (congrArg Iface.name hrecord).trans hcut
      rw [hrname] at hb ⊢
      rw [hb.baseName_eq] at hnew
      have hunknown : ∀ own ∈ reports, own.name ≠ .text name := fun own hmem hown =>
        hnew (mem_interfaceNames.mpr ⟨hb, own, hmem, hown⟩)
      rw [describedBy_concat_new hb hunknown hname haddress, hrecord]
      simp only [newIface, Iface.create, cutName_eq_self hlength]
  · intro record hmem halias
    rcases mem_records_of_append hnext hmem with hmem | hrecord
    · exact h.aliases_concat hmem halias
    · have hrname : record.name = name := (congrArg Iface.name hrecord).trans hcut
      rw [hrname]
      exact ⟨reports, report, [], rfl, hname, hnew⟩

theorem describes_of_absorb (hfit : report.NameFits) (hdistinct : DistinctBases registry.names)
    (h : Describes host reports registry) {changed : Bool}
    (habsorb : absorb host .full registry report = .ok (next, changed)) :
    Describes host (reports ++ [report]) next := by
  obtain ⟨address, haddress, -, habsorbs⟩ := absorbs_of_absorb habsorb
  cases habsorbs with
  | known hrow => exact describes_fill hdistinct h haddress hrow
  | @added name _ hnone hname hnext =>
    obtain ⟨hne, hlength⟩ := hfit name (ReportedName.text?_eq_some_iff.mpr hname)
    exact describes_append h haddress hname hne hlength hnone hnext

/-- A full pass that ends well describes all reports. -/
theorem describes_absorbAll {more : List Report} (hfit : ∀ report ∈ more, report.NameFits)
    (hdistinct : DistinctBases registry.names) (h : Describes host reports registry)
    {changed : Bool} (hok : (absorbAll host .full registry more).2 = .ok changed) :
    Describes host (reports ++ more) (absorbAll host .full registry more).1 := by
  induction more generalizing registry reports changed with
  | nil =>
    rw [List.append_nil]
    exact h
  | cons report more ih =>
    have hhead := hfit report List.mem_cons_self
    obtain ⟨next, gained, later, habsorb, hlater, hlast⟩ := absorbAll_cons_eq_ok hok
    rw [hlast, List.append_cons]
    exact ih (fun other hmem => hfit other (List.mem_cons_of_mem report hmem))
      (distinctBases_of_absorb hhead habsorb hdistinct)
      (describes_of_absorb hhead hdistinct h habsorb) hlater

/-- A table that was filled by a full pass describes the snapshot. -/
theorem describes_reconcile {start : Registry} (hstart : start.records = [])
    (hsnapshot : host.snapshot = .ok reports) (hfit : ∀ report ∈ reports, report.NameFits)
    {changed : Bool} (hok : (start.reconcile host .full).answer = .ok changed) :
    Describes host reports (start.reconcile host .full).registry := by
  rw [reconcile_answer_eq_ok_iff hsnapshot] at hok
  rw [reconcile_registry hsnapshot]
  have hnames : DistinctBases start.names := by
    rw [names, hstart]
    exact .nil
  exact describes_absorbAll hfit hnames (.nil hstart) hok

/-! ## Aliases behind their interfaces -/

theorem Describes.isBase_of_follow (h : Describes host reports registry)
    (hfollow : AliasesFollow reports) {record : Record} (hmem : record ∈ registry.records) :
    IsBase record.name := by
  by_contra halias
  obtain ⟨early, report, late, rfl, hname, hnew⟩ := h.aliases record hmem halias
  have hlt : early.length < (early ++ report :: late).length := by simp
  have htext : record.name ∈ (early ++ report :: late)[early.length].name.text? := by
    simp [hname, ReportedName.text?]
  obtain ⟨parent, hparent, hpname⟩ := hfollow early.length hlt record.name htext halias
  rw [List.take_left] at hparent
  exact hnew (IfaceTable.mem_interfaceNames.mpr
    ⟨isBase_baseName record.name, parent, hparent, hpname⟩)

end Registry

/-- No report about an interface comes ahead of the first one under its own name. -/
theorem addressesFor_early {reports : List Report} (hfollow : AliasesFollow reports)
    (base : String) :
    addressesFor base (earlyReports base reports) = [] := by
  have hearly : ∀ report ∈ earlyReports base reports, report.name ≠ .text base := by
    intro report hmem
    simpa using List.mem_takeWhile_imp hmem
  rw [addressesFor, List.filter_eq_nil_iff.mpr, List.flatMap_nil]
  intro report hmem hbase
  rw [decide_eq_true_eq, Report.base?, Option.map_eq_some_iff] at hbase
  obtain ⟨name, htext, hname⟩ := hbase
  have hnot : ¬ IsBase name := fun hb => by
    rw [hb.baseName_eq] at hname
    exact hearly report hmem (hname ▸ ReportedName.text?_eq_some_iff.mp htext)
  obtain ⟨i, hi, rfl⟩ := List.mem_iff_getElem.mp hmem
  have hlt : i < reports.length := by
    rw [← early_append_own base reports, List.length_append]
    omega
  have hsame : reports[i] = (earlyReports base reports)[i] := by
    rw [List.getElem_of_eq (early_append_own base reports).symm hlt, List.getElem_append_left hi]
  obtain ⟨parent, hparent, hpname⟩ := hfollow i hlt name (by rw [hsame]; exact htext) hnot
  have hmem' : parent ∈ earlyReports base reports := by
    rw [← early_append_own base reports, List.take_append_of_le_length (Nat.le_of_lt hi)] at hparent
    exact List.mem_of_mem_take hparent
  exact hearly parent hmem' (hname ▸ hpname)

theorem describedBy_eq_interfaceFor {reports : List Report} (hfollow : AliasesFollow reports)
    (host : Host) (threshold : Int) (base : String) :
    describedBy host threshold reports base = interfaceFor host threshold reports base := by
  have haddresses : addressesFor base reports = addressesFor base (ownReports base reports) := by
    rw [← List.nil_append (addressesFor base (ownReports base reports)),
      ← addressesFor_early hfollow base, ← addressesFor_append, early_append_own]
  have hfind : (reports.find? fun report => report.name = .text base) =
      (ownReports base reports).find? fun report => report.name = .text base := by
    have hnone :
        ((earlyReports base reports).find? fun report => report.name = .text base) = none := by
      rw [List.find?_eq_none]
      intro report hmem
      simpa using List.mem_takeWhile_imp hmem
    conv => lhs; rw [← early_append_own base reports]
    rw [List.find?_append, hnone, Option.none_or]
  rw [describedBy, interfaceFor, interfaceFor, haddresses, hfind]

namespace Registry

/-- If no alias is reported ahead of its interface, the records are the interfaces as they are
reported. -/
theorem Describes.records_eq {host : Host} {reports : List Report} {registry : Registry}
    (h : Describes host reports registry) (hfollow : AliasesFollow reports) :
    registry.records.map (fun record => record.toIface) =
      (interfaceNames reports).map (interfaceFor host registry.threshold reports) := by
  have hall : (registry.names.filter fun name => IsBase name) = registry.names := by
    rw [List.filter_eq_self]
    intro name hmem
    obtain ⟨record, hrecord, rfl⟩ := List.mem_map.mp hmem
    simpa using h.isBase_of_follow hfollow hrecord
  have hnames : registry.names = interfaceNames reports := hall.symm.trans h.names
  rw [← hnames, Registry.names, List.map_map]
  refine List.map_congr_left fun record hmem => ?_
  rw [h.bases record hmem (h.isBase_of_follow hfollow hmem)]
  exact describedBy_eq_interfaceFor hfollow host registry.threshold record.name

/-- A snapshot without an alias ahead of its interface populates the table with one record for each
interface, which is all that the snapshot says of it; under a limit the table may be too small. -/
theorem populate_describes {host : Host} {reports : List Report}
    (hsnapshot : host.snapshot = .ok reports) (hsound : ∀ report ∈ reports, report.IsSound)
    (hfollow : AliasesFollow reports) (registry : Registry) :
    ((registry.populate host).answer = .ok () ∧
      (registry.populate host).registry.records.map (fun record => record.toIface) =
        (interfaceNames reports).map (interfaceFor host registry.threshold reports)) ∧
    ∀ limit,
      ((registry.clear.limitGrowth limit).reconcile host .full).answer = .error (.exit .fatal) ∨
      (∃ changed, ((registry.clear.limitGrowth limit).reconcile host .full).answer = .ok changed) ∧
        ((registry.clear.limitGrowth limit).reconcile host .full).registry.records.map
            (fun record => record.toIface) =
          (interfaceNames reports).map (interfaceFor host registry.threshold reports) := by
  have hfit : ∀ report ∈ reports, report.NameFits := fun report hmem =>
    (hsound report hmem).nameFits
  have hrecords : ∀ (start : Registry) (changed : Bool), start.records = [] →
      start.threshold = registry.threshold → (start.reconcile host .full).answer = .ok changed →
      (start.reconcile host .full).registry.records.map (fun record => record.toIface) =
        (interfaceNames reports).map (interfaceFor host registry.threshold reports) := by
    intro start changed hstart hthreshold hok
    rw [(describes_reconcile hstart hsnapshot hfit hok).records_eq hfollow,
      (settings_reconcile start host .full).threshold, hthreshold]
  constructor
  · rcases reconcile_of_sound hsnapshot hsound registry.clear .full with
      ⟨changed, hok⟩ | ⟨-, -, hlimit⟩
    · exact ⟨populate_answer_eq_ok_iff.mpr ⟨changed, hok⟩,
        hrecords registry.clear changed rfl rfl hok⟩
    · exact absurd rfl hlimit
  · intro limit
    rcases reconcile_of_sound hsnapshot hsound (registry.clear.limitGrowth limit) .full with
      ⟨changed, hok⟩ | ⟨hfatal, -, -⟩
    · exact .inr ⟨⟨changed, hok⟩, hrecords _ changed rfl rfl hok⟩
    · exact .inl hfatal

/-- Addresses come before and behind links, with placeholders between them. -/
def mixedReports : List Report :=
  [⟨.text "eth0", 4163, .packet, none⟩, ⟨.text "lo", 73, .ipv4, some (.octets [127, 0, 0, 1])⟩,
    ⟨.text "eth0", 1, .ipv4, some (.octets [0, 0, 0, 0])⟩, ⟨.text "eth1", 0, .absent, none⟩,
    ⟨.text "eth0:1", 4163, .ipv4, some (.octets [10, 0, 0, 6])⟩,
    ⟨.text "lo", 73, .ipv4, some (.octets [127, 0, 0, 2])⟩,
    ⟨.text "eth0", 4163, .ipv4, some (.octets [10, 0, 0, 5])⟩]

/-- A table with a VIF is filled anew. -/
def reloaded : Outcome Unit :=
  (Registry.after {} [.append { name := "eth0", ifindex := 7, vif := 0 }]).populate
    ⟨.ok mixedReports, [("eth0", 2)]⟩

/-- The VIF is gone, and the address of the alias is that of eth0. -/
theorem populate_describes_mixed :
    (∀ report ∈ mixedReports, report.IsSound) ∧ AliasesFollow mixedReports ∧
      reloaded.answer = .ok () ∧
      reloaded.registry.records.map (fun record => record.toIface) =
        [{ name := "eth0", ifindex := 2, flags := 4163, address := some ⟨10, 0, 0, 6⟩ },
          { name := "lo", ifindex := 0, flags := 73, address := some ⟨127, 0, 0, 1⟩ },
          { name := "eth1", ifindex := 0 }] := by
  have hsound : ∀ report ∈ mixedReports, report.IsSound := by decide
  have hfollow : AliasesFollow mixedReports := by decide
  have hsnapshot : Host.snapshot ⟨.ok mixedReports, [("eth0", 2)]⟩ = .ok mixedReports := rfl
  obtain ⟨⟨hok, hrecords⟩, -⟩ := populate_describes hsnapshot hsound hfollow
    (Registry.after {} [.append { name := "eth0", ifindex := 7, vif := 0 }])
  exact ⟨hsound, hfollow, hok, hrecords.trans (by decide)⟩

end Registry

end IfaceTable
