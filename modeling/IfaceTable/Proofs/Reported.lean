import IfaceTable.Proofs.Absorb

/-!
# What a snapshot says of an interface

A snapshot is a list of reports, in which an interface comes up many times, under its own name and
under aliases. This module says what all of them together tell of one interface, without any table.

* `interfaceNames`: the interfaces, in the order in which they come up under their own names.
* `addressesFor`, `interfaceFor`: the addresses of an interface, and all that is told of it.
* `ownReports`, `describedBy`: the same from the first report on that gives its own name.
* `describedBy_concat`, `describedBy_concat_new`: one more report.
-/

namespace IfaceTable

/-- The name of the interface that the report is about, under its own name or as an alias. -/
def Report.base? (report : Report) : Option String := report.name.text?.map baseName

/-- The reported names without a colon. -/
def baseNames (reports : List Report) : List String :=
  reports.filterMap fun report => report.name.text?.filter fun name => IsBase name

/-- The names without a colon, in the order of their first reports. -/
def interfaceNames (reports : List Report) : List String := (baseNames reports).eraseDups

/-- The addresses reported for an interface, under its own name or for an alias. -/
def addressesFor (base : String) (reports : List Report) : List Ipv4 :=
  (reports.filter fun report => report.base? = some base).flatMap Report.addresses

/-- The interface of which the reports tell: its flags are those of the first report under its own
name, and its address is the preferred one of all that are reported for it. -/
def interfaceFor (host : Host) (threshold : Int) (reports : List Report) (base : String) :
    Iface where
  name := base
  ifindex := host.index base
  flags := ((reports.find? fun report => report.name = .text base).map Report.flags).getD 0
  address := preferred (addressesFor base reports)
  vif := -1
  mif := -1
  mrdisc := false
  threshold := threshold

/-- The reports in front of the first one under the name itself. -/
def earlyReports (base : String) (reports : List Report) : List Report :=
  reports.takeWhile fun report => report.name ≠ .text base

/-- The reports from the first one under the name itself on. -/
def ownReports (base : String) (reports : List Report) : List Report :=
  reports.dropWhile fun report => report.name ≠ .text base

/-- The interface of which the reports tell from the first one under its own name on. -/
def describedBy (host : Host) (threshold : Int) (reports : List Report) (base : String) : Iface :=
  interfaceFor host threshold (ownReports base reports) base

/-! ## Names -/

theorem ReportedName.text?_eq_some_iff {name : ReportedName} {text : String} :
    name.text? = some text ↔ name = .text text := by
  cases name <;> simp [text?]

theorem mem_interfaceNames {reports : List Report} {name : String} :
    name ∈ interfaceNames reports ↔ IsBase name ∧ ∃ report ∈ reports, report.name = .text name := by
  simp only [interfaceNames, baseNames, List.mem_eraseDups, List.mem_filterMap,
    Option.filter_eq_some_iff, ReportedName.text?_eq_some_iff, decide_eq_true_eq]
  exact ⟨fun ⟨report, hmem, hname, hbase⟩ => ⟨hbase, report, hmem, hname⟩,
    fun ⟨hbase, report, hmem, hname⟩ => ⟨report, hmem, hname, hbase⟩⟩

theorem interfaceNames_append (reports more : List Report) :
    interfaceNames (reports ++ more) =
      interfaceNames reports ++ ((baseNames more).removeAll (baseNames reports)).eraseDups := by
  rw [interfaceNames, baseNames, List.filterMap_append, List.eraseDups_append]
  rfl

theorem baseNames_singleton {report : Report} {name : String} (hname : report.name = .text name)
    (hbase : IsBase name) : baseNames [report] = [name] := by
  have hkept : (report.name.text?.filter fun name => IsBase name) = some name :=
    Option.filter_eq_some_iff.mpr ⟨ReportedName.text?_eq_some_iff.mpr hname, by simpa using hbase⟩
  exact List.filterMap_cons_some hkept

/-- A report under a new name without a colon adds the name. -/
theorem interfaceNames_concat_new {reports : List Report} {report : Report} {name : String}
    (hname : report.name = .text name) (hbase : IsBase name)
    (hnew : name ∉ interfaceNames reports) :
    interfaceNames (reports ++ [report]) = interfaceNames reports ++ [name] := by
  rw [interfaceNames, List.mem_eraseDups] at hnew
  rw [interfaceNames_append, baseNames_singleton hname hbase, List.removeAll,
    List.filter_cons_of_pos (by simpa using hnew)]
  rfl

/-- A report under a known name, or as an alias, adds none. -/
theorem interfaceNames_concat_known {reports : List Report} {report : Report}
    (hknown : ∀ name, report.name = .text name → IsBase name → name ∈ interfaceNames reports) :
    interfaceNames (reports ++ [report]) = interfaceNames reports := by
  have hremove : (baseNames [report]).removeAll (baseNames reports) = [] := by
    rw [List.removeAll, List.filter_eq_nil_iff]
    intro name hmem
    obtain ⟨other, hother, hfilter⟩ := List.mem_filterMap.mp hmem
    obtain ⟨htext, hbase⟩ := Option.filter_eq_some_iff.mp hfilter
    rw [List.mem_singleton.mp hother] at htext
    have hold := hknown name (ReportedName.text?_eq_some_iff.mp htext) (by simpa using hbase)
    rw [interfaceNames, List.mem_eraseDups] at hold
    simpa using hold
  rw [interfaceNames_append, hremove, List.eraseDups_nil, List.append_nil]

/-- A report about an interface that came up under its own name adds no name. -/
theorem interfaceNames_concat_of_base {reports : List Report} {report : Report} {base : String}
    (hreport : report.base? = some base) (hknown : base ∈ interfaceNames reports) :
    interfaceNames (reports ++ [report]) = interfaceNames reports := by
  apply interfaceNames_concat_known
  intro name hname hbase
  rw [Report.base?, hname, ReportedName.text?, Option.map_some, hbase.baseName_eq,
    Option.some.injEq] at hreport
  rwa [hreport]

/-- A report about an interface that did not adds its own name, if that is not an alias. -/
theorem interfaceNames_concat_of_new {reports : List Report} {report : Report} {name : String}
    (hname : report.name = .text name) (hnew : baseName name ∉ interfaceNames reports) :
    interfaceNames (reports ++ [report]) =
      interfaceNames reports ++ [name].filter fun name => IsBase name := by
  by_cases hbase : IsBase name
  · rw [hbase.baseName_eq] at hnew
    rw [interfaceNames_concat_new hname hbase hnew, List.filter_cons_of_pos (by simpa using hbase),
      List.filter_nil]
  · rw [List.filter_cons_of_neg (by simpa using hbase), List.filter_nil, List.append_nil]
    apply interfaceNames_concat_known
    intro other hother hb
    rw [hname, ReportedName.text.injEq] at hother
    exact absurd (hother ▸ hb) hbase

/-! ## Addresses -/

theorem addressesFor_append (base : String) (reports more : List Report) :
    addressesFor base (reports ++ more) = addressesFor base reports ++ addressesFor base more := by
  simp only [addressesFor, List.filter_append, List.flatMap_append]

theorem addressesFor_singleton {report : Report} {base : String} (h : report.base? = some base) :
    addressesFor base [report] = report.addresses := by
  simp [addressesFor, h]

theorem addressesFor_other {report : Report} {base : String} (h : report.base? ≠ some base) :
    addressesFor base [report] = [] := by
  simp [addressesFor, h]

theorem early_append_own (base : String) (reports : List Report) :
    earlyReports base reports ++ ownReports base reports = reports :=
  List.takeWhile_append_dropWhile

/-! ## One more report -/

theorem ownReports_concat {reports : List Report} {base : String}
    (hown : ∃ report ∈ reports, report.name = .text base) (last : Report) :
    ownReports base (reports ++ [last]) = ownReports base reports ++ [last] := by
  have hne : (ownReports base reports).isEmpty = false := by
    rw [List.isEmpty_eq_false_iff, ownReports, Ne, List.dropWhile_eq_nil_iff]
    intro hall
    obtain ⟨report, hmem, hname⟩ := hown
    simpa [hname] using hall report hmem
  rw [ownReports] at hne
  rw [ownReports, List.dropWhile_append, hne]
  rfl

theorem ownReports_concat_new {reports : List Report} {base : String}
    (hnone : ∀ report ∈ reports, report.name ≠ .text base) {last : Report}
    (hname : last.name = .text base) : ownReports base (reports ++ [last]) = [last] := by
  rw [ownReports, List.dropWhile_append_of_pos (by simpa using hnone),
    List.dropWhile_cons_of_neg (by simp [hname])]

theorem exists_mem_ownReports {reports : List Report} {base : String}
    (hown : ∃ report ∈ reports, report.name = .text base) :
    ∃ report ∈ ownReports base reports, report.name = .text base := by
  obtain ⟨report, hmem, hname⟩ := hown
  rw [← early_append_own base reports] at hmem
  rcases List.mem_append.mp hmem with hearly | hmem
  · have := List.mem_takeWhile_imp hearly
    simp [hname] at this
  · exact ⟨report, hmem, hname⟩

/-- A further report offers its address, if it is about the interface at all. -/
theorem describedBy_concat {reports : List Report} {base : String}
    (hown : ∃ report ∈ reports, report.name = .text base) (host : Host) (threshold : Int)
    (last : Report) :
    describedBy host threshold (reports ++ [last]) base =
      (describedBy host threshold reports base).offered (addressesFor base [last]) := by
  have hfind : ((ownReports base reports).find? fun report => report.name = .text base).isSome := by
    obtain ⟨report, hmem, hname⟩ := exists_mem_ownReports hown
    exact List.find?_isSome.mpr ⟨report, hmem, by simpa using hname⟩
  simp only [describedBy, interfaceFor, Iface.offered, ownReports_concat hown, addressesFor_append,
    preferred_append, List.find?_append, Option.or_of_isSome hfind]

/-- The first report under the name itself is all that is told of the interface then. -/
theorem describedBy_concat_new {reports : List Report} {base : String} (hbase : IsBase base)
    (hnone : ∀ report ∈ reports, report.name ≠ .text base) {last : Report}
    (hname : last.name = .text base) {address : Option Ipv4} (haddress : last.ipv4? = .ok address)
    (host : Host) (threshold : Int) :
    describedBy host threshold (reports ++ [last]) base =
      { name := base, ifindex := host.index base, flags := last.flags, address, threshold } := by
  have hlast : last.base? = some base := by
    rw [Report.base?, hname, ReportedName.text?, Option.map_some, hbase.baseName_eq]
  have hpreferred : preferred address.toList = address := by
    rw [← foldl_offer_none]
    cases address <;> rfl
  simp only [describedBy, interfaceFor, ownReports_concat_new hnone hname,
    addressesFor_singleton hlast, Report.addresses_of_ok haddress, hpreferred, hname,
    List.find?_cons_of_pos, decide_true, Option.map_some, Option.getD_some]

end IfaceTable
