import IfaceTable.Proofs.BaseNames
import IfaceTable.Proofs.Identities

/-!
# The two modes side by side

A full pass and a refresh over one snapshot start with the same table. The full pass adds records on
its way, and a name stands for the last record that has it; still it gives every known record what
the refresh gives it. A record is only added where no record has the base of its name, so either no
later report is about it, or the refresh passes over these reports.

* `Registry.Ahead`: the table of the full pass at the moment at which the refresh has come to the
  same report. `Ahead.of_absorb`, `Ahead.of_absorbAll`: one report, and all of them,
  keep it.
* `modes_agree`: what both passes come to.
-/

namespace IfaceTable

theorem chooseRow_append_of_unnamed {records added : List Record} {base : String}
    (h : ∀ record ∈ added, record.name ≠ base) :
    chooseRow (records ++ added) base = chooseRow records base := by
  have hnamed : rowsNamed (records ++ added) base = rowsNamed records base := by
    rw [rowsNamed, List.zipIdx_append, List.filter_append]
    have hnone :
        (added.zipIdx (0 + records.length)).filter (fun row => row.1.name = base) = [] := by
      rw [List.filter_eq_nil_iff]
      intro row hrow
      simpa using h row.1 (List.fst_mem_of_mem_zipIdx hrow)
    rw [hnone, List.append_nil]
    rfl
  rw [chooseRow_eq, chooseRow_eq, hnamed]

namespace Registry

variable {host : Host} {mode : Mode} {refreshed full next : Registry} {report : Report}
  {reports : List Report}

/-- The full table has the records of the refreshed one and more of them, none of which has a base
name that is also the name of a refreshed record. -/
structure Ahead (refreshed full : Registry) : Prop where
  known : full.records.take refreshed.records.length = refreshed.records
  apart : ∀ name ∈ full.names.drop refreshed.records.length, IsBase name → name ∉ refreshed.names

namespace Ahead

theorem refl (registry : Registry) : registry.Ahead registry := by
  refine ⟨List.take_length, ?_⟩
  rw [List.drop_eq_nil_of_le (by simp [names])]
  simp

theorem getElem? (h : refreshed.Ahead full) {i : Nat} (hi : i < refreshed.records.length) :
    full.records[i]? = refreshed.records[i]? := by
  conv => rhs; rw [← h.known, List.getElem?_take_of_lt hi]

theorem length_le (h : refreshed.Ahead full) :
    refreshed.records.length ≤ full.records.length := by
  have := congrArg List.length h.known
  rw [List.length_take] at this
  omega

/-! ## What a name stands for in both tables -/

/-- What is known to the refresh is the same to the full pass. -/
theorem findByName?_of_known (h : refreshed.Ahead full) {name : Option String} {row : Row}
    (hrow : refreshed.findByName? name = some row) : full.findByName? name = some row := by
  obtain ⟨text, rfl, hne, hchoose⟩ := findByName?_eq_some hrow
  obtain ⟨hget, hname⟩ := getElem?_of_chooseRow hchoose
  have hbase : IsBase row.1.name := hname ▸ isBase_baseName text
  have hknown : row.1.name ∈ refreshed.names := List.mem_of_getElem? (getElem?_names hget)
  rw [findByName?_of_ne_empty hne, ← List.take_append_drop refreshed.records.length full.records,
    h.known, chooseRow_append_of_unnamed, hchoose]
  intro record hmem hsame
  have hdrop : record.name ∈ full.names.drop refreshed.records.length := by
    rw [names, ← List.map_drop]
    exact List.mem_map_of_mem hmem
  rw [hsame, ← hname] at hdrop
  exact h.apart row.1.name hdrop hbase hknown

/-- What only the full pass knows is behind the refreshed records. -/
theorem le_of_unknown (h : refreshed.Ahead full) {name : Option String}
    (hnone : refreshed.findByName? name = none) {row : Row}
    (hrow : full.findByName? name = some row) : refreshed.records.length ≤ row.2 := by
  obtain ⟨text, rfl, hne, hchoose⟩ := findByName?_eq_some hrow
  obtain ⟨hget, hname⟩ := getElem?_of_chooseRow hchoose
  rw [findByName?_of_ne_empty hne, chooseRow_eq_none_iff] at hnone
  by_contra hlt
  rw [h.getElem? (by omega)] at hget
  exact hnone row.1 (List.mem_of_getElem? hget) hname

/-! ## One report -/

/-- A report about a known record. -/
theorem fill (h : refreshed.Ahead full) {row : Row}
    (hrow : refreshed.records[row.2]? = some row.1) (address : Option Ipv4) :
    (refreshed.fill row address).1.Ahead (full.fill row address).1 := by
  have hfull : full.records[row.2]? = some row.1 := by
    rw [h.getElem? (List.getElem?_eq_some_iff.mp hrow).1, hrow]
  refine ⟨?_, ?_⟩
  · rw [records_fill hrow, records_fill hfull, List.length_modify, List.take_modify, h.known]
  · rw [names_fill, names_fill, records_fill hrow, List.length_modify]
    exact h.apart

/-- A report about a record that only the full pass knows. -/
theorem fill_added (h : refreshed.Ahead full) {row : Row}
    (hrow : full.records[row.2]? = some row.1) (hle : refreshed.records.length ≤ row.2)
    (address : Option Ipv4) : refreshed.Ahead (full.fill row address).1 := by
  refine ⟨?_, ?_⟩
  · rw [records_fill hrow, List.take_modify, h.known, List.modify_eq_self hle]
  · rw [names_fill]
    exact h.apart

/-- A report about a record that neither knows. -/
theorem append (h : refreshed.Ahead full) {iface : Iface} (hnext : full.append iface = .ok next)
    (hnew : IsBase iface.name → iface.name ∉ refreshed.names) : refreshed.Ahead next := by
  have hlength : full.names.length = full.records.length := List.length_map _
  refine ⟨?_, ?_⟩
  · rw [records_append hnext, List.take_append_of_le_length h.length_le, h.known]
  · rw [names_append hnext, List.drop_append_of_le_length (by rw [hlength]; exact h.length_le)]
    intro name hmem hbase
    rcases List.mem_append.mp hmem with hmem | hmem
    · exact h.apart name hmem hbase
    · rw [List.mem_singleton.mp hmem] at hbase ⊢
      exact hnew hbase

theorem of_absorb (h : refreshed.Ahead full) (hfit : report.NameFits)
    {later grown : Registry} {gained changed : Bool}
    (hrefresh : absorb host .refreshOnly refreshed report = .ok (later, gained))
    (hfull : absorb host .full full report = .ok (grown, changed)) :
    later.Ahead grown ∧ (gained = true → changed = true) := by
  obtain ⟨address, haddress, -, hrefreshed⟩ := absorbs_of_absorb hrefresh
  obtain ⟨same, hsame, -, hgrown⟩ := absorbs_of_absorb hfull
  rw [haddress, Except.ok.injEq] at hsame
  subst hsame
  cases hrefreshed with
  | known hrow =>
    have hknown := h.findByName?_of_known hrow
    cases hgrown with
    | known hother =>
      rw [hknown, Option.some.injEq] at hother
      subst hother
      refine ⟨h.fill (getElem?_of_findByName? hrow) address, ?_⟩
      rw [changed_fill, changed_fill]
      exact id
    | added hnone =>
      rw [hknown] at hnone
      cases hnone
  | passed hunknown =>
    refine ⟨?_, fun hgained => by cases hgained⟩
    cases hgrown with
    | known hrow =>
      exact h.fill_added (getElem?_of_findByName? hrow) (h.le_of_unknown hunknown hrow) address
    | @added name _ hnone hname hnext =>
      obtain ⟨hne, hlength⟩ := hfit name (by rw [hname]; rfl)
      rw [hname, ReportedName.text?] at hunknown
      refine h.append hnext ?_
      rw [newIface, Iface.create, cutName_eq_self hlength]
      exact fun hbase => not_mem_names_of_unknown hne hbase hunknown

/-- Two passes over the same reports that both come to their end. -/
theorem of_absorbAll (h : refreshed.Ahead full) (hfit : ∀ report ∈ reports, report.NameFits)
    {gained changed : Bool}
    (hrefresh : (absorbAll host .refreshOnly refreshed reports).2 = .ok gained)
    (hfull : (absorbAll host .full full reports).2 = .ok changed) :
    (absorbAll host .refreshOnly refreshed reports).1.Ahead (absorbAll host .full full reports).1 ∧
      (gained = true → changed = true) := by
  induction reports generalizing refreshed full gained changed with
  | nil =>
    cases hrefresh
    exact ⟨h, fun hgained => by cases hgained⟩
  | cons report reports ih =>
    obtain ⟨later, early, late, hstep, hrest, -⟩ := absorbAll_cons_eq_ok hrefresh
    obtain ⟨grown, early', late', hstep', hrest', -⟩ := absorbAll_cons_eq_ok hfull
    obtain ⟨hahead, hearly⟩ := h.of_absorb (hfit report List.mem_cons_self) hstep hstep'
    obtain ⟨hlast, hlate⟩ := ih hahead
      (fun other hmem => hfit other (List.mem_cons_of_mem report hmem)) hrest hrest'
    rw [absorbAll_cons_of_ok hstep, hrest] at hrefresh ⊢
    rw [absorbAll_cons_of_ok hstep', hrest'] at hfull ⊢
    cases hrefresh
    cases hfull
    refine ⟨hlast, ?_⟩
    rw [Bool.or_eq_true, Bool.or_eq_true]
    exact Or.imp hearly hlate

end Ahead

/-! ## Both passes to their ends -/

theorem length_absorbAll_refresh (host : Host) (registry : Registry) (reports : List Report) :
    (absorbAll host .refreshOnly registry reports).1.records.length = registry.records.length := by
  apply absorbAll_induction (P := fun later => later.records.length = registry.records.length)
  · intro report _ before next changed hbefore h
    obtain ⟨address, -, -, habsorbs⟩ := absorbs_of_absorb h
    cases habsorbs with
    | known hrow =>
      rw [records_fill (getElem?_of_findByName? hrow), List.length_modify, hbefore]
    | passed => exact hbefore
  · rfl

/-- If both passes over a snapshot come to their ends, the full one leaves the known records as the
refresh does. All others have identities that were not given before; so if identities are given in
order, as they are along every history, these are records that were never in the table. What is a
change to the refresh is one to the full pass. -/
theorem modes_agree (hsnapshot : host.snapshot = .ok reports) (hfit : host.NamesFit)
    (registry : Registry) {gained changed : Bool}
    (hrefresh : (registry.reconcile host .refreshOnly).answer = .ok gained)
    (hfull : (registry.reconcile host .full).answer = .ok changed) :
    (registry.reconcile host .full).registry.records.take registry.records.length =
        (registry.reconcile host .refreshOnly).registry.records ∧
      (∀ record ∈ (registry.reconcile host .full).registry.records.drop registry.records.length,
        registry.nextId ≤ record.id ∧ (registry.InOrder → record.id ∉ registry.everIds)) ∧
      (gained = true → changed = true) := by
  rw [reconcile_answer_eq_ok_iff hsnapshot] at hrefresh hfull
  rw [reconcile_registry hsnapshot, reconcile_registry hsnapshot]
  have hfits : ∀ report ∈ reports, report.NameFits := hfit reports (by rw [hsnapshot]; rfl)
  obtain ⟨hahead, hchange⟩ := (Ahead.refl registry).of_absorbAll hfits hrefresh hfull
  have hknown := hahead.known
  rw [length_absorbAll_refresh] at hknown
  refine ⟨hknown, ?_, hchange⟩
  obtain ⟨added, hids, -⟩ := ids_absorbAll host .full registry reports
  have hnew : (absorbAll host .full registry reports).1.ids.drop registry.records.length =
      List.range' registry.nextId added := by
    rw [hids, ← length_ids, List.drop_left]
  intro record hmem
  have hid : record.id ∈ List.range' registry.nextId added := by
    rw [← hnew, ids, ← List.map_drop]
    exact List.mem_map_of_mem hmem
  have hle := (List.mem_range'_1.mp hid).1
  exact ⟨hle, fun horder => not_mem_everIds horder hle⟩

/-- A table with two records of one name, with one of an alias, and with a nameless one. -/
def crowded : Registry :=
  Registry.after {}
    [.append { name := "eth0", ifindex := 2 }, .append { name := "eth0:1", ifindex := 0 },
      .append { name := "", ifindex := 0 },
      .append { name := "eth0", ifindex := 2, address := some .unspecified }]

/-- The alias of an unknown interface comes ahead of it, and a name that begins with its colon is
about the nameless record. -/
def freshReports : List Report :=
  [⟨.text "wlan0:1", 0, .ipv4, some (.text "10.0.1.6")⟩, ⟨.text "wlan0", 3, .absent, none⟩,
    ⟨.text "wlan0", 3, .ipv4, some (.text "10.0.1.5")⟩,
    ⟨.text ":2", 0, .ipv4, some (.text "10.0.2.1")⟩,
    ⟨.text "eth0:1", 0, .ipv4, some (.text "10.0.0.6")⟩]

def freshAddresses : Host := ⟨.ok freshReports, [("wlan0", 4)]⟩

/-- The two new records are behind the four that the refresh leaves. -/
theorem modes_agree_crowded :
    freshAddresses.NamesFit ∧
      (crowded.reconcile freshAddresses .refreshOnly).answer = .ok true ∧
      (crowded.reconcile freshAddresses .full).answer = .ok true ∧
      (crowded.reconcile freshAddresses .full).registry.names =
        ["eth0", "eth0:1", "", "eth0", "wlan0:1", "wlan0"] ∧
      (crowded.reconcile freshAddresses .full).registry.records.take 4 =
        (crowded.reconcile freshAddresses .refreshOnly).registry.records ∧
      ∀ record ∈ (crowded.reconcile freshAddresses .full).registry.records.drop 4,
        4 ≤ record.id ∧ record.id ∉ crowded.everIds := by
  have hfit : freshAddresses.NamesFit := by decide
  have hrefresh : (crowded.reconcile freshAddresses .refreshOnly).answer = .ok true := by
    decide +kernel
  have hfull : (crowded.reconcile freshAddresses .full).answer = .ok true := by decide +kernel
  have hsnapshot : freshAddresses.snapshot = .ok freshReports := rfl
  obtain ⟨hknown, hnew, -⟩ := modes_agree hsnapshot hfit crowded hrefresh hfull
  have horder : crowded.InOrder := inOrder_after (show InOrder {} from rfl) _
  refine ⟨hfit, hrefresh, hfull, by decide +kernel, hknown, fun record hmem => ?_⟩
  obtain ⟨hle, hfresh⟩ := hnew record hmem
  exact ⟨hle, hfresh horder⟩

end Registry

end IfaceTable
