import IfaceTable.Proofs.Identities
import IfaceTable.Proofs.Upkeep

/-!
# Names of registered interfaces

Of several records with one name the last one is meant, so each new one takes the name over. Once
one of them has a VIF that is over: the first of those that have one is meant from then on, whatever
comes behind it.

* `Leads`: the first row with a name and a VIF. `chooseRow_of_leads`, `leads_of_chooseRow`: it is
  the one that is meant, and one with a VIF that is meant is the first.
* `Leads.of_extends`: it is that still when the table has grown.
* `Registry.Pins`: whoever asks for a name gets the row, and so do the addresses reported for it.
* `pins_of_registered`: the name of a record with a VIF is pinned to it through all upkeep.
-/

namespace IfaceTable

/-- The row is the first one with the name and a VIF. -/
structure Leads (records : List Record) (base : String) (row : Row) : Prop where
  getElem? : records[row.2]? = some row.1
  name : row.1.name = base
  vif : 0 ≤ row.1.vif
  first : ∀ (i : Nat) (other : Record), records[i]? = some other → i < row.2 → other.name = base →
    other.vif < 0

variable {records : List Record} {base : String} {row : Row}

theorem find?_rowsNamed_eq_some_iff :
    (rowsNamed records base).find? (fun row => 0 ≤ row.1.vif) = some row ↔
      Leads records base row := by
  have hfind : (rowsNamed records base).find? (fun row => 0 ≤ row.1.vif) =
      (records.zipIdx.drop 0).find? fun row => decide (row.1.name = base ∧ 0 ≤ row.1.vif) := by
    rw [rowsNamed, List.find?_filter, List.drop_zero]
    simp only [decide_eq_true_eq]
  rw [hfind, find?_drop_eq_some_iff fun record => record.name = base ∧ 0 ≤ record.vif]
  simp only [decide_eq_true_eq, decide_eq_false_iff_not, not_and, Nat.zero_le, true_and,
    forall_const, Int.not_le]
  constructor
  · rintro ⟨hget, ⟨hname, hvif⟩, hfirst⟩
    exact ⟨hget, hname, hvif, hfirst⟩
  · rintro ⟨hget, hname, hvif, hfirst⟩
    exact ⟨hget, ⟨hname, hvif⟩, hfirst⟩

theorem chooseRow_of_leads (h : Leads records base row) : chooseRow records base = some row := by
  rw [chooseRow_eq, find?_rowsNamed_eq_some_iff.mpr h, Option.some_or]

/-- If one with a VIF is meant, it is the first of those that have one. -/
theorem leads_of_chooseRow (h : chooseRow records base = some row) (hvif : 0 ≤ row.1.vif) :
    Leads records base row := by
  have hmem : row ∈ rowsNamed records base := mem_rowsNamed.mpr (getElem?_of_chooseRow h)
  cases hfind : (rowsNamed records base).find? (fun row => 0 ≤ row.1.vif) with
  | none => exact absurd hvif (by simpa using List.find?_eq_none.mp hfind row hmem)
  | some first =>
    rw [chooseRow_eq, hfind, Option.some_or, Option.some.injEq] at h
    subst h
    exact find?_rowsNamed_eq_some_iff.mp hfind

namespace Record.Persists

variable {earlier later : Record}

theorem name (h : earlier.Persists later) : later.name = earlier.name := by rw [h.fields]

theorem vif (h : earlier.Persists later) : later.vif = earlier.vif := by rw [h.fields]

end Record.Persists

/-- A table that has grown has nothing new in front of the row. -/
theorem Leads.of_extends {earlier later : Registry} (h : Leads earlier.records base row)
    (hextends : earlier.Extends later) :
    ∃ kept, Leads later.records base (kept, row.2) ∧ row.1.Persists kept := by
  obtain ⟨kept, hkept, hpersists⟩ := hextends row.2 row.1 h.getElem?
  refine ⟨kept, ⟨hkept, ?_, ?_, fun i other hother hlt hname => ?_⟩, hpersists⟩
  · rw [hpersists.name, h.name]
  · rw [hpersists.vif]
    exact h.vif
  · have hrow := (List.getElem?_eq_some_iff.mp h.getElem?).1
    have hold : earlier.records[i]? = some earlier.records[i] :=
      List.getElem?_eq_getElem (by simp only at hlt; omega)
    obtain ⟨same, hsame, hpersists'⟩ := hextends i _ hold
    rw [hother, Option.some.injEq] at hsame
    subst hsame
    rw [hpersists'.vif]
    exact h.first i _ hold hlt (by rw [← hpersists'.name, hname])

namespace Registry

/-- All names of an interface and its aliases stand for the record of the row, which may have got an
address since; and an address that is reported for one of them is offered to this record, and to no
other. -/
structure Pins (table : Registry) (base : String) (row : Row) : Prop where
  resolves : ∀ name : String, name ≠ "" → baseName name = base →
    ∃ kept, table.findByName? (some name) = some (kept, row.2) ∧ row.1.Persists kept
  absorbs : ∀ (host : Host) (mode : Mode) (report : Report) (name : String),
    report.name = .text name → name ≠ "" → baseName name = base →
      let next := (table.perform (.absorb host mode report)).registry
      next.records = table.records.modify row.2 (Record.update (Iface.offered report.addresses)) ∧
        next.retired = table.retired

variable {registry table : Registry}

/-- A report about a name that is found is for the record that is found. -/
theorem records_of_absorb_known {host : Host} {mode : Mode} {next : Registry} {report : Report}
    {changed : Bool} (h : absorb host mode table report = .ok (next, changed))
    (hrow : table.findByName? report.name.text? = some row) :
    next.records = table.records.modify row.2 (Record.update (Iface.offered report.addresses)) ∧
      next.retired = table.retired := by
  obtain ⟨address, haddress, -, habsorbs⟩ := absorbs_of_absorb h
  rw [Report.addresses_of_ok haddress]
  cases habsorbs with
  | known hfound =>
    rw [hfound, Option.some.injEq] at hrow
    subst hrow
    exact ⟨records_fill (getElem?_of_findByName? hfound) address, (nextId_fill table _ address).2⟩
  | passed hnone | added hnone =>
    rw [hnone] at hrow
    cases hrow

/-- One that is at fault brings no address. -/
theorem records_absorb_of_known {report : Report}
    (hrow : table.findByName? report.name.text? = some row) (host : Host) (mode : Mode) :
    let next := (table.perform (.absorb host mode report)).registry
    next.records = table.records.modify row.2 (Record.update (Iface.offered report.addresses)) ∧
      next.retired = table.retired := by
  cases habsorb : absorb host mode table report with
  | error fault =>
    have hfault := atFault_of_absorb habsorb
    have hnone : report.addresses = [] := by
      cases hfault with
      | badAddress hcause => simp [Report.addresses, hcause, Except.toOption]
      | nameMissing _ hname | nameEmpty _ hname =>
        rw [hname] at hrow
        cases hrow
      | tableFull _ hname hunknown =>
        rw [hname, ReportedName.text?, hunknown] at hrow
        cases hrow
    rw [hfault.perform_absorb, hnone]
    exact ⟨(List.modify_id row.2 table.records).symm, rfl⟩
  | ok result =>
    obtain ⟨next, changed⟩ := result
    rw [perform_absorb_of_ok habsorb]
    exact records_of_absorb_known habsorb hrow

theorem pins_of_extends (h : Leads registry.records base row) (hextends : registry.Extends table) :
    table.Pins base row := by
  obtain ⟨kept, hleads, hpersists⟩ := h.of_extends hextends
  have hfound : ∀ name : String, name ≠ "" → baseName name = base →
      table.findByName? (some name) = some (kept, row.2) := by
    intro name hne hbase
    rw [findByName?_of_ne_empty hne, hbase]
    exact chooseRow_of_leads hleads
  refine ⟨fun name hne hbase => ⟨kept, hfound name hne hbase, hpersists⟩, ?_⟩
  intro host mode report name hname hne hbase
  have hrow := hfound name hne hbase
  rw [← ReportedName.text?, ← hname] at hrow
  exact records_absorb_of_known hrow host mode

/-- If a name stands for a record with a VIF, then through any upkeep it goes on standing for this
record, as do all other names with the same part before the colon; whatever is reported for one of
them on the way is for this record, and adds none. -/
theorem pins_of_registered {name : String} (hrow : registry.findByName? (some name) = some row)
    (hvif : 0 ≤ row.1.vif) {history : List Event} (hupkeep : ∀ event ∈ history, event.isUpkeep) :
    (registry.after history).Pins (baseName name) row ∧
      ∀ table ∈ registry.course history, table.Pins (baseName name) row := by
  obtain ⟨text, hname, -, hchoose⟩ := findByName?_eq_some hrow
  cases hname
  have hleads : Leads registry.records (baseName name) row := leads_of_chooseRow hchoose hvif
  have hpins : ∀ table ∈ registry.course history, table.Pins (baseName name) row :=
    fun table htable => pins_of_extends hleads (extends_of_mem_course hupkeep htable)
  exact ⟨hpins _ (after_mem_course registry history), hpins⟩

/-- Two more records of the name, of which one has a VIF, and between them two snapshots that go
wrong, the first one only after it has reported an address for an alias. -/
def crowding : List Event :=
  [.append { name := "eth0", ifindex := 7, vif := 0 },
    .reconcile ⟨.ok [⟨.text "eth0:1", 0, .ipv4, some (.octets [10, 0, 0, 6])⟩,
      ⟨.text "eth0", 0, .ipv4, some (.octets [10])⟩], []⟩ .full,
    .append { name := "eth0", ifindex := 8 },
    .refresh ⟨.error (.enumeration 12 "Cannot allocate memory"), []⟩]

/-- The address is for the first of the four records, which all names lead to. -/
theorem pins_of_registered_crowding :
    (∀ event ∈ crowding, event.isUpkeep) ∧
      (∃ record : Record, twins.findByName? (some "eth0:2") = some (record, 0) ∧ 0 ≤ record.vif ∧
        (twins.after crowding).Pins "eth0" (record, 0) ∧
        ∀ table ∈ twins.course crowding, table.Pins "eth0" (record, 0)) ∧
      (twins.course crowding).map (fun table => table.count) = [2, 3, 3, 3, 3, 4, 4] ∧
      (twins.after crowding).records.map (fun record => (record.vif, record.address)) =
        [(3, some ⟨10, 0, 0, 6⟩), (-1, none), (0, none), (-1, none)] := by
  have hupkeep : ∀ event ∈ crowding, event.isUpkeep := by decide
  obtain ⟨record, hrow, hvif⟩ :
      ∃ record : Record, twins.findByName? (some "eth0:2") = some (record, 0) ∧ 0 ≤ record.vif :=
    ⟨_, rfl, by decide⟩
  have hbase : baseName "eth0:2" = "eth0" := by decide
  obtain ⟨hafter, hcourse⟩ := pins_of_registered hrow hvif hupkeep
  rw [hbase] at hafter hcourse
  exact ⟨hupkeep, ⟨record, hrow, hvif, hafter, hcourse⟩, by decide, by decide⟩

end Registry

end IfaceTable
