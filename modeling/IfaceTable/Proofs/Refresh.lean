import IfaceTable.Proofs.Distribution

/-!
# Refreshing

A refresh adds no record and redirects no name. So what it does to a record, and what it answers,
can be read off the table as it was before, and the reports.

* `records_refresh`: each record without a usable address gets the preferred one of the addresses
  that are aimed at it.
* `changed_absorb`, `changed_absorbAll`: the answer tells whether any address at all was aimed at a
  record without a usable one.
* `gains_refresh_iff`, `refresh_answer_exact_iff`: that is not the same as a record that gained an
  address, and `Registry.BringsPlaceholders` is the case in which it differs.
-/

namespace IfaceTable

theorem Record.update_offered (record : Record) (addresses : List Ipv4) :
    record.update (Iface.offered addresses) =
      { record with
        address :=
          if record.hasAddress then record.address
          else (preferred addresses).or record.address } := by
  simp only [update, Iface.offered, foldl_offer, Iface.hasAddress_eq]

theorem Record.Persists.waits {earlier later : Record} (h : earlier.Persists later)
    (hwaits : later.hasAddress = false) : earlier.hasAddress = false := by
  cases husable : earlier.hasAddress with
  | false => rfl
  | true =>
    rw [h.hasAddress husable] at hwaits
    cases hwaits

/-- An offer makes an address usable if a usable one is offered. -/
theorem Record.hasAddress_offered_iff {record : Record} (hwaits : record.hasAddress = false)
    (addresses : List Ipv4) :
    (record.update (Iface.offered addresses)).hasAddress = true ↔
      ∃ address ∈ addresses, address.isUsable := by
  rw [record.update_offered, Iface.hasAddress_eq, ← any_preferred]
  simp only [hwaits, Bool.false_eq_true, ↓reduceIte]
  cases hpreferred : preferred addresses with
  | none =>
    rw [Iface.hasAddress_eq] at hwaits
    simp [hwaits]
  | some address => simp

namespace Registry

/-- A record that had no usable address in the earlier table has one in the later. -/
def Gains (earlier later : Registry) : Prop :=
  ∃ row ∈ earlier.rows, row.1.hasAddress = false ∧
    ∃ record ∈ later.records[row.2]?, record.hasAddress = true

instance (earlier later : Registry) : Decidable (earlier.Gains later) :=
  inferInstanceAs (Decidable (∃ _ ∈ _, _ ∧ ∃ _ ∈ _, _))

/-- The reports bring an address to a record that has no usable one. -/
def BringsAddress (registry : Registry) (reports : List Report) : Prop :=
  ∃ row ∈ registry.rows, row.1.hasAddress = false ∧ registry.aimedAt row.2 reports ≠ []

instance (registry : Registry) (reports : List Report) :
    Decidable (registry.BringsAddress reports) :=
  inferInstanceAs (Decidable (∃ _ ∈ _, _))

/-- The reports bring 0.0.0.0 to records that have no usable address, and nothing else. -/
def BringsPlaceholders (registry : Registry) (reports : List Report) : Prop :=
  registry.BringsAddress reports ∧
    ∀ row ∈ registry.rows, row.1.hasAddress = false →
      ∀ address ∈ registry.aimedAt row.2 reports, address = .unspecified

instance (registry : Registry) (reports : List Report) :
    Decidable (registry.BringsPlaceholders reports) :=
  inferInstanceAs (Decidable (_ ∧ ∀ _ ∈ _, _ → ∀ _ ∈ _, _))

variable {host : Host} {mode : Mode} {registry next : Registry} {report : Report}
  {reports : List Report} {changed : Bool}

/-! ## Passes that come to their end -/

theorem readable_of_absorb (h : absorb host mode registry report = .ok (next, changed)) :
    report.IsReadable := by
  obtain ⟨address, haddress, hname, -⟩ := absorbs_of_absorb h
  exact ⟨hname, address, haddress⟩

/-- A pass comes to its end only over readable reports. -/
theorem readable_of_absorbAll (hok : (absorbAll host mode registry reports).2 = .ok changed) :
    ∀ report ∈ reports, report.IsReadable := by
  induction reports generalizing registry changed with
  | nil => simp
  | cons report reports ih =>
    obtain ⟨next, gained, later, habsorb, hlater, -⟩ := absorbAll_cons_eq_ok hok
    intro other hmem
    rcases List.mem_cons.mp hmem with rfl | hmem
    · exact readable_of_absorb habsorb
    · exact ih hlater other hmem

/-- One report of a refresh: nothing that resolution looks at is touched, and the record that it is
about is offered its address. -/
theorem refresh_of_absorb
    (h : absorb host .refreshOnly registry report = .ok (next, changed)) :
    next.keys = registry.keys ∧ ∀ i : Nat, next.records[i]? =
      registry.records[i]?.map (Record.update (Iface.offered (registry.aimedAt i [report]))) := by
  have hknows : Mode.refreshOnly = .full → registry.Knows report := fun hmode => by cases hmode
  obtain ⟨other, _, hother, hkeys, hrecords⟩ := getElem?_absorb host (readable_of_absorb h) hknows
  rw [h] at hother
  cases hother
  exact ⟨hkeys, hrecords⟩

/-- A refresh that comes to its end offers each record the addresses that are aimed at it in the
table before. -/
theorem getElem?_refresh (hsnapshot : host.snapshot = .ok reports)
    (hok : (registry.reconcile host .refreshOnly).answer = .ok changed) (i : Nat) :
    (registry.reconcile host .refreshOnly).registry.records[i]? =
      registry.records[i]?.map (Record.update (Iface.offered (registry.aimedAt i reports))) := by
  rw [reconcile_registry hsnapshot]
  have hread := readable_of_absorbAll ((reconcile_answer_eq_ok_iff hsnapshot).mp hok)
  exact (getElem?_absorbAll host hread (by simp)).2 i

/-- A refresh that comes to its end gives each record without a usable address the preferred one of
those that are aimed at it in the table before: the first usable one, or 0.0.0.0 if only that is
reported. Nothing else changes. -/
theorem records_refresh (hsnapshot : host.snapshot = .ok reports)
    (hok : (registry.reconcile host .refreshOnly).answer = .ok changed) :
    (registry.reconcile host .refreshOnly).registry.records = registry.rows.map fun row =>
      { row.1 with
        address :=
          if row.1.hasAddress then row.1.address
          else (preferred (registry.aimedAt row.2 reports)).or row.1.address } := by
  apply List.ext_getElem?
  intro i
  rw [getElem?_refresh hsnapshot hok, rows, List.getElem?_map, List.getElem?_zipIdx, Option.map_map]
  congr 1
  funext record
  rw [record.update_offered, Function.comp_apply, Nat.zero_add]

/-- A table in which eth0 is there twice, the second time with a VIF, and lo and an alias once. -/
def waiting : Registry :=
  Registry.after {}
    [.append { name := "eth0", ifindex := 2 }, .append { name := "eth0", ifindex := 2, vif := 0 },
      .append { name := "eth0:1", ifindex := 0 },
      .append { name := "lo", ifindex := 1, address := some ⟨127, 0, 0, 1⟩ }]

/-- A placeholder comes first, then an address of another family, a report that is about no
interface, one about an unknown interface, two that could be used, and one that comes too late. -/
def lateReports : List Report :=
  [⟨.text "eth0:7", 0, .ipv4, some (.text "0.0.0.0")⟩,
    ⟨.text "eth0", 0, .ipv6, some (.text "fe80::1")⟩,
    ⟨.text "", 0, .ipv4, some (.text "10.0.0.9")⟩,
    ⟨.text "wlan0", 0, .ipv4, some (.text "10.0.0.8")⟩,
    ⟨.text "eth0:1", 0, .ipv4, some (.text "10.0.0.6")⟩,
    ⟨.text "eth0", 0, .ipv4, some (.text "10.0.0.5")⟩,
    ⟨.text "lo", 0, .ipv4, some (.text "127.0.0.2")⟩]

def lateAddresses : Host := ⟨.ok lateReports, []⟩

/-- Only the record with the VIF gets an address; the name of the alias stands for it, too. -/
theorem records_refresh_waiting :
    (waiting.reconcile lateAddresses .refreshOnly).answer = .ok true ∧
      (waiting.reconcile lateAddresses .refreshOnly).registry.records.map
          (fun record => (record.name, record.vif, record.address)) =
        [("eth0", -1, none), ("eth0", 0, some ⟨10, 0, 0, 6⟩), ("eth0:1", -1, none),
          ("lo", -1, some ⟨127, 0, 0, 1⟩)] := by
  have hok : (waiting.reconcile lateAddresses .refreshOnly).answer = .ok true := by decide +kernel
  refine ⟨hok, ?_⟩
  rw [records_refresh (show lateAddresses.snapshot = .ok lateReports from rfl) hok]
  decide

/-! ## The answer -/

/-- One report brings an address to a record if it is about a record without a usable one. -/
theorem bringsAddress_singleton :
    registry.BringsAddress [report] ↔
      ∃ row, registry.findByName? report.name.text? = some row ∧ row.1.hasAddress = false ∧
        report.addresses ≠ [] := by
  constructor
  · rintro ⟨other, hother, hwaits, hne⟩
    by_cases hposition : registry.positionFor? report = some other.2
    · rw [aimedAt_singleton hposition] at hne
      obtain ⟨row, hrow, hpos⟩ := Option.map_eq_some_iff.mp hposition
      have hget := getElem?_of_findByName? hrow
      rw [hpos, mem_rows.mp hother, Option.some.injEq] at hget
      exact ⟨row, hrow, hget ▸ hwaits, hne⟩
    · exact absurd (aimedAt_other hposition) hne
  · rintro ⟨row, hrow, hwaits, hne⟩
    have hposition : registry.positionFor? report = some row.2 := by rw [positionFor?, hrow]; rfl
    refine ⟨row, mem_rows.mpr (getElem?_of_findByName? hrow), hwaits, ?_⟩
    rwa [aimedAt_singleton hposition]

/-- A report answers that it changed a record if it brings an address to one, in either mode. -/
theorem changed_absorb (h : absorb host mode registry report = .ok (next, changed)) :
    changed = true ↔ registry.BringsAddress [report] := by
  obtain ⟨address, haddress, -, habsorbs⟩ := absorbs_of_absorb h
  rw [bringsAddress_singleton, Report.addresses_of_ok haddress]
  cases habsorbs with
  | known hrow => simp [hrow, changed_fill]
  | passed hnone => simp [hnone]
  | added hnone hname hnext => simp [hnone]

/-- What is brought to a record is brought by the first report, or by the others to the table that
the first one leaves behind. -/
theorem bringsAddress_cons
    (h : absorb host .refreshOnly registry report = .ok (next, changed)) :
    registry.BringsAddress (report :: reports) ↔
      registry.BringsAddress [report] ∨ next.BringsAddress reports := by
  obtain ⟨hkeys, hrecords⟩ := refresh_of_absorb h
  constructor
  · rintro ⟨row, hrow, hwaits, hne⟩
    by_cases hhead : registry.aimedAt row.2 [report] = []
    · -- The first report leaves this record as it is.
      refine .inr ⟨row, ?_, hwaits, ?_⟩
      · rw [mem_rows, hrecords, hhead, map_update_offered_nil]
        exact mem_rows.mp hrow
      · rw [aimedAt_cons, hhead, List.nil_append] at hne
        rwa [aimedAt_congr hkeys]
    · exact .inl ⟨row, hrow, hwaits, hhead⟩
  · rintro (⟨row, hrow, hwaits, hne⟩ | ⟨row, hrow, hwaits, hne⟩)
    · refine ⟨row, hrow, hwaits, ?_⟩
      rw [aimedAt_cons]
      exact List.append_ne_nil_of_left_ne_nil hne _
    · rw [mem_rows, hrecords] at hrow
      obtain ⟨old, hold, hrow⟩ := Option.map_eq_some_iff.mp hrow
      rw [← hrow] at hwaits
      refine ⟨(old, row.2), mem_rows.mpr hold, (Record.Persists.offered old _).waits hwaits, ?_⟩
      rw [aimedAt_cons, ← aimedAt_congr hkeys row.2 reports]
      exact List.append_ne_nil_of_right_ne_nil _ hne

/-- A refresh that comes to its end answers whether any address was aimed at a record without a
usable one. -/
theorem changed_absorbAll
    (hok : (absorbAll host .refreshOnly registry reports).2 = .ok changed) :
    changed = true ↔ registry.BringsAddress reports := by
  induction reports generalizing registry changed with
  | nil =>
    cases hok
    simp [BringsAddress, aimedAt]
  | cons report reports ih =>
    obtain ⟨next, gained, later, habsorb, hlater, -⟩ := absorbAll_cons_eq_ok hok
    rw [absorbAll_cons_of_ok habsorb, hlater] at hok
    cases hok
    rw [bringsAddress_cons habsorb, ← changed_absorb habsorb, ← ih hlater, Bool.or_eq_true]

theorem refresh_answer (registry : Registry) (host : Host) :
    (registry.refresh host).answer = (registry.reconcile host .refreshOnly).answer := by
  unfold refresh
  simp only
  split <;> rfl

/-- The reports bring a usable address to a record that has none. -/
def BringsUsable (registry : Registry) (reports : List Report) : Prop :=
  ∃ row ∈ registry.rows, row.1.hasAddress = false ∧
    ∃ address ∈ registry.aimedAt row.2 reports, address.isUsable

theorem BringsUsable.bringsAddress (h : registry.BringsUsable reports) :
    registry.BringsAddress reports := by
  obtain ⟨row, hrow, hwaits, address, haddress, -⟩ := h
  exact ⟨row, hrow, hwaits, List.ne_nil_of_mem haddress⟩

theorem bringsPlaceholders_iff :
    registry.BringsPlaceholders reports ↔
      registry.BringsAddress reports ∧ ¬ registry.BringsUsable reports := by
  simp only [BringsPlaceholders, BringsUsable, ← Ipv4.isUsable_eq_false_iff, not_exists, not_and,
    Bool.not_eq_true]

/-- A record gains an address exactly if a usable one is aimed at it. -/
theorem gains_refresh_iff (hsnapshot : host.snapshot = .ok reports)
    (hok : (registry.reconcile host .refreshOnly).answer = .ok changed) :
    registry.Gains (registry.reconcile host .refreshOnly).registry ↔
      registry.BringsUsable reports := by
  refine exists_congr fun row => and_congr_right fun hrow => and_congr_right fun hwaits => ?_
  rw [getElem?_refresh hsnapshot hok, mem_rows.mp hrow, ← Record.hasAddress_offered_iff hwaits]
  simp

/-- The answer of a refresh tells whether any address was aimed at a record without a usable one.
It is never silent about a gain; and it is true without a gain exactly if 0.0.0.0 is all that such
records got. -/
theorem refresh_answer_exact_iff (hsnapshot : host.snapshot = .ok reports)
    (hok : (registry.refresh host).answer = .ok changed) :
    (changed = true ↔ registry.BringsAddress reports) ∧
      (registry.Gains (registry.refresh host).registry → changed = true) ∧
      ((changed = true ↔ registry.Gains (registry.refresh host).registry) ↔
        ¬ registry.BringsPlaceholders reports) := by
  rw [refresh_answer] at hok
  have hchanged := changed_absorbAll ((reconcile_answer_eq_ok_iff hsnapshot).mp hok)
  have husable : registry.BringsUsable reports → registry.BringsAddress reports :=
    BringsUsable.bringsAddress
  rw [refresh_registry, gains_refresh_iff hsnapshot hok, hchanged, bringsPlaceholders_iff]
  refine ⟨Iff.rfl, husable, ?_⟩
  tauto

/-- A refresh gives the record with the VIF the address of an alias, and counts as a change. -/
theorem refresh_answer_exact_waiting :
    (waiting.refresh lateAddresses).answer = .ok true ∧
      ¬ waiting.BringsPlaceholders lateReports ∧
      waiting.Gains (waiting.refresh lateAddresses).registry := by
  have hok : (waiting.refresh lateAddresses).answer = .ok true := by decide +kernel
  have hbrings : ¬ waiting.BringsPlaceholders lateReports := by decide
  have hsnapshot : lateAddresses.snapshot = .ok lateReports := rfl
  obtain ⟨-, -, hexact⟩ := refresh_answer_exact_iff hsnapshot hok
  exact ⟨hok, hbrings, (hexact.mpr hbrings).mp rfl⟩

/-- The link eth0 is up. -/
def linkUp : Host := ⟨.ok [⟨.text "eth0", 0, .absent, none⟩], [("eth0", 2)]⟩

/-- The link eth0 is up, and its address is not configured yet. -/
def unconfigured : Host :=
  ⟨.ok [⟨.text "eth0", 0, .ipv4, some (.text "0.0.0.0")⟩], [("eth0", 2)]⟩

/-- Each refresh answers that something changed, although eth0 has no usable address, and the second
one does not even write another one than before. -/
theorem refresh_over_placeholder :
    ((populate {} linkUp).registry.refresh unconfigured).answer = .ok true ∧
      ¬ (populate {} linkUp).registry.Gains
          ((populate {} linkUp).registry.refresh unconfigured).registry ∧
      (((populate {} linkUp).registry.refresh unconfigured).registry.refresh
          unconfigured).answer = .ok true ∧
      (((populate {} linkUp).registry.refresh unconfigured).registry.refresh
          unconfigured).registry.records =
        ((populate {} linkUp).registry.refresh unconfigured).registry.records := by
  decide +kernel

end Registry

end IfaceTable
