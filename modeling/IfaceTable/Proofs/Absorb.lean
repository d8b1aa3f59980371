import IfaceTable.Proofs.Offer
import IfaceTable.Proofs.Resolution
import IfaceTable.Registry.Registration

/-!
# What a report does to the table

* `absorb`, `absorbAll`: one report, and several of them, told by the table that they leave.
  `perform_absorb`, `perform_absorbAll`: this is what the work comes to, so a report at fault leaves
  the table as it was, and those before it stay brought in.
* `Absorbs`: the three things that a report which is not at fault can do. `absorbs_of_absorb`: it
  does one of them. `AtFault`: the four faults of a report. `atFault_of_absorb`: these are all.
* `settings_of_absorb`, `settings_reconcile`: no report changes the settings.
* `map_records_modifyAt`, `map_records_registerAll`: what writing to some fields leaves alone.
* `records_fill`, `mem_records_of_append`: the records afterwards. Everything said of a whole
  snapshot follows from these and from `absorbAll_induction`: what every report keeps, all of them
  keep, also if one of them is at fault.
-/

namespace IfaceTable

/-- The IPv4 address that a report brings, or none. -/
def Report.addresses (report : Report) : List Ipv4 := report.ipv4?.toOption.join.toList

theorem Report.addresses_of_ok {report : Report} {address : Option Ipv4}
    (h : report.ipv4? = .ok address) : report.addresses = address.toList := by
  simp [addresses, h, Except.toOption]

/-- A change to one place of a list only depends on what is there. -/
theorem modify_congr_at {α : Type} {f g : α → α} {items : List α} {i : Nat} {item : α}
    (hitem : items[i]? = some item) (h : f item = g item) :
    items.modify i f = items.modify i g := by
  apply List.ext_getElem?
  intro j
  rw [List.getElem?_modify, List.getElem?_modify]
  by_cases hij : i = j
  · subst hij
    simp only [hitem, ↓reduceIte]
    exact congrArg some h
  · simp only [hij, ↓reduceIte]

@[simp] theorem Record.update_offered_nil (record : Record) :
    record.update (Iface.offered []) = record := rfl

theorem Slots.growthLimit_of_append? {α : Type} {s t : Slots α} {a : α}
    (h : s.append? a = some t) : t.growthLimit = s.growthLimit := by
  unfold append? at h
  split at h
  · cases h
    rfl
  · split at h
    · cases h
      rfl
    · cases h

/-- A new item is refused exactly where no slot is vacant and the row may not double. -/
theorem Slots.append?_eq_none_iff {α : Type} {s : Slots α} {a : α} :
    s.append? a = none ↔ s.IsFull ∧ ¬ s.CanGrow := by
  have hle : s.count ≤ s.capacity := s.count_le
  unfold append? IsFull
  split
  · exact iff_of_false (by simp) (by omega)
  · have hfull : s.count = s.capacity := by omega
    split <;> simp [*]

/-- Only a limit keeps a row from doubling. -/
theorem Slots.growthLimit_ne_none {α : Type} {s : Slots α} (h : ¬ s.CanGrow) :
    s.growthLimit ≠ none :=
  fun hnone => h (by simp [CanGrow, hnone])

namespace Registry

variable {host : Host} {mode : Mode} {registry next : Registry} {report : Report}

/-! ## What is left of a report -/

/-- The table with a new record for a report. -/
def add (registry : Registry) (host : Host) (report : Report) (address : Option Ipv4) :
    Except Fault Registry :=
  match report.name.text? with
  | some name => registry.append (registry.newIface host report name address)
  | none => .error .nameEmpty

/-- The table after one report, and whether a record got an address. -/
def absorb (host : Host) (mode : Mode) (registry : Registry) (report : Report) :
    Except Fault (Registry × Bool) :=
  match report.ipv4? with
  | .error cause => .error (.badAddress cause)
  | .ok address =>
    if report.name = .missing then .error .nameMissing
    else
      match registry.findByName? report.name.text?, mode with
      | some row, _ => .ok (registry.fill row address)
      | none, .refreshOnly => .ok (registry, false)
      | none, .full => (registry.add host report address).map (·, false)

/-- The table after all reports up to the first one at fault, and whether a record got an
address. -/
def absorbAll (host : Host) (mode : Mode) : Registry → List Report → Registry × Except Fault Bool
  | registry, [] => (registry, .ok false)
  | registry, report :: reports =>
    match absorb host mode registry report with
    | .error fault => (registry, .error fault)
    | .ok (next, changed) =>
      let (last, answer) := absorbAll host mode next reports
      (last, answer.map (changed || ·))

theorem perform_add (registry : Registry) (host : Host) (report : Report)
    (address : Option Ipv4) :
    registry.perform (.add host report address) =
      match registry.add host report address with
      | .ok next => { answer := .ok (), registry := next }
      | .error fault => { answer := .error fault, registry } := by
  unfold add Work.add
  cases report.name.text? with
  | some name => exact perform_append registry (registry.newIface host report name address)
  | none => rfl

/-- A report at fault leaves the table as it was: its work comes to each of its faults before it
writes anything. -/
theorem perform_absorb (host : Host) (mode : Mode) (registry : Registry) (report : Report) :
    registry.perform (.absorb host mode report) =
      match absorb host mode registry report with
      | .ok (next, changed) => { answer := .ok changed, registry := next }
      | .error fault => { answer := .error fault, registry } := by
  cases haddress : report.ipv4? with
  | error cause =>
    simp only [Work.absorb, absorb, haddress]
    rfl
  | ok address =>
    by_cases hmissing : report.name = .missing
    · simp [perform, Work.absorb, absorb, ofExcept, Except.mapError, haddress, hmissing]
    · cases hrow : registry.findByName? report.name.text? with
      | some row =>
        simp [perform, Work.absorb, absorb, ofExcept, Except.mapError, haddress, hmissing, hrow,
          -bind_pure_comp]
      | none =>
        cases mode with
        | refreshOnly =>
          simp [perform, Work.absorb, absorb, ofExcept, Except.mapError, haddress, hmissing, hrow]
        | full =>
          have hwork : registry.perform (.absorb host .full report) =
              registry.perform (do Work.add host report address; return false) := by
            simp [perform, Work.absorb, ofExcept, Except.mapError, haddress, hmissing, hrow]
          have hadd := perform_add registry host report address
          have hclosed : absorb host .full registry report =
              (registry.add host report address).map (·, false) := by
            simp [absorb, haddress, hmissing, hrow]
          rw [hwork, hclosed]
          cases hnext : registry.add host report address with
          | error fault =>
            rw [hnext] at hadd
            exact perform_bind_of_error hadd
          | ok next =>
            rw [hnext] at hadd
            exact perform_bind_of_ok hadd

theorem perform_absorbAll (host : Host) (mode : Mode) (registry : Registry)
    (reports : List Report) :
    registry.perform (.absorbAll host mode reports) =
      { answer := (absorbAll host mode registry reports).2
        registry := (absorbAll host mode registry reports).1 } := by
  induction reports generalizing registry with
  | nil => rfl
  | cons report reports ih =>
    have hreport := perform_absorb host mode registry report
    rw [absorbAll, Work.absorbAll]
    cases habsorb : absorb host mode registry report with
    | error fault =>
      rw [habsorb] at hreport
      exact perform_bind_of_error hreport
    | ok result =>
      obtain ⟨next, changed⟩ := result
      rw [habsorb] at hreport
      rw [perform_bind_of_ok hreport, perform_map, ih next]

/-! ## One report -/

/-- The record of a row takes the address unless it has a usable one. -/
theorem records_fill {row : Row} (hrow : registry.records[row.2]? = some row.1)
    (address : Option Ipv4) :
    (registry.fill row address).1.records =
      registry.records.modify row.2 (Record.update (Iface.offered address.toList)) := by
  cases address with
  | none => exact (List.modify_id row.2 registry.records).symm
  | some given =>
    by_cases husable : row.1.hasAddress
    · have hkept : Record.update (Iface.offered [given]) row.1 = row.1 := by
        rw [Iface.hasAddress_eq] at husable
        simp only [Record.update, Iface.offered, List.foldl_cons, List.foldl_nil,
          offer_of_usable husable]
      simp only [fill, husable, ↓reduceIte, Option.toList_some]
      rw [modify_congr_at (g := id) hrow hkept, List.modify_id]
    · have hgiven : Record.update (fun iface => { iface with address := some given }) row.1 =
          Record.update (Iface.offered [given]) row.1 := by
        rw [Iface.hasAddress_eq] at husable
        simp only [Record.update, Iface.offered, List.foldl_cons, List.foldl_nil, offer, husable,
          Bool.false_eq_true, ↓reduceIte]
      simp only [fill, husable, Bool.false_eq_true, ↓reduceIte, setAddress, records_modifyAt,
        Option.toList_some]
      exact modify_congr_at hrow hgiven

/-- The answer does not depend on the table. -/
theorem changed_fill (registry : Registry) (row : Row) (address : Option Ipv4) :
    (registry.fill row address).2 = true ↔ row.1.hasAddress = false ∧ address.toList ≠ [] := by
  cases address with
  | none => simp [fill]
  | some given => by_cases h : row.1.hasAddress <;> simp [fill, h]

/-- The records afterwards are those from before, but for the one of the row. -/
theorem mem_records_fill {row : Row} (hrow : registry.records[row.2]? = some row.1)
    {address : Option Ipv4} {record : Record}
    (hmem : record ∈ (registry.fill row address).1.records) :
    record = row.1.update (Iface.offered address.toList) ∨
      ∃ i, registry.records[i]? = some record ∧ i ≠ row.2 := by
  obtain ⟨i, hi⟩ := List.mem_iff_getElem?.mp hmem
  rw [records_fill hrow, List.getElem?_modify] at hi
  obtain ⟨old, hold, hi⟩ := Option.map_eq_some_iff.mp hi
  by_cases hpos : row.2 = i
  · subst hpos
    rw [hrow] at hold
    cases hold
    simp only [↓reduceIte] at hi
    exact .inl hi.symm
  · simp only [hpos, ↓reduceIte] at hi
    subst hi
    exact .inr ⟨i, hold, Ne.symm hpos⟩

theorem mem_records_of_append {iface : Iface} (h : registry.append iface = .ok next)
    {record : Record} (hmem : record ∈ next.records) :
    record ∈ registry.records ∨ record.toIface = iface := by
  rw [records_append h] at hmem
  rcases List.mem_append.mp hmem with hmem | hmem
  · exact .inl hmem
  · rw [List.mem_singleton.mp hmem]
    exact .inr rfl

/-- What a change does not touch is the same in all records afterwards. -/
theorem map_records_modifyAt {β : Type} (g : Record → β) (registry : Registry) (position : Nat)
    {f : Iface → Iface} (hg : ∀ record : Record, g (record.update f) = g record) :
    (registry.modifyAt position f).records.map g = registry.records.map g := by
  apply List.ext_getElem?
  intro i
  rw [records_modifyAt, List.getElem?_map, List.getElem?_map, List.getElem?_modify]
  cases registry.records[i]? with
  | none => rfl
  | some record =>
    simp only [Option.map_eq_map, Option.map_some]
    split
    · exact congrArg some (hg record)
    · rfl

theorem map_records_modify {β : Type} (g : Record → β) (registry : Registry) (id : Nat)
    {f : Iface → Iface} (hg : ∀ record : Record, g (record.update f) = g record) :
    (registry.modify id f).records.map g = registry.records.map g := by
  unfold modify
  split
  · exact map_records_modifyAt g registry _ hg
  · rfl

theorem map_records_fill {β : Type} (g : Record → β) (registry : Registry) (row : Row)
    (address : Option Ipv4)
    (hg : ∀ (record : Record) (address : Option Ipv4), g { record with address } = g record) :
    (registry.fill row address).1.records.map g = registry.records.map g := by
  unfold fill
  split
  · next given =>
    split
    · rfl
    · exact map_records_modifyAt g registry row.2 fun record => hg record (some given)
  · rfl

theorem map_records_register {β : Type} (g : Record → β)
    (hg : ∀ (record : Record) (vif : Int), g { record with vif } = g record)
    (state : RegistrationState) (row : Row) :
    (register state row).registry.records.map g = state.registry.records.map g := by
  unfold register
  simp only
  split
  · rfl
  · split
    · exact map_records_modifyAt g state.registry row.2 fun record => hg record state.next
    · rfl

theorem registerFrom_induction {P : Registry → Prop}
    (hstep : ∀ (state : RegistrationState) (row : Row), P state.registry →
      P (register state row).registry)
    (pattern : Pattern) (state : RegistrationState) (cursor : Cursor) (hstate : P state.registry) :
    P (registerFrom pattern state cursor).1.registry := by
  fun_induction registerFrom pattern state cursor with
  | case1 => exact hstate
  | case2 => exact hstate
  | case3 state cursor row after hnext ih => exact ih (hstep state row hstate)

/-- What registering each record keeps, registering all of them keeps. -/
theorem registerAll_induction {P : Registry → Prop}
    (hstep : ∀ (state : RegistrationState) (row : Row), P state.registry →
      P (register state row).registry)
    {registry : Registry} (hstart : P registry) (pattern : Option Pattern) :
    P (registry.registerAll pattern).1.registry := by
  cases pattern with
  | none => exact hstart
  | some pattern => exact registerFrom_induction hstep pattern _ {} hstart

theorem map_records_registerAll {β : Type} (g : Record → β)
    (hg : ∀ (record : Record) (vif : Int), g { record with vif } = g record)
    (registry : Registry) (pattern : Option Pattern) :
    (registry.registerAll pattern).1.registry.records.map g = registry.records.map g :=
  registerAll_induction (P := fun later => later.records.map g = registry.records.map g)
    (fun state row hstate => (map_records_register g hg state row).trans hstate) rfl pattern

/-- Two tables with the same settings and the same limit. -/
structure SameSettings (a b : Registry) : Prop where
  threshold : a.threshold = b.threshold
  routesIpv6 : a.routesIpv6 = b.routesIpv6
  growthLimit : a.slots.growthLimit = b.slots.growthLimit

theorem SameSettings.refl (registry : Registry) : registry.SameSettings registry := ⟨rfl, rfl, rfl⟩

theorem SameSettings.trans {a b c : Registry} (hab : a.SameSettings b) (hbc : b.SameSettings c) :
    a.SameSettings c :=
  ⟨hab.threshold.trans hbc.threshold, hab.routesIpv6.trans hbc.routesIpv6,
    hab.growthLimit.trans hbc.growthLimit⟩

theorem settings_fill (registry : Registry) (row : Row) (address : Option Ipv4) :
    (registry.fill row address).1.SameSettings registry := by
  unfold fill
  split
  · split <;> exact ⟨rfl, rfl, rfl⟩
  · exact ⟨rfl, rfl, rfl⟩

theorem settings_of_append {iface : Iface} (h : registry.append iface = .ok next) :
    next.SameSettings registry := by
  unfold append at h
  split at h
  · next slots hslots =>
    cases h
    exact ⟨rfl, rfl, Slots.growthLimit_of_append? hslots⟩
  · cases h

/-- What a report with the given address does to the table if it is not at fault: the table
afterwards, and whether a record got the address. -/
inductive Absorbs (host : Host) (registry : Registry) (report : Report) (address : Option Ipv4) :
    Mode → Registry → Bool → Prop
  /-- A record has the name. -/
  | known {mode : Mode} {row : Row} (hrow : registry.findByName? report.name.text? = some row) :
    Absorbs host registry report address mode (registry.fill row address).1
      (registry.fill row address).2
  /-- No record has the name, and none is to be added. -/
  | passed (hnone : registry.findByName? report.name.text? = none) :
    Absorbs host registry report address .refreshOnly registry false
  /-- No record has the name yet. -/
  | added {name : String} {next : Registry}
    (hnone : registry.findByName? report.name.text? = none) (hname : report.name = .text name)
    (hnext : registry.append (registry.newIface host report name address) = .ok next) :
    Absorbs host registry report address .full next false

theorem absorbs_of_absorb {changed : Bool}
    (h : absorb host mode registry report = .ok (next, changed)) :
    ∃ address, report.ipv4? = .ok address ∧ report.name ≠ .missing ∧
      Absorbs host registry report address mode next changed := by
  unfold absorb at h
  split at h
  · cases h
  · next address haddress =>
    split at h
    · cases h
    · next hname =>
      refine ⟨address, haddress, hname, ?_⟩
      split at h
      · next row hrow =>
        have hfill := Except.ok.inj h
        obtain ⟨rfl, rfl⟩ : (registry.fill row address).1 = next ∧
            (registry.fill row address).2 = changed := by simp [hfill]
        exact .known hrow
      · next hnone =>
        cases h
        exact .passed hnone
      · next hnone =>
        unfold add at h
        split at h
        · next name htext =>
          have htext : report.name = .text name := by
            cases hr : report.name <;> simp_all [ReportedName.text?]
          cases happend : registry.append (registry.newIface host report name address) with
          | error fault => simp [happend, Except.map] at h
          | ok added =>
            simp only [happend, Except.map, Except.ok.injEq, Prod.mk.injEq] at h
            obtain ⟨rfl, rfl⟩ := h
            exact .added hnone htext happend
        · cases h

/-- Each of the three things is what a report does. -/
theorem Absorbs.absorb_eq_ok {address : Option Ipv4} {changed : Bool}
    (haddress : report.ipv4? = .ok address) (hname : report.name ≠ .missing)
    (h : Absorbs host registry report address mode next changed) :
    absorb host mode registry report = .ok (next, changed) := by
  unfold absorb
  cases h with
  | known hrow => simp [haddress, hname, hrow]
  | passed hnone => simp [haddress, hname, hnone]
  | added hnone htext hnext =>
    rw [htext, ReportedName.text?] at hnone
    simp [haddress, htext, hnone, add, ReportedName.text?, hnext, Except.map]

theorem append_eq_error_iff {iface : Iface} {fault : Fault} :
    registry.append iface = .error fault ↔
      fault = .tableFull ∧ registry.slots.IsFull ∧ ¬ registry.slots.CanGrow := by
  rw [← Slots.append?_eq_none_iff (a := { iface with id := registry.nextId })]
  unfold append
  split
  · next hslots => simp [hslots]
  · next hnone => simp [hnone, eq_comm]

/-- No report changes the settings of the table. -/
theorem settings_of_absorb {changed : Bool}
    (h : absorb host mode registry report = .ok (next, changed)) :
    next.SameSettings registry := by
  obtain ⟨address, -, -, habsorbs⟩ := absorbs_of_absorb h
  cases habsorbs with
  | known => exact settings_fill registry _ address
  | passed => exact .refl registry
  | added hnone hname hnext => exact settings_of_append hnext

/-- What is wrong with a report that meets the given table, and the fault that comes of it. Of two
things that are wrong the first one counts. -/
inductive AtFault (registry : Registry) (report : Report) : Mode → Fault → Prop
  /-- What is given as an address is none. -/
  | badAddress {mode : Mode} {cause : AddressError} (hcause : report.ipv4? = .error cause) :
    AtFault registry report mode (.badAddress cause)
  /-- Nothing is said of a name. -/
  | nameMissing {mode : Mode} {address : Option Ipv4} (haddress : report.ipv4? = .ok address)
    (hname : report.name = .missing) : AtFault registry report mode .nameMissing
  /-- The place for the name of an interface that is to be added is empty. -/
  | nameEmpty {address : Option Ipv4} (haddress : report.ipv4? = .ok address)
    (hname : report.name = .empty) : AtFault registry report .full .nameEmpty
  /-- There is no room for an interface that is to be added. -/
  | tableFull {address : Option Ipv4} {name : String} (haddress : report.ipv4? = .ok address)
    (hname : report.name = .text name) (hnone : registry.findByName? (some name) = none)
    (hfull : registry.slots.IsFull) (hgrow : ¬ registry.slots.CanGrow) :
    AtFault registry report .full .tableFull

theorem AtFault.absorb_eq_error {fault : Fault} (h : AtFault registry report mode fault) :
    absorb host mode registry report = .error fault := by
  unfold absorb
  cases h with
  | badAddress hcause => rw [hcause]
  | nameMissing haddress hname => simp only [haddress, hname, ↓reduceIte]
  | nameEmpty haddress hname =>
    simp [haddress, hname, ReportedName.text?, findByName?, add, Except.map]
  | @tableFull address name haddress hname hnone hfull hgrow =>
    have happend : registry.append (registry.newIface host report name address) =
        .error .tableFull := append_eq_error_iff.mpr ⟨rfl, hfull, hgrow⟩
    simp [haddress, hname, ReportedName.text?, hnone, add, happend, Except.map]

theorem atFault_of_absorb {fault : Fault} (h : absorb host mode registry report = .error fault) :
    AtFault registry report mode fault := by
  unfold absorb at h
  split at h
  · next cause hcause =>
    cases h
    exact .badAddress hcause
  · next address haddress =>
    split at h
    · next hname =>
      cases h
      exact .nameMissing haddress hname
    · next hname =>
      split at h
      · cases h
      · cases h
      · next hnone =>
        cases hreport : report.name with
        | missing => exact absurd hreport hname
        | empty =>
          rw [add, hreport, ReportedName.text?] at h
          cases h
          exact .nameEmpty haddress hreport
        | text name =>
          rw [hreport, ReportedName.text?] at hnone
          cases happend : registry.append (registry.newIface host report name address) with
          | ok added => simp [add, hreport, ReportedName.text?, happend, Except.map] at h
          | error cause =>
            obtain ⟨rfl, hfull, hgrow⟩ := append_eq_error_iff.mp happend
            simp only [add, hreport, ReportedName.text?, happend, Except.map, Except.error.injEq]
              at h
            exact h ▸ .tableFull haddress hreport hnone hfull hgrow

/-- The work on a report that is not at fault leaves the table with what the report does to it. -/
theorem perform_absorb_of_ok {changed : Bool}
    (h : absorb host mode registry report = .ok (next, changed)) :
    registry.perform (.absorb host mode report) =
      { answer := .ok changed, registry := next } := by
  rw [perform_absorb, h]

/-- The work on a report at fault ends with the fault, and leaves nothing. -/
theorem AtFault.perform_absorb {fault : Fault} (h : AtFault registry report mode fault) :
    registry.perform (.absorb host mode report) = { answer := .error fault, registry } := by
  rw [Registry.perform_absorb, h.absorb_eq_error]

/-- What the work comes to is what a report does, or a fault. -/
theorem absorb_of_perform {changed : Bool}
    (h : registry.perform (.absorb host mode report) =
      { answer := .ok changed, registry := next }) :
    absorb host mode registry report = .ok (next, changed) := by
  rw [perform_absorb] at h
  cases habsorb : absorb host mode registry report with
  | error fault => simp [habsorb] at h
  | ok result => simpa [habsorb, Prod.ext_iff, and_comm] using h

theorem atFault_of_perform {fault : Fault}
    (h : (registry.perform (.absorb host mode report)).answer = .error fault) :
    AtFault registry report mode fault := by
  rw [perform_absorb] at h
  cases habsorb : absorb host mode registry report with
  | error cause =>
    simp only [habsorb, Except.error.injEq] at h
    exact h ▸ atFault_of_absorb habsorb
  | ok result => simp [habsorb] at h

/-! ## A whole snapshot -/

variable {reports : List Report}

theorem absorbAll_cons_of_ok {changed : Bool}
    (h : absorb host mode registry report = .ok (next, changed)) :
    absorbAll host mode registry (report :: reports) =
      ((absorbAll host mode next reports).1,
        (absorbAll host mode next reports).2.map (changed || ·)) := by
  rw [absorbAll, h]

theorem absorbAll_cons_of_error {fault : Fault}
    (h : absorb host mode registry report = .error fault) :
    absorbAll host mode registry (report :: reports) = (registry, .error fault) := by
  rw [absorbAll, h]

/-- Snapshots that are brought in to the end are so report by report. -/
theorem absorbAll_cons_eq_ok {changed : Bool}
    (h : (absorbAll host mode registry (report :: reports)).2 = .ok changed) :
    ∃ next gained later, absorb host mode registry report = .ok (next, gained) ∧
      (absorbAll host mode next reports).2 = .ok later ∧
      (absorbAll host mode registry (report :: reports)).1 =
        (absorbAll host mode next reports).1 := by
  cases habsorb : absorb host mode registry report with
  | error fault =>
    rw [absorbAll_cons_of_error habsorb] at h
    cases h
  | ok result =>
    obtain ⟨next, gained⟩ := result
    rw [absorbAll_cons_of_ok habsorb] at h ⊢
    cases hrest : (absorbAll host mode next reports).2 with
    | error fault => simp [hrest, Except.map] at h
    | ok later => exact ⟨next, gained, later, rfl, hrest, rfl⟩

/-- What every report keeps is kept by the whole snapshot, wherever it ends. -/
theorem absorbAll_induction {P : Registry → Prop}
    (hstep : ∀ report ∈ reports, ∀ registry next changed, P registry →
      absorb host mode registry report = .ok (next, changed) → P next)
    (hstart : P registry) : P (absorbAll host mode registry reports).1 := by
  induction reports generalizing registry with
  | nil => exact hstart
  | cons report reports ih =>
    cases h : absorb host mode registry report with
    | error fault =>
      rw [absorbAll_cons_of_error h]
      exact hstart
    | ok result =>
      obtain ⟨next, changed⟩ := result
      rw [absorbAll_cons_of_ok h]
      exact ih (fun later hmem => hstep later (List.mem_cons_of_mem report hmem))
        (hstep report List.mem_cons_self registry next changed hstart h)

/-- A pass over a snapshot, told by the table that it leaves. -/
theorem reconcile_of_snapshot (h : host.snapshot = .ok reports) :
    registry.reconcile host mode =
      match absorbAll host mode registry reports with
      | (last, .error .tableFull) =>
        { answer := .error (.exit .fatal), registry := last
          notices := [.growthFailed Fault.tableFull.message] }
      | (last, answer) => { answer, registry := last } := by
  unfold reconcile
  simp only [h, perform_absorbAll]
  cases absorbAll host mode registry reports with
  | mk last answer =>
    cases answer with
    | ok changed => rfl
    | error fault => cases fault <;> rfl

theorem reconcile_registry (h : host.snapshot = .ok reports) :
    (registry.reconcile host mode).registry = (absorbAll host mode registry reports).1 := by
  rw [reconcile_of_snapshot h]
  split <;> next heq => rw [heq]

theorem reconcile_registry_of_error {fault : Fault} (h : host.snapshot = .error fault) :
    (registry.reconcile host mode).registry = registry := by
  unfold reconcile
  rw [h]
  cases fault <;> rfl

theorem reconcile_answer_eq_ok_iff {changed : Bool} (h : host.snapshot = .ok reports) :
    (registry.reconcile host mode).answer = .ok changed ↔
      (absorbAll host mode registry reports).2 = .ok changed := by
  rw [reconcile_of_snapshot h]
  split
  · next heq => simp [heq]
  · next heq => rw [heq]

/-- Where there is no snapshot there is no answer. -/
theorem snapshot_of_answer {changed : Bool}
    (h : (registry.reconcile host mode).answer = .ok changed) :
    ∃ reports, host.snapshot = .ok reports := by
  cases hsnapshot : host.snapshot with
  | ok reports => exact ⟨reports, rfl⟩
  | error fault =>
    unfold reconcile at h
    rw [hsnapshot] at h
    cases fault <;> cases h

theorem reconcile_induction {P : Registry → Prop}
    (hstep : ∀ reports, host.snapshot = .ok reports → ∀ report ∈ reports,
      ∀ registry next changed, P registry →
        absorb host mode registry report = .ok (next, changed) → P next)
    (hstart : P registry) : P (registry.reconcile host mode).registry := by
  cases h : host.snapshot with
  | error fault =>
    rw [reconcile_registry_of_error h]
    exact hstart
  | ok reports =>
    rw [reconcile_registry h]
    exact absorbAll_induction (hstep reports h) hstart

theorem settings_reconcile (registry : Registry) (host : Host) (mode : Mode) :
    (registry.reconcile host mode).registry.SameSettings registry := by
  apply reconcile_induction (P := fun later => later.SameSettings registry)
  · intro reports _ report _ before next changed hbefore h
    exact (settings_of_absorb h).trans hbefore
  · exact .refl registry

@[simp] theorem refresh_registry (registry : Registry) (host : Host) :
    (registry.refresh host).registry = (registry.reconcile host .refreshOnly).registry := by
  unfold refresh
  simp only
  split <;> rfl

@[simp] theorem anew_none (registry : Registry) : registry.anew none = registry.clear := rfl

@[simp] theorem records_anew (registry : Registry) (limit : Option Int) :
    (registry.anew limit).records = [] := by
  cases limit <;> rfl

@[simp] theorem threshold_anew (registry : Registry) (limit : Option Int) :
    (registry.anew limit).threshold = registry.threshold := by
  cases limit <;> rfl

@[simp] theorem retired_anew (registry : Registry) (limit : Option Int) :
    (registry.anew limit).retired = registry.retired ++ registry.records := by
  cases limit <;> rfl

theorem growthLimit_anew (registry : Registry) (limit : Option Int) :
    (registry.anew limit).slots.growthLimit = limit := by
  cases limit <;> rfl

@[simp] theorem populate_registry (registry : Registry) (host : Host) (limit : Option Int) :
    (registry.populate host limit).registry =
      ((registry.anew limit).reconcile host .full).registry := rfl

theorem populate_answer (registry : Registry) (host : Host) (limit : Option Int) :
    (registry.populate host limit).answer =
      ((registry.anew limit).reconcile host .full).answer.map fun _ => () := rfl

theorem populate_answer_eq_ok_iff {limit : Option Int} :
    (registry.populate host limit).answer = .ok () ↔
      ∃ changed, ((registry.anew limit).reconcile host .full).answer = .ok changed := by
  rw [populate_answer]
  cases ((registry.anew limit).reconcile host .full).answer with
  | ok changed => simp [Except.map]
  | error fault => simp [Except.map]

end Registry

end IfaceTable
