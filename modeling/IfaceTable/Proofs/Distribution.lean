import IfaceTable.Proofs.Upkeep

/-!
# Passes that add nothing

An address redirects no name. So in a pass that adds no record, the table as it was before tells
to which record each of the addresses goes.

* `Registry.Knows`: a report is about a record of the table.
* `Registry.aimedAt`: the addresses that go to one position. `aimedAt_congr`: they depend on the
  names and VIFs alone.
* `getElem?_absorbAll`: the records after a pass in which no unknown interface is to be added.
* `knows_of_length`: a full pass without a new record was about known interfaces only.
-/

namespace IfaceTable

/-- The report is at fault in no table that knows its interface. -/
structure Report.IsReadable (report : Report) : Prop where
  name : report.name ≠ .missing
  address : ∃ address, report.ipv4? = .ok address

theorem map_update_offered_nil (record : Option Record) :
    record.map (Record.update (Iface.offered [])) = record := by
  cases record <;> rfl

theorem Record.update_offered_append (record : Record) (addresses more : List Ipv4) :
    record.update (Iface.offered (addresses ++ more)) =
      (record.update (Iface.offered addresses)).update (Iface.offered more) := by
  simp only [update, Iface.offered_append]

namespace Registry

/-- The position of the record that a report is about. -/
def positionFor? (registry : Registry) (report : Report) : Option Nat :=
  (registry.findByName? report.name.text?).map Prod.snd

/-- The report is about a record of the table. -/
def Knows (registry : Registry) (report : Report) : Prop := (registry.positionFor? report).isSome

instance (registry : Registry) (report : Report) : Decidable (registry.Knows report) :=
  inferInstanceAs (Decidable (_ = _))

/-- The addresses that are reported for the record at a position. -/
def aimedAt (registry : Registry) (position : Nat) (reports : List Report) : List Ipv4 :=
  (reports.filter fun report => registry.positionFor? report = some position).flatMap
    Report.addresses

/-- What resolution looks at in the table. -/
def keys (registry : Registry) : List (String × Int) := registry.records.map Record.key

theorem keys_fill (registry : Registry) (row : Row) (address : Option Ipv4) :
    (registry.fill row address).1.keys = registry.keys :=
  map_records_fill Record.key registry row address fun _ _ => rfl

theorem positionFor?_congr {a b : Registry} (h : a.keys = b.keys) (report : Report) :
    a.positionFor? report = b.positionFor? report := by
  unfold positionFor?
  cases report.name.text? with
  | none => rfl
  | some name =>
    by_cases hne : name = ""
    · rw [hne]
      rfl
    · rw [findByName?_of_ne_empty hne, findByName?_of_ne_empty hne, chooseRow_position,
        chooseRow_position]
      exact congrArg (choosePosition · (baseName name)) h

theorem knows_congr {a b : Registry} (h : a.keys = b.keys) {report : Report} :
    a.Knows report ↔ b.Knows report := by
  rw [Knows, Knows, positionFor?_congr h]

theorem aimedAt_congr {a b : Registry} (h : a.keys = b.keys) (position : Nat)
    (reports : List Report) : a.aimedAt position reports = b.aimedAt position reports := by
  simp only [aimedAt, positionFor?_congr h]

theorem aimedAt_cons (registry : Registry) (position : Nat) (report : Report)
    (reports : List Report) :
    registry.aimedAt position (report :: reports) =
      registry.aimedAt position [report] ++ registry.aimedAt position reports := by
  simp only [aimedAt, ← List.flatMap_append, ← List.filter_append, List.singleton_append]

variable {host : Host} {mode : Mode} {registry next : Registry} {report : Report}

theorem aimedAt_singleton {position : Nat} (h : registry.positionFor? report = some position) :
    registry.aimedAt position [report] = report.addresses := by
  simp [aimedAt, h]

theorem aimedAt_other {position : Nat} (h : registry.positionFor? report ≠ some position) :
    registry.aimedAt position [report] = [] := by
  simp [aimedAt, h]

/-! ## Addresses go where they are aimed -/

/-- A readable report about a known interface gives the record its address, and touches nothing
that resolution looks at. So does a report that may not add an unknown one. -/
theorem getElem?_absorb (host : Host) (hread : report.IsReadable)
    (hknows : mode = .full → registry.Knows report) :
    ∃ next changed, absorb host mode registry report = .ok (next, changed) ∧
      next.keys = registry.keys ∧
      ∀ i : Nat, next.records[i]? =
        registry.records[i]?.map (Record.update (Iface.offered (registry.aimedAt i [report]))) := by
  obtain ⟨address, haddress⟩ := hread.address
  cases hfind : registry.findByName? report.name.text? with
  | none =>
    have hposition : registry.positionFor? report = none := by rw [positionFor?, hfind]; rfl
    cases mode with
    | full =>
      have hknown := hknows rfl
      rw [Knows, hposition] at hknown
      cases hknown
    | refreshOnly =>
      refine ⟨registry, false, ?_, rfl, fun i => ?_⟩
      · unfold absorb
        simp only [haddress, hread.name, ↓reduceIte, hfind]
      · rw [aimedAt_other (by simp [hposition])]
        exact (map_update_offered_nil _).symm
  | some row =>
    have hposition : registry.positionFor? report = some row.2 := by rw [positionFor?, hfind]; rfl
    refine ⟨(registry.fill row address).1, (registry.fill row address).2, ?_, keys_fill _ _ _,
      fun i => ?_⟩
    · unfold absorb
      simp only [haddress, hread.name, ↓reduceIte, hfind]
    · rw [records_fill (getElem?_of_findByName? hfind), List.getElem?_modify]
      by_cases hi : row.2 = i
      · rw [aimedAt_singleton (hi ▸ hposition), Report.addresses_of_ok haddress]
        simp only [hi, ↓reduceIte]
        rfl
      · rw [aimedAt_other (by simpa [hposition] using hi)]
        simp only [hi, ↓reduceIte]
        rfl

/-- A pass over readable reports, none of which may add a record, gives each record the addresses
that are aimed at it. -/
theorem getElem?_absorbAll (host : Host) {reports : List Report}
    (hread : ∀ report ∈ reports, report.IsReadable)
    (hknows : mode = .full → ∀ report ∈ reports, registry.Knows report) :
    (∃ changed, (absorbAll host mode registry reports).2 = .ok changed) ∧
      ∀ i : Nat, (absorbAll host mode registry reports).1.records[i]? =
        registry.records[i]?.map (Record.update (Iface.offered (registry.aimedAt i reports))) := by
  induction reports generalizing registry with
  | nil => exact ⟨⟨false, rfl⟩, fun i => (map_update_offered_nil _).symm⟩
  | cons report reports ih =>
    obtain ⟨next, changed, habsorb, hkeys, hhead⟩ := getElem?_absorb host
      (hread report List.mem_cons_self) fun hmode => hknows hmode report List.mem_cons_self
    have hrest : mode = .full → ∀ other ∈ reports, next.Knows other := fun hmode other hmem =>
      (knows_congr hkeys).mpr (hknows hmode other (List.mem_cons_of_mem report hmem))
    obtain ⟨⟨later, hlater⟩, htail⟩ :=
      ih (fun other hmem => hread other (List.mem_cons_of_mem report hmem)) hrest
    rw [absorbAll_cons_of_ok habsorb]
    refine ⟨⟨changed || later, by rw [hlater]; rfl⟩, fun i => ?_⟩
    rw [htail, hhead, Option.map_map, aimedAt_congr hkeys,
      aimedAt_cons registry i report reports]
    congr 1
    funext record
    exact (record.update_offered_append _ _).symm

/-! ## No new record -/

theorem Extends.length_le {earlier later : Registry} (h : earlier.Extends later) :
    earlier.records.length ≤ later.records.length := by
  by_contra hlt
  have hlt : later.records.length < earlier.records.length := Nat.lt_of_not_le hlt
  obtain ⟨kept, hkept, -⟩ := h _ _ (List.getElem?_eq_getElem hlt)
  rw [List.getElem?_eq_none (Nat.le_refl _)] at hkept
  cases hkept

theorem extends_absorbAll (host : Host) (mode : Mode) (registry : Registry)
    (reports : List Report) :
    registry.Extends (absorbAll host mode registry reports).1 := by
  apply absorbAll_induction (P := fun later => registry.Extends later)
  · intro report _ before next changed hbefore h
    exact hbefore.trans (extends_of_absorb h)
  · exact .refl registry

/-- If a full pass to the end adds no record, all reports are about records of the table. -/
theorem knows_of_length {reports : List Report} {changed : Bool}
    (hok : (absorbAll host .full registry reports).2 = .ok changed)
    (hlength : (absorbAll host .full registry reports).1.records.length = registry.records.length) :
    ∀ report ∈ reports, registry.Knows report := by
  induction reports generalizing registry changed with
  | nil => simp
  | cons report reports ih =>
    obtain ⟨next, gained, later, habsorb, hlater, hlast⟩ := absorbAll_cons_eq_ok hok
    rw [hlast] at hlength
    have hhead := (extends_of_absorb habsorb).length_le
    have htail := (extends_absorbAll host .full next reports).length_le
    obtain ⟨address, -, -, habsorbs⟩ := absorbs_of_absorb habsorb
    cases habsorbs with
    | @known _ row hrow =>
      have hkeys := keys_fill registry row address
      intro other hmem
      rcases List.mem_cons.mp hmem with rfl | hmem
      · rw [Knows, positionFor?, hrow]
        rfl
      · exact (knows_congr hkeys).mp (ih hlater (by omega) other hmem)
    | added hnone hname hnext =>
      have hgrown := congrArg List.length (records_append hnext)
      rw [List.length_append, List.length_singleton] at hgrown
      omega

end Registry

end IfaceTable
