import IfaceTable.Proofs.BaseNames
import IfaceTable.Proofs.Walk

/-!
# VIF numbers

Registration counts on from the greatest VIF in use, and nothing else gives numbers. So no number is
given twice as long as the table is not filled anew.

* `DistinctVifs`: the invariant, about the VIFs of the records alone.
* `registerFrom_eq`: what is numbered on the way makes no difference to the search, so the whole
  table may be searched first. `registerAll_fst`: registration counts the selected rows.
* `Registry.dueRows`: the rows that registration is to give a number. `getElem?_foldl_register`: it
  counts them, in the order of the table. `isRegistered_registerAll`: it changes nothing else.
* `vifs_never_shared`: along every history in which no VIF comes from elsewhere, a number stands
  for one record.
-/

namespace IfaceTable

/-- No VIF is below -1, and no two records have the same number. -/
structure DistinctVifs (vifs : List Int) : Prop where
  neg_one_le : ∀ vif ∈ vifs, -1 ≤ vif
  index_eq : ∀ (i j : Nat) (vif : Int), 0 ≤ vif → vifs[i]? = some vif → vifs[j]? = some vif → i = j

/-- An event that writes no VIF, but for registration. -/
def Event.BringsNoVif : Event → Prop
  | populate .. | clear | reconcile .. | refresh _ | limitGrowth _ | register _ => True
  | append iface => iface.vif = -1
  | assign _ values => values.vif = none

instance : (event : Event) → Decidable event.BringsNoVif
  | .populate .. | .clear | .reconcile .. | .refresh _ | .limitGrowth _ | .register _ =>
    inferInstanceAs (Decidable True)
  | .append iface => inferInstanceAs (Decidable (iface.vif = -1))
  | .assign _ values => inferInstanceAs (Decidable (values.vif = none))

/-- The interface with another VIF. -/
def Iface.withVif (number : Int) (iface : Iface) : Iface := { iface with vif := number }

/-- Registration gives the record a number if it comes to it. -/
def Record.isDue (record : Record) : Bool := record.hasAddress && record.vif < 0

namespace DistinctVifs

theorem nil : DistinctVifs [] := ⟨by simp, by simp⟩

/-- A record without a number may be added. -/
theorem append {vifs : List Int} (h : DistinctVifs vifs) : DistinctVifs (vifs ++ [-1]) := by
  refine ⟨?_, ?_⟩
  · intro vif hmem
    rcases List.mem_append.mp hmem with hmem | hmem
    · exact h.neg_one_le vif hmem
    · exact Int.le_of_eq (List.mem_singleton.mp hmem).symm
  · have hold : ∀ (i : Nat) (vif : Int), 0 ≤ vif → (vifs ++ [-1])[i]? = some vif →
        vifs[i]? = some vif := by
      intro i vif hnumber hi
      rcases Nat.lt_or_ge i vifs.length with hlt | hge
      · rwa [List.getElem?_append_left hlt] at hi
      · rw [List.getElem?_append_right hge] at hi
        have hmem := List.mem_singleton.mp (List.mem_of_getElem? hi)
        omega
    exact fun i j vif hnumber hi hj =>
      h.index_eq i j vif hnumber (hold i vif hnumber hi) (hold j vif hnumber hj)

/-- A number above all others may be given to any record. -/
theorem set {vifs : List Int} (h : DistinctVifs vifs) {number : Int} (hnumber : 0 ≤ number)
    (habove : ∀ vif ∈ vifs, vif < number) (position : Nat) :
    DistinctVifs (vifs.set position number) := by
  refine ⟨?_, ?_⟩
  · intro vif hmem
    rcases List.mem_or_eq_of_mem_set hmem with hmem | rfl
    · exact h.neg_one_le vif hmem
    · omega
  · have hcases : ∀ (i : Nat) (vif : Int), (vifs.set position number)[i]? = some vif →
        i = position ∧ vif = number ∨ vifs[i]? = some vif ∧ vif < number := by
      intro i vif hi
      rw [List.getElem?_set] at hi
      by_cases hpos : position = i
      · rw [if_pos hpos] at hi
        split at hi
        · exact .inl ⟨hpos.symm, (Option.some.inj hi).symm⟩
        · cases hi
      · rw [if_neg hpos] at hi
        exact .inr ⟨hi, habove vif (List.mem_of_getElem? hi)⟩
    intro i j vif hvif hi hj
    rcases hcases i vif hi with ⟨hi, hsame⟩ | ⟨hi, hlt⟩
    · rcases hcases j vif hj with ⟨hj, -⟩ | ⟨-, hlt⟩
      · rw [hi, hj]
      · omega
    · rcases hcases j vif hj with ⟨-, hsame⟩ | ⟨hj, -⟩
      · omega
      · exact h.index_eq i j vif hvif hi hj

end DistinctVifs

namespace Registry

/-- The VIFs of the records, in order. -/
def vifs (registry : Registry) : List Int := registry.records.map fun record => record.vif

/-- The greatest VIF in use, or -1. -/
def greatestVif (registry : Registry) : Int := registry.vifs.max?.getD (-1)

/-- The rows that registration is to give a number: their names are selected, and they have a usable
address but no number yet. -/
def dueRows (registry : Registry) (pattern : Option Pattern) : List Row :=
  registry.rows.filter fun row =>
    (pattern.any fun p => p.selects row.1.name) && row.1.hasAddress && row.1.vif = -1

/-- The tables are the same but for what stands in their filled slots. -/
structure SameFrame (before after : Registry) : Prop where
  rest : after = { before with slots := after.slots }
  count : after.count = before.count
  capacity : after.capacity = before.capacity
  growthLimit : after.slots.growthLimit = before.slots.growthLimit

/-- The table `after` is what registration under a pattern makes of the table `before`: the due rows
are numbered on from the greatest VIF, and nothing else changes. -/
structure IsRegistered (before : Registry) (pattern : Option Pattern) (after : Registry) : Prop
    extends SameFrame before after where
  given : ∀ (k : Nat) (row : Row), (before.dueRows pattern)[k]? = some row →
    after.records[row.2]? = some { row.1 with vif := before.greatestVif + 1 + k }
  kept : ∀ row ∈ before.rows, row ∉ before.dueRows pattern → after.records[row.2]? = some row.1

/-! ## What keeps the VIFs -/

variable {host : Host} {mode : Mode} {registry next : Registry} {report : Report}

theorem vifs_fill (registry : Registry) (row : Row) (address : Option Ipv4) :
    (registry.fill row address).1.vifs = registry.vifs :=
  map_records_fill _ registry row address fun _ _ => rfl

theorem vifs_modify (registry : Registry) (id : Nat) {f : Iface → Iface}
    (hf : ∀ iface, (f iface).vif = iface.vif) : (registry.modify id f).vifs = registry.vifs :=
  map_records_modify _ registry id fun record => hf record.toIface

theorem vifs_append {iface : Iface} (h : registry.append iface = .ok next) :
    next.vifs = registry.vifs ++ [iface.vif] := by
  rw [vifs, records_append h, List.map_append]
  rfl

/-- Only the VIF of the record at the position is another one. -/
theorem vifs_modifyAt (registry : Registry) (position : Nat) (number : Int) :
    (registry.modifyAt position (Iface.withVif number)).vifs =
      registry.vifs.set position number := by
  apply List.ext_getElem?
  intro i
  rw [vifs, records_modifyAt, List.getElem?_map, List.getElem?_modify, List.getElem?_set, vifs,
    List.getElem?_map, List.length_map]
  cases hget : registry.records[i]? with
  | none =>
    have hlength := List.getElem?_eq_none_iff.mp hget
    rw [length_records] at hlength
    simp
    omega
  | some record =>
    have hlt := (List.getElem?_eq_some_iff.mp hget).1
    rw [length_records] at hlt
    by_cases hpos : position = i <;> simp [hpos, hlt, Record.update, Iface.withVif]

theorem distinctVifs_of_absorb {changed : Bool}
    (h : absorb host mode registry report = .ok (next, changed))
    (hdistinct : DistinctVifs registry.vifs) : DistinctVifs next.vifs := by
  obtain ⟨address, -, -, habsorbs⟩ := absorbs_of_absorb h
  cases habsorbs with
  | known => rwa [vifs_fill]
  | passed => exact hdistinct
  | added hnone hname hnext =>
    rw [vifs_append hnext]
    exact hdistinct.append

theorem distinctVifs_reconcile (registry : Registry) (hdistinct : DistinctVifs registry.vifs)
    (host : Host) (mode : Mode) :
    DistinctVifs (registry.reconcile host mode).registry.vifs := by
  apply reconcile_induction (P := fun registry => DistinctVifs registry.vifs)
  · intro reports _ report _ registry next changed hdistinct h
    exact distinctVifs_of_absorb h hdistinct
  · exact hdistinct

/-! ## Registration of one record -/

theorem register_of_due (state : RegistrationState) {row : Row} (hdue : row.1.isDue) :
    (register state row).registry =
        state.registry.modifyAt row.2 (Iface.withVif state.next) ∧
      (register state row).next = state.next + 1 := by
  rw [Record.isDue, Bool.and_eq_true, decide_eq_true_eq] at hdue
  obtain ⟨address, haddress⟩ := Option.isSome_iff_exists.mp hdue.1
  have hvif : ¬ 0 ≤ row.1.vif := by omega
  have hregister : register state row =
      { registry := state.registry.modifyAt row.2 (Iface.withVif state.next)
        next := state.next + 1
        log := state.log ++ [.assigned row.1.name state.next address] } := by
    simp only [register, hvif, haddress, ↓reduceIte]
    rfl
  rw [hregister]
  exact ⟨rfl, rfl⟩

theorem register_of_not_due (state : RegistrationState) {row : Row}
    (hdue : row.1.isDue = false) :
    (register state row).registry = state.registry ∧ (register state row).next = state.next := by
  rw [Record.isDue, Bool.and_eq_false_iff, decide_eq_false_iff_not] at hdue
  by_cases hvif : 0 ≤ row.1.vif
  · simp [register, hvif]
  · have haddress : row.1.usableAddress? = none := by
      rcases hdue with haddress | hnumber
      · exact Option.isSome_eq_false_iff.mp haddress |> Option.isNone_iff_eq_none.mp
      · omega
    simp [register, hvif, haddress]

/-- Registration has numbers in use that are distinct and below the next one. -/
structure IsCounting (state : RegistrationState) : Prop where
  distinct : DistinctVifs state.registry.vifs
  nonneg : 0 ≤ state.next
  above : ∀ vif ∈ state.registry.vifs, vif < state.next

theorem IsCounting.register {state : RegistrationState} (h : IsCounting state) (row : Row) :
    IsCounting (register state row) := by
  cases hdue : row.1.isDue with
  | true =>
    obtain ⟨hregistry, hnext⟩ := register_of_due state hdue
    refine ⟨?_, ?_, ?_⟩
    · rw [hregistry, vifs_modifyAt]
      exact h.distinct.set h.nonneg h.above row.2
    · have := h.nonneg
      omega
    · intro vif hmem
      rw [hregistry, vifs_modifyAt] at hmem
      rcases List.mem_or_eq_of_mem_set hmem with hmem | rfl
      · have := h.above vif hmem
        omega
      · omega
  | false =>
    obtain ⟨hregistry, hnext⟩ := register_of_not_due state hdue
    refine ⟨?_, ?_, ?_⟩
    · rw [hregistry]
      exact h.distinct
    · rw [hnext]
      exact h.nonneg
    · rw [hregistry, hnext]
      exact h.above

theorem IsCounting.foldl {state : RegistrationState} (h : IsCounting state) (rows : List Row) :
    IsCounting (rows.foldl Registry.register state) := by
  induction rows generalizing state with
  | nil => exact h
  | cons row rows ih => exact ih (h.register row)

/-! ## Registration of several records -/

theorem nextVif_eq (registry : Registry) : registry.nextVif = registry.greatestVif + 1 := by
  unfold nextVif greatestVif vifs
  cases (registry.records.map fun record => record.vif).max? <;> rfl

theorem neg_one_le_greatestVif (h : ∀ vif ∈ registry.vifs, -1 ≤ vif) :
    -1 ≤ registry.greatestVif := by
  cases hmax : registry.vifs.max? with
  | none =>
    rw [greatestVif, hmax]
    exact Int.le_refl (-1)
  | some greatest =>
    rw [greatestVif, hmax]
    exact h greatest (List.max?_eq_some_iff.mp hmax).1

theorem isCounting_nextVif (hdistinct : DistinctVifs registry.vifs) :
    IsCounting { registry, next := registry.nextVif } := by
  have hle : ∀ vif ∈ registry.vifs, vif ≤ registry.greatestVif := by
    intro vif hmem
    cases hmax : registry.vifs.max? with
    | none =>
      rw [List.max?_eq_none_iff.mp hmax] at hmem
      cases hmem
    | some greatest =>
      rw [greatestVif, hmax]
      exact (List.max?_eq_some_iff.mp hmax).2 vif hmem
  have hnonneg := neg_one_le_greatestVif hdistinct.neg_one_le
  refine ⟨hdistinct, ?_, fun vif hmem => ?_⟩
  · show 0 ≤ registry.nextVif
    rw [nextVif_eq]
    omega
  · show vif < registry.nextVif
    have := hle vif hmem
    rw [nextVif_eq]
    omega

theorem getElem?_register_of_kept {state : RegistrationState} {row : Row} {i : Nat}
    (hi : row.1.isDue → row.2 ≠ i) :
    (register state row).registry.records[i]? = state.registry.records[i]? := by
  cases hdue : row.1.isDue with
  | true =>
    rw [(register_of_due state hdue).1, records_modifyAt, List.getElem?_modify]
    simp [hi hdue]
  | false => rw [(register_of_not_due state hdue).1]

theorem getElem?_foldl_register_of_kept {rows : List Row} {i : Nat}
    (hi : ∀ row ∈ rows, row.1.isDue → row.2 ≠ i) (state : RegistrationState) :
    (rows.foldl register state).registry.records[i]? = state.registry.records[i]? := by
  induction rows generalizing state with
  | nil => rfl
  | cons row rows ih =>
    rw [List.foldl_cons, ih fun later hmem => hi later (List.mem_cons_of_mem row hmem),
      getElem?_register_of_kept (hi row List.mem_cons_self)]

theorem foldl_register_of_not_due {rows : List Row} (hrows : ∀ row ∈ rows, row.1.isDue = false)
    (state : RegistrationState) : (rows.foldl register state).registry = state.registry := by
  induction rows generalizing state with
  | nil => rfl
  | cons row rows ih =>
    rw [List.foldl_cons, ih fun later hmem => hrows later (List.mem_cons_of_mem row hmem),
      (register_of_not_due state (hrows row List.mem_cons_self)).1]

/-- Registration row by row gives the due records numbers that count on from the next one, in the
order of the rows. -/
theorem getElem?_foldl_register {rows : List Row} (hrows : rows.Pairwise fun a b => a.2 ≠ b.2)
    (state : RegistrationState) {k : Nat} {row : Row}
    (hk : (rows.filter fun row => row.1.isDue)[k]? = some row) :
    (rows.foldl register state).registry.records[row.2]? =
      state.registry.records[row.2]?.map (Record.update (Iface.withVif (state.next + k))) := by
  induction rows generalizing state k with
  | nil => cases hk
  | cons first rows ih =>
    obtain ⟨hfirst, hrows⟩ := List.pairwise_cons.mp hrows
    rw [List.foldl_cons]
    cases hdue : first.1.isDue with
    | false =>
      obtain ⟨hregistry, hnext⟩ := register_of_not_due state hdue
      rw [List.filter_cons, hdue] at hk
      rw [ih hrows (register state first) hk, hregistry, hnext]
    | true =>
      obtain ⟨hregistry, hnext⟩ := register_of_due state hdue
      rw [List.filter_cons, hdue] at hk
      cases k with
      | zero =>
        -- The rows behind the first one are at other positions.
        cases hk
        rw [getElem?_foldl_register_of_kept fun later hmem _ => Ne.symm (hfirst later hmem),
          hregistry, records_modifyAt, List.getElem?_modify]
        simp
      | succ k =>
        rw [if_pos rfl, List.getElem?_cons_succ] at hk
        have hmem := (List.mem_filter.mp (List.mem_of_getElem? hk)).1
        rw [ih hrows (register state first) hk, hnext,
          getElem?_register_of_kept fun _ => hfirst row hmem, Int.add_assoc, Int.add_comm 1]
        rfl

theorem SameFrame.refl (registry : Registry) : registry.SameFrame registry := ⟨rfl, rfl, rfl, rfl⟩

theorem SameFrame.trans {a b c : Registry} (hab : a.SameFrame b) (hbc : b.SameFrame c) :
    a.SameFrame c :=
  ⟨hbc.rest.trans (by rw [hab.rest]), hbc.count.trans hab.count, hbc.capacity.trans hab.capacity,
    hbc.growthLimit.trans hab.growthLimit⟩

theorem sameFrame_register (state : RegistrationState) (row : Row) :
    state.registry.SameFrame (register state row).registry := by
  cases hdue : row.1.isDue with
  | true =>
    rw [(register_of_due state hdue).1]
    exact ⟨rfl, rfl, List.length_modify .., rfl⟩
  | false =>
    rw [(register_of_not_due state hdue).1]
    exact .refl _

theorem sameFrame_foldl_register (rows : List Row) (state : RegistrationState) :
    state.registry.SameFrame (rows.foldl register state).registry := by
  induction rows generalizing state with
  | nil => exact .refl _
  | cons row rows ih => exact (sameFrame_register state row).trans (ih (register state row))

/-! ## Registration along the search -/

/-- The records behind the one that is registered are the same as before. -/
theorem drop_zipIdx_register (state : RegistrationState) (row : Row) :
    (register state row).registry.records.zipIdx.drop (row.2 + 1) =
      state.registry.records.zipIdx.drop (row.2 + 1) := by
  apply List.ext_getElem?
  intro i
  rw [List.getElem?_drop, List.getElem?_drop, List.getElem?_zipIdx, List.getElem?_zipIdx,
    getElem?_register_of_kept fun _ => by omega]

/-- The search goes on in the table with the number as it would without it. -/
theorem walk_register (pattern : Pattern) (state : RegistrationState) (row : Row)
    (matchCount : Int) :
    Cursor.walk pattern (register state row).registry.records ⟨row.2 + 1, matchCount⟩ =
      Cursor.walk pattern state.registry.records ⟨row.2 + 1, matchCount⟩ := by
  have hstart : 0 ≤ (row.2 : Int) + 1 := by omega
  have hposition : ((row.2 : Int) + 1).toNat = row.2 + 1 := by omega
  rw [Cursor.walk_eq pattern _ hstart, Cursor.walk_eq pattern _ hstart, length_records_register]
  simp only [hposition, Cursor.rowsFrom, drop_zipIdx_register]

/-- To register while searching is to search the whole table first: what is numbered lies behind
the cursor. -/
theorem registerFrom_eq (pattern : Pattern) (state : RegistrationState) {cursor : Cursor}
    (h : 0 ≤ cursor.position) :
    registerFrom pattern state cursor =
      ((Cursor.walk pattern state.registry.records cursor).1.foldl register state,
        (Cursor.walk pattern state.registry.records cursor).2) := by
  fun_induction registerFrom pattern state cursor with
  | case1 state cursor fault hnext =>
    rw [Cursor.walk, hnext]
    rfl
  | case2 state cursor after hnext =>
    rw [Cursor.walk, hnext]
    rfl
  | case3 state cursor row after hnext ih =>
    obtain ⟨-, -, -, hafter⟩ := Cursor.next_some hnext
    have hwalk : Cursor.walk pattern state.registry.records cursor =
        (row :: (Cursor.walk pattern state.registry.records after).1,
          (Cursor.walk pattern state.registry.records after).2) := by
      rw [Cursor.walk, hnext]
    rw [ih (by rw [hafter]; simp only; omega), hwalk, List.foldl_cons, hafter, walk_register]

/-- So registration under a pattern registers the selected rows, in order. -/
theorem registerAll_fst (registry : Registry) (pattern : Option Pattern) :
    (registry.registerAll pattern).1 =
      (registry.selectedRows pattern).foldl register { registry, next := registry.nextVif } := by
  rw [← matchAll_fst]
  cases pattern with
  | none => rfl
  | some pattern =>
    have hstart : 0 ≤ ({} : Cursor).position := Int.le_refl 0
    simp only [registerAll, registerFrom_eq pattern _ hstart]
    rfl

/-! ## Registration of the due records -/

theorem dueRows_eq (hdistinct : DistinctVifs registry.vifs) (pattern : Option Pattern) :
    registry.dueRows pattern = (registry.selectedRows pattern).filter fun row => row.1.isDue := by
  rw [selectedRows, List.filter_filter, dueRows]
  refine List.filter_congr fun row hrow => ?_
  have hvif := hdistinct.neg_one_le row.1.vif
    (List.mem_map_of_mem (List.mem_of_getElem? (mem_rows.mp hrow)))
  have hiff : row.1.vif = -1 ↔ row.1.vif < 0 := by omega
  simp only [Record.isDue, hiff]
  rw [Bool.and_assoc, Bool.and_comm]

/-- In a table with distinct numbers, registration under a pattern numbers the due rows on from the
greatest VIF, and changes nothing else. -/
theorem isRegistered_registerAll (hdistinct : DistinctVifs registry.vifs)
    (pattern : Option Pattern) :
    registry.IsRegistered pattern (registry.registerAll pattern).1.registry := by
  have hmem : ∀ row ∈ registry.selectedRows pattern, row ∈ registry.rows :=
    fun row hrow => List.mem_of_mem_filter hrow
  have hframe : registry.SameFrame (registry.registerAll pattern).1.registry := by
    rw [registerAll_fst]
    exact sameFrame_foldl_register (registry.selectedRows pattern)
      { registry, next := registry.nextVif }
  refine ⟨hframe, ?_, ?_⟩
  · intro k row hk
    rw [dueRows_eq hdistinct] at hk
    have hrow := hmem row (List.mem_of_mem_filter (List.mem_of_getElem? hk))
    rw [registerAll_fst, getElem?_foldl_register (pairwise_selectedRows registry pattern) _ hk,
      mem_rows.mp hrow, nextVif_eq]
    rfl
  · intro row hrow hnot
    rw [registerAll_fst, getElem?_foldl_register_of_kept, mem_rows.mp hrow]
    intro other hother hdue hsame
    have hget := mem_rows.mp (hmem other hother)
    rw [hsame, mem_rows.mp hrow, Option.some.injEq] at hget
    rw [dueRows_eq hdistinct] at hnot
    have heq : row = other := Prod.ext hget hsame.symm
    exact hnot (List.mem_filter.mpr ⟨heq ▸ hother, heq ▸ hdue⟩)

/-! ## Histories -/

theorem distinctVifs_apply {event : Event} (hevent : event.BringsNoVif) {registry : Registry}
    (hdistinct : DistinctVifs registry.vifs) : DistinctVifs (event.apply registry).vifs := by
  cases event with
  | populate host limit =>
    refine distinctVifs_reconcile (registry.anew limit) ?_ host .full
    rw [vifs, records_anew]
    exact .nil
  | clear => exact .nil
  | reconcile host mode => exact distinctVifs_reconcile registry hdistinct host mode
  | refresh host =>
    rw [Event.apply, refresh_registry]
    exact distinctVifs_reconcile registry hdistinct host .refreshOnly
  | append iface =>
    rw [Event.apply_append]
    cases h : registry.append iface with
    | error fault => exact hdistinct
    | ok next =>
      show DistinctVifs next.vifs
      rw [vifs_append h, show iface.vif = -1 from hevent]
      exact hdistinct.append
  | limitGrowth limit => exact hdistinct
  | register pattern =>
    rw [Event.apply, registerAll_fst]
    exact ((isCounting_nextVif hdistinct).foldl _).distinct
  | assign id values =>
    rw [Event.apply, vifs_modify registry id]
    · exact hdistinct
    · intro iface
      show values.vif.getD iface.vif = iface.vif
      rw [show values.vif = none from hevent, Option.getD_none]

theorem distinctVifs_after {history : List Event} (hhistory : ∀ event ∈ history, event.BringsNoVif)
    {registry : Registry} (hdistinct : DistinctVifs registry.vifs) :
    DistinctVifs (registry.after history).vifs :=
  after_induction (P := fun registry => DistinctVifs registry.vifs)
    (fun _ _ hevent hbefore => distinctVifs_apply hevent hbefore) hhistory hdistinct

theorem getElem?_vifs {i : Nat} {record : Record} (h : registry.records[i]? = some record) :
    registry.vifs[i]? = some record.vif := by
  rw [vifs, List.getElem?_map, h, Option.map_some]

/-- A number stands for the one record that has it. -/
theorem findByVif?_of_distinct (hdistinct : DistinctVifs registry.vifs) {row : Row}
    (hrow : row ∈ registry.rows) (hvif : 0 ≤ row.1.vif) :
    registry.findByVif? row.1.vif = some row := by
  cases h : registry.findByVif? row.1.vif with
  | none =>
    have := List.find?_eq_none.mp h row hrow
    simp [hvif] at this
  | some other =>
    have hother := mem_rows.mp (List.mem_of_find?_eq_some h)
    have hsame := List.find?_some h
    simp only [decide_eq_true_eq] at hsame
    have hget := mem_rows.mp hrow
    have hpos : other.2 = row.2 := hdistinct.index_eq other.2 row.2 row.1.vif hvif
      (hsame.2 ▸ getElem?_vifs hother) (getElem?_vifs hget)
    rw [hpos, hget, Option.some.injEq] at hother
    rw [Prod.ext hother.symm hpos]

/-- In every table that a daemon comes to, a VIF that is not negative belongs to one record, and
this is the record that it stands for. Registration numbers the records that are due on from the
greatest VIF, and changes nothing else. -/
theorem vifs_never_shared {history : List Event}
    (hhistory : ∀ event ∈ history, event.BringsNoVif) {start : Registry}
    (hstart : start.records = []) :
    (∀ record ∈ (start.after history).records, -1 ≤ record.vif) ∧
      (∀ (i j : Nat) (a b : Record), (start.after history).records[i]? = some a →
        (start.after history).records[j]? = some b → 0 ≤ a.vif → a.vif = b.vif → i = j) ∧
      (∀ row ∈ (start.after history).rows, 0 ≤ row.1.vif →
        (start.after history).findByVif? row.1.vif = some row) ∧
      ∀ pattern, (start.after history).IsRegistered pattern
        ((start.after history).registerAll pattern).1.registry := by
  have hdistinct : DistinctVifs (start.after history).vifs := by
    refine distinctVifs_after hhistory ?_
    rw [vifs, hstart]
    exact .nil
  refine ⟨?_, ?_, ?_, ?_⟩
  · exact fun record hmem => hdistinct.neg_one_le record.vif (List.mem_map_of_mem hmem)
  · intro i j a b ha hb hvif hsame
    exact hdistinct.index_eq i j a.vif hvif (getElem?_vifs ha) (hsame ▸ getElem?_vifs hb)
  · exact fun row hrow hvif => findByVif?_of_distinct hdistinct hrow hvif
  · exact isRegistered_registerAll hdistinct

/-- One interface has no address when the Ethernet ones are registered. It gets one from a reload
that fails half-way. -/
def lateAddress : List Event :=
  [.populate ⟨.ok [⟨.text "eth0", 0, .ipv4, some (.octets [10, 0, 0, 5])⟩,
      ⟨.text "eth1", 0, .absent, none⟩, ⟨.text "lo", 8, .ipv4, some (.octets [127, 0, 0, 1])⟩], []⟩,
    .register (some (.startingWith "eth")),
    .reconcile ⟨.ok [⟨.text "eth1", 0, .ipv4, some (.octets [10, 0, 0, 6])⟩,
      ⟨.text "eth0", 0, .ipv4, some (.octets [10])⟩], []⟩ .full]

/-- When all are registered, the interface that waited and the loopback device are due. -/
theorem vifs_never_shared_lateAddress :
    (∀ event ∈ lateAddress, event.BringsNoVif) ∧
      (({} : Registry).after lateAddress).vifs = [0, -1, -1] ∧
      (∀ row ∈ (({} : Registry).after lateAddress).rows, 0 ≤ row.1.vif →
        (({} : Registry).after lateAddress).findByVif? row.1.vif = some row) ∧
      ((({} : Registry).after lateAddress).dueRows (some (.startingWith ""))).map
        (fun row => row.1.name) = ["eth1", "lo"] ∧
      (({} : Registry).after lateAddress).IsRegistered (some (.startingWith ""))
        ((({} : Registry).after lateAddress).registerAll (some (.startingWith ""))).1.registry ∧
      ((({} : Registry).after lateAddress).registerAll
        (some (.startingWith ""))).1.registry.vifs = [0, 1, 2] := by
  have hhistory : ∀ event ∈ lateAddress, event.BringsNoVif := by decide
  have hempty : ({} : Registry).records = [] := rfl
  obtain ⟨-, -, hfound, hregistered⟩ := vifs_never_shared hhistory hempty
  refine ⟨hhistory, ?_, hfound, ?_, hregistered _, ?_⟩
  all_goals
    simp only [lateAddress, after, List.foldl_cons, List.foldl_nil, Event.apply, registerAll_fst]
    decide

end Registry

end IfaceTable
