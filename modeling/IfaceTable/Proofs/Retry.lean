import IfaceTable.Command.Walkthrough
import IfaceTable.Proofs.Refresh
import IfaceTable.Proofs.VifNumbers

/-!
# Registering again

An interface without a usable address has to wait when interfaces are registered. A daemon that
refreshes the addresses later only tries again if the refresh answers that something changed.

* `Registry.IsServed`: no interface that could have a VIF waits for one. `isServed_registerAll`:
  registration comes to that. `registerAll_of_isServed`: then it has nothing more to do.
* `records_refresh_of_false`: a refresh that answers that nothing changed leaves all records alone.
* `Walkthrough.serve_answers`: what a round of the daemon makes of the table.
  `skipped_retry_is_safe`: no interface waits afterwards, also if the second registration was left
  out.
-/

namespace IfaceTable

/-! ## Commands that come to their end -/

/-- The command comes to its end with `value`, whatever is on the screen. -/
def Run.Answers {α : Type} (run : Run α) (value : α) : Prop :=
  ∀ screen, (run.run.run screen).1 = .ok value

namespace Run.Answers

variable {α β : Type} {value : α} {answer : β}

theorem pure (value : α) : (Pure.pure value : Run α).Answers value := fun _ => rfl

theorem bind {run : Run α} {next : α → Run β} (h : run.Answers value)
    (hnext : (next value).Answers answer) : (run >>= next).Answers answer := by
  intro screen
  cases hrun : run.run.run screen with
  | mk result later =>
    have hresult := h screen
    rw [hrun] at hresult
    obtain rfl : result = .ok value := hresult
    rw [run_bind_of_ok hrun]
    exact hnext later

theorem print (text : String) : (Run.print text).Answers () := fun _ => rfl

theorem log (everything : Bool) (notices : List Notice) :
    (Run.log everything notices).Answers () := by
  intro screen
  unfold Run.log
  split <;> rfl

theorem settle (everything : Bool) {outcome : Outcome α} (h : outcome.answer = .ok value) :
    (Run.settle everything outcome).Answers (value, outcome.registry) := by
  refine bind (log everything outcome.notices) (bind ?_ (pure _))
  rw [h]
  exact pure value

end Run.Answers

namespace Registry

/-- Under the pattern, no interface with a usable address is without a VIF. -/
def IsServed (registry : Registry) (pattern : Option Pattern) : Prop :=
  ∀ row ∈ registry.selectedRows pattern, row.1.hasAddress → 0 ≤ row.1.vif

instance (registry : Registry) (pattern : Option Pattern) :
    Decidable (registry.IsServed pattern) := inferInstanceAs (Decidable (∀ _ ∈ _, _ → _))

/-- Registration, a refresh, and registration again if that answers that something changed. -/
def serve (registry : Registry) (pattern : Option Pattern) (host : Host) : Registry :=
  let refreshed := (registry.registerAll pattern).1.registry.refresh host
  if refreshed.answer matches .ok true then (refreshed.registry.registerAll pattern).1.registry
  else refreshed.registry

variable {host : Host} {registry : Registry} {pattern : Option Pattern} {changed : Bool}

theorem mem_selectedRows {row : Row} :
    row ∈ registry.selectedRows pattern ↔
      registry.records[row.2]? = some row.1 ∧ pattern.any (·.selects row.1.name) = true := by
  rw [selectedRows, List.mem_filter, mem_rows]

/-- Whether interfaces wait can be read off the records. -/
theorem isServed_congr {a b : Registry} (h : a.records = b.records) :
    a.IsServed pattern ↔ b.IsServed pattern := by
  simp only [IsServed, selectedRows, rows, h]

/-! ## Registration -/

theorem isDue_of_isServed (h : registry.IsServed pattern) :
    ∀ row ∈ registry.selectedRows pattern, row.1.isDue = false := by
  intro row hrow
  cases haddress : row.1.hasAddress with
  | false => rw [Record.isDue, haddress, Bool.false_and]
  | true =>
    have := h row hrow haddress
    rw [Record.isDue, haddress, Bool.true_and, decide_eq_false_iff_not]
    omega

/-- Where no interface waits, registration changes nothing. -/
theorem registerAll_of_isServed (h : registry.IsServed pattern) :
    (registry.registerAll pattern).1.registry = registry := by
  rw [registerAll_fst]
  exact foldl_register_of_not_due (isDue_of_isServed h) _

/-- A record after registration has one of the new numbers, or it is as it was and was not due. -/
theorem registerAll_cases {i : Nat} {record : Record}
    (h : (registry.registerAll pattern).1.registry.records[i]? = some record) :
    (∃ (old : Record) (k : Nat), registry.records[i]? = some old ∧
      record = old.update (Iface.withVif (registry.nextVif + k))) ∨
    registry.records[i]? = some record ∧
      ((record, i) ∈ registry.selectedRows pattern → record.isDue = false) := by
  rw [registerAll_fst] at h
  by_cases hdue : ∃ old ∈ registry.selectedRows pattern, old.1.isDue = true ∧ old.2 = i
  · obtain ⟨old, hold, holddue, rfl⟩ := hdue
    have hmem : old ∈ (registry.selectedRows pattern).filter fun row => row.1.isDue :=
      List.mem_filter.mpr ⟨hold, holddue⟩
    obtain ⟨k, hk⟩ := List.mem_iff_getElem?.mp hmem
    have hget := (mem_selectedRows.mp hold).1
    rw [getElem?_foldl_register (pairwise_selectedRows registry pattern) _ hk, hget,
      Option.map_some, Option.some.injEq] at h
    exact .inl ⟨old.1, k, hget, h.symm⟩
  · have hkept : ∀ other ∈ registry.selectedRows pattern, other.1.isDue → other.2 ≠ i :=
      fun other hother hotherdue hpos => hdue ⟨other, hother, hotherdue, hpos⟩
    rw [getElem?_foldl_register_of_kept hkept] at h
    exact .inr ⟨h, fun hrow => Bool.eq_false_iff.mpr fun hisdue => hkept _ hrow hisdue rfl⟩

theorem nextVif_nonneg (hvifs : ∀ vif ∈ registry.vifs, -1 ≤ vif) : 0 ≤ registry.nextVif := by
  have := neg_one_le_greatestVif hvifs
  rw [nextVif_eq]
  omega

/-- After registration, no interface waits. -/
theorem isServed_registerAll (hvifs : ∀ vif ∈ registry.vifs, -1 ≤ vif)
    (pattern : Option Pattern) : (registry.registerAll pattern).1.registry.IsServed pattern := by
  have hnext := nextVif_nonneg hvifs
  intro row hrow haddress
  obtain ⟨hget, hselects⟩ := mem_selectedRows.mp hrow
  rcases registerAll_cases hget with ⟨old, k, -, hnew⟩ | ⟨hold, hnotdue⟩
  · rw [hnew]
    show 0 ≤ registry.nextVif + k
    omega
  · have hvif := hnotdue (mem_selectedRows.mpr ⟨hold, hselects⟩)
    rw [Record.isDue, haddress, Bool.true_and, decide_eq_false_iff_not] at hvif
    omega

theorem neg_one_le_registerAll (hvifs : ∀ vif ∈ registry.vifs, -1 ≤ vif)
    (pattern : Option Pattern) :
    ∀ vif ∈ (registry.registerAll pattern).1.registry.vifs, -1 ≤ vif := by
  have hnext := nextVif_nonneg hvifs
  intro vif hmem
  obtain ⟨record, hrecord, rfl⟩ := List.mem_map.mp hmem
  obtain ⟨i, hi⟩ := List.mem_iff_getElem?.mp hrecord
  rcases registerAll_cases hi with ⟨old, k, -, hnew⟩ | ⟨hold, -⟩
  · rw [hnew]
    show -1 ≤ registry.nextVif + k
    omega
  · exact hvifs record.vif (List.mem_map_of_mem (List.mem_of_getElem? hold))

/-! ## A refresh that changes nothing -/

/-- A refresh that answers that nothing changed leaves every record as it was. -/
theorem records_refresh_of_false (hok : (registry.refresh host).answer = .ok false) :
    (registry.refresh host).registry.records = registry.records := by
  rw [refresh_answer] at hok
  obtain ⟨reports, hsnapshot⟩ := snapshot_of_answer hok
  have hbrings : ¬ registry.BringsAddress reports := by
    rw [← changed_absorbAll ((reconcile_answer_eq_ok_iff hsnapshot).mp hok)]
    exact Bool.false_ne_true
  rw [refresh_registry]
  apply List.ext_getElem?
  intro i
  rw [getElem?_refresh hsnapshot hok]
  cases hget : registry.records[i]? with
  | none => rfl
  | some record =>
    rw [Option.map_some, record.update_offered]
    cases haddress : record.hasAddress with
    | true => rfl
    | false =>
      have hnone : registry.aimedAt i reports = [] := by
        by_contra hne
        exact hbrings ⟨(record, i), mem_rows.mpr hget, haddress, hne⟩
      rw [hnone]
      rfl

/-- No refresh writes a VIF, also if it fails. -/
theorem vifs_refresh (registry : Registry) (host : Host) :
    (registry.refresh host).registry.vifs = registry.vifs := by
  rw [refresh_registry]
  apply reconcile_induction (P := fun later => later.vifs = registry.vifs)
  · intro reports _ report _ before next changed hbefore h
    obtain ⟨address, -, -, habsorbs⟩ := absorbs_of_absorb h
    cases habsorbs with
    | known hrow => rw [vifs_fill, hbefore]
    | passed => exact hbefore
  · rfl

/-! ## Registration around a refresh -/

theorem serve_of_true
    (h : ((registry.registerAll pattern).1.registry.refresh host).answer = .ok true) :
    registry.serve pattern host =
      (((registry.registerAll pattern).1.registry.refresh host).registry.registerAll
        pattern).1.registry := by
  simp only [serve, h, ↓reduceIte]

theorem serve_of_false
    (h : ((registry.registerAll pattern).1.registry.refresh host).answer = .ok false) :
    registry.serve pattern host =
      ((registry.registerAll pattern).1.registry.refresh host).registry := by
  simp only [serve, h, Bool.false_eq_true, ↓reduceIte]

/-- A refresh that answers that nothing changed leaves nothing to register. -/
theorem isServed_refresh_of_false (h : registry.IsServed pattern)
    (hok : (registry.refresh host).answer = .ok false) :
    (registry.refresh host).registry.IsServed pattern :=
  (isServed_congr (records_refresh_of_false hok)).mpr h

/-- No interface waits after a round, whether or not it registered again. -/
theorem isServed_serve (hvifs : ∀ vif ∈ registry.vifs, -1 ≤ vif)
    (hok : ((registry.registerAll pattern).1.registry.refresh host).answer = .ok changed) :
    (registry.serve pattern host).IsServed pattern := by
  cases changed with
  | true =>
    rw [serve_of_true hok]
    apply isServed_registerAll
    rw [vifs_refresh]
    exact neg_one_le_registerAll hvifs pattern
  | false =>
    rw [serve_of_false hok]
    exact isServed_refresh_of_false (isServed_registerAll hvifs pattern) hok

end Registry

namespace Walkthrough

theorem register_answers (registry : Registry) (pattern : String) :
    (register registry pattern).Answers
      (registry.registerAll (Pattern.ofText? pattern)).1.registry :=
  .bind (.log false _) (.bind (.print _) (.pure _))

/-- The daemon's round makes of the table what `Registry.serve` says. -/
theorem serve_answers {registry : Registry} {pattern : String} {host : Host} {changed : Bool}
    (hok : ((registry.registerAll (Pattern.ofText? pattern)).1.registry.refresh host).answer =
      .ok changed) :
    (serve registry pattern host).Answers (registry.serve (Pattern.ofText? pattern) host) := by
  refine .bind (.print _) (.bind (register_answers registry pattern) (.bind (.print _)
    (.bind (.settle false hok) ?_)))
  cases changed with
  | true =>
    rw [Registry.serve_of_true hok]
    exact register_answers _ pattern
  | false =>
    rw [Registry.serve_of_false hok]
    exact .bind (.print _) (.pure _)

/-- A daemon registers, refreshes, and registers again if the refresh answers that something
changed. After that every interface under the pattern that has a usable address has a VIF; and where
the second registration was left out, it would have changed nothing. -/
theorem skipped_retry_is_safe {registry : Registry}
    (hvifs : ∀ record ∈ registry.records, -1 ≤ record.vif) (pattern : String) {host : Host}
    {changed : Bool}
    (hok : ((registry.registerAll (Pattern.ofText? pattern)).1.registry.refresh host).answer =
      .ok changed) :
    (serve registry pattern host).Answers (registry.serve (Pattern.ofText? pattern) host) ∧
      (registry.serve (Pattern.ofText? pattern) host).IsServed (Pattern.ofText? pattern) ∧
      (changed = false →
        (((registry.registerAll (Pattern.ofText? pattern)).1.registry.refresh
            host).registry.registerAll (Pattern.ofText? pattern)).1.registry =
          ((registry.registerAll (Pattern.ofText? pattern)).1.registry.refresh host).registry) := by
  have hmin : ∀ vif ∈ registry.vifs, -1 ≤ vif := by
    intro vif hmem
    obtain ⟨record, hrecord, rfl⟩ := List.mem_map.mp hmem
    exact hvifs record hrecord
  have hserved := Registry.isServed_serve hmin hok
  refine ⟨serve_answers hok, hserved, ?_⟩
  rintro rfl
  rw [Registry.serve_of_false hok] at hserved
  exact Registry.registerAll_of_isServed hserved

/-- Two interfaces share a VIF, one has an address and no VIF, and one has neither. -/
def leasePending : Registry :=
  Registry.after {}
    [.append { name := "eth0", ifindex := 2, address := some ⟨10, 0, 0, 5⟩ },
      .append { name := "lo", ifindex := 1, vif := 4 }, .append { name := "eth1", ifindex := 3 },
      .append { name := "wlan0", ifindex := 4, address := some ⟨10, 0, 1, 5⟩, vif := 4 }]

/-- Addresses for an interface that has one, and for one that is not known. -/
def noLease : Host :=
  ⟨.ok [⟨.text "eth0", 0, .ipv4, some (.text "10.0.0.9")⟩,
    ⟨.text "eth2", 0, .ipv4, some (.text "10.0.0.7")⟩], []⟩

/-- An address for the interface that waits, under an alias. -/
def lease : Host := ⟨.ok [⟨.text "eth1:1", 0, .ipv4, some (.text "10.0.0.6")⟩], []⟩

/-- Without a lease the second registration is left out; with one it gives the last number. -/
theorem skipped_retry_leasePending :
    ((leasePending.registerAll (Pattern.ofText? "eth+")).1.registry.refresh noLease).answer =
        .ok false ∧
      (leasePending.serve (Pattern.ofText? "eth+") noLease).IsServed (Pattern.ofText? "eth+") ∧
      (leasePending.serve (Pattern.ofText? "eth+") noLease).vifs = [5, 4, -1, 4] ∧
      (serve leasePending "eth+" lease).Answers
        (leasePending.serve (Pattern.ofText? "eth+") lease) ∧
      (leasePending.serve (Pattern.ofText? "eth+") lease).IsServed (Pattern.ofText? "eth+") ∧
      (leasePending.serve (Pattern.ofText? "eth+") lease).vifs = [5, 4, 6, 4] := by
  have hvifs : ∀ record ∈ leasePending.records, -1 ≤ record.vif := by decide
  have hskipped : ((leasePending.registerAll (Pattern.ofText? "eth+")).1.registry.refresh
      noLease).answer = .ok false := by
    rw [Registry.registerAll_fst]
    decide +kernel
  have hretried : ((leasePending.registerAll (Pattern.ofText? "eth+")).1.registry.refresh
      lease).answer = .ok true := by
    rw [Registry.registerAll_fst]
    decide +kernel
  obtain ⟨-, hwithout, -⟩ := skipped_retry_is_safe hvifs "eth+" hskipped
  obtain ⟨hround, hwith, -⟩ := skipped_retry_is_safe hvifs "eth+" hretried
  refine ⟨hskipped, hwithout, ?_, hround, hwith, ?_⟩
  · rw [Registry.serve_of_false hskipped, Registry.registerAll_fst]
    decide +kernel
  · rw [Registry.serve_of_true hretried, Registry.registerAll_fst, Registry.registerAll_fst]
    decide +kernel

end Walkthrough

end IfaceTable
