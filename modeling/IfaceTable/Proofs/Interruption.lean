import IfaceTable.Proofs.Absorb
import IfaceTable.Registry.History

/-!
# Interrupted passes

A fault ends a pass over a snapshot. What the pass leaves is what the reports before the one at
fault make of the table, and nothing of that one: the work on a report comes to each of its faults
before it writes anything.

* `Mode.name`: the names of the modes. `Mode.ofName?_of_unknown`: there is no other one.
* `absorbAll_append_of_ok`: a pass may be cut between any two reports.
* `Registry.FailsAt`: a pass fails at a report. `exists_failsAt_iff`: one that has no answer
  does so.
* `Work.absorbAllLimited`: whether the table may grow can be another matter with each report.
  `exists_limit`: to one pass this is no more than a single limit.
* `Registry.Reaches`: a pass comes to a report. `absorb_of_reaches_succ`: one that comes to the next
  has brought it in. `answer_of_atFault`: one that does not tells why.
* `reconcile_fails`: when a pass fails, what its caller gets to see, and the table that it leaves.
-/

namespace IfaceTable

/-! ## Faults that its caller gets to see -/

/-- What becomes of the fault of a report. A daemon cannot go on with a table that cannot grow. -/
def Fault.ofReport : Fault → Fault
  | tableFull => exit .fatal
  | fault => fault

/-- What becomes of the fault that there is no snapshot. A daemon cannot go on with a system that
does not enumerate its interfaces. -/
def Fault.ofSnapshot : Fault → Fault
  | enumeration .. => exit .fatal
  | fault => fault

/-! ## Modes by name -/

namespace Mode

/-- The name by which a mode is asked for. -/
def name : Mode → String
  | full => "full"
  | refreshOnly => "refresh_only"

theorem ofName?_name (mode : Mode) : ofName? mode.name = some mode := by
  cases mode <;> rfl

theorem ofName?_of_unknown {given : String} (h : ∀ mode : Mode, given ≠ mode.name) :
    ofName? given = none := by
  unfold ofName?
  split
  · exact absurd rfl (h full)
  · exact absurd rfl (h refreshOnly)
  · rfl

end Mode

/-- The host, had it reported no more than its first `k` reports. -/
def Host.upTo (host : Host) (k : Nat) : Host :=
  { host with snapshot := host.snapshot.map (List.take k) }

theorem Host.snapshot_upTo {host : Host} {reports : List Report} (k : Nat)
    (h : host.snapshot = .ok reports) : (host.upTo k).snapshot = .ok (reports.take k) := by
  rw [upTo, h]
  rfl

/-- Of two limits the lower one counts. -/
theorem Host.upTo_upTo (host : Host) {j k : Nat} (h : j ≤ k) :
    (host.upTo k).upTo j = host.upTo j := by
  unfold upTo
  cases host.snapshot with
  | error fault => rfl
  | ok reports => simp [Except.map, List.take_take, Nat.min_eq_left h]

/-- Reports come, one after the other, each of them with the limit that holds when it is its turn.
The answer tells whether a record got an address. -/
def Work.absorbAllLimited (host : Host) (mode : Mode) : List (Int × Report) → Work Bool
  | [] => return false
  | (limit, report) :: turns => do
    set ((← get).limitGrowth limit)
    let changed ← absorb host mode report
    let later ← absorbAllLimited host mode turns
    return changed || later

/-! ## Room for another item -/

namespace Slots

variable {α : Type} {s t : Slots α} {a : α} {limit : Int}

theorem capacity_doubled (s : Slots α) : s.doubled.capacity = 2 * s.capacity := by
  simp only [doubled, capacity, List.length_append, List.length_replicate]
  omega

theorem capacity_place (s : Slots α) (a : α) (h : s.count < s.capacity) :
    (s.place a h).capacity = s.capacity := by
  simp [place, capacity]

theorem capacity_le_of_append? (h : s.append? a = some t) : s.capacity ≤ t.capacity := by
  unfold append? at h
  split at h
  · cases h
    rw [capacity_place]
  · split at h
    · cases h
      rw [capacity_place, capacity_doubled]
      omega
    · cases h

/-- An item finds room under any limit that has room for the row with it. -/
theorem append?_limitGrowth (h : s.append? a = some t) (hlimit : (t.capacity : Int) ≤ limit) :
    (s.limitGrowth limit).append? a = some (t.limitGrowth limit) := by
  have hcount : (s.limitGrowth limit).count = s.count := rfl
  have hcapacity : (s.limitGrowth limit).capacity = s.capacity := rfl
  unfold append? at h ⊢
  split at h
  · next hvacant =>
    cases h
    rw [dif_pos (hcount ▸ hcapacity ▸ hvacant)]
    rfl
  · next hfull =>
    split at h
    · cases h
      rw [capacity_place, capacity_doubled] at hlimit
      have hgrow : (s.limitGrowth limit).CanGrow := by
        intro other hother
        cases hother
        rw [hcapacity]
        omega
      rw [dif_neg (hcount ▸ hcapacity ▸ hfull), if_pos hgrow]
      rfl
    · cases h

end Slots

namespace Registry

variable {host : Host} {mode : Mode} {registry next last : Registry} {report : Report}
  {reports : List Report} {changed : Bool} {fault : Fault} {k : Nat} {limit : Int}
  {turns : List (Int × Report)}

/-! ## The report at fault -/

/-- A pass may be cut where the reports before are brought in. -/
theorem absorbAll_append_of_ok {before : List Report}
    (h : absorbAll host mode registry before = (next, .ok changed)) (reports : List Report) :
    absorbAll host mode registry (before ++ reports) =
      ((absorbAll host mode next reports).1,
        (absorbAll host mode next reports).2.map (changed || ·)) := by
  induction before generalizing registry changed with
  | nil =>
    cases h
    cases hanswer : (absorbAll host mode next reports).2 <;>
      simp [Except.map, Prod.ext_iff, hanswer]
  | cons report before ih =>
    have hok : (absorbAll host mode registry (report :: before)).2 = .ok changed := by rw [h]
    obtain ⟨middle, gained, later, hreport, hbefore, hlast⟩ := absorbAll_cons_eq_ok hok
    have hmiddle : absorbAll host mode middle before = (next, .ok later) := by
      rw [h] at hlast
      exact Prod.ext hlast.symm hbefore
    rw [absorbAll_cons_of_ok hreport, hmiddle] at h
    cases h
    rw [List.cons_append, absorbAll_cons_of_ok hreport, ih hmiddle]
    cases (absorbAll host mode next reports).2 <;> simp [Except.map, Bool.or_assoc]

/-- A pass that has no answer stops at one report: those before it are brought in, and it is at
fault in the table that they leave. -/
theorem exists_of_absorbAll_eq_error
    (h : (absorbAll host mode registry reports).2 = .error fault) :
    ∃ k report changed last, reports[k]? = some report ∧
      absorbAll host mode registry (reports.take k) = (last, .ok changed) ∧
      AtFault last report mode fault := by
  induction reports generalizing registry with
  | nil => cases h
  | cons report reports ih =>
    cases hreport : absorb host mode registry report with
    | error cause =>
      rw [absorbAll_cons_of_error hreport] at h
      cases h
      exact ⟨0, report, false, registry, rfl, rfl, atFault_of_absorb hreport⟩
    | ok result =>
      obtain ⟨middle, gained⟩ := result
      rw [absorbAll_cons_of_ok hreport] at h
      have hrest : (absorbAll host mode middle reports).2 = .error fault := by
        cases hanswer : (absorbAll host mode middle reports).2 with
        | ok later => simp [hanswer, Except.map] at h
        | error cause => simpa [hanswer, Except.map] using h
      obtain ⟨k, faulty, changed, last, hfaulty, hbefore, hfault⟩ := ih hrest
      refine ⟨k + 1, faulty, gained || changed, last, hfaulty, ?_, hfault⟩
      rw [List.take_succ_cons, absorbAll_cons_of_ok hreport, hbefore]
      rfl

theorem absorbAll_of_atFault (hreport : reports[k]? = some report)
    (hbefore : absorbAll host mode registry (reports.take k) = (last, .ok changed))
    (hfault : AtFault last report mode fault) :
    absorbAll host mode registry reports = (last, .error fault) := by
  obtain ⟨hk, hreport⟩ := List.getElem?_eq_some_iff.mp hreport
  have hcut := absorbAll_append_of_ok hbefore (reports.drop k)
  rw [List.take_append_drop, List.drop_eq_getElem_cons hk, hreport,
    absorbAll_cons_of_error hfault.absorb_eq_error] at hcut
  exact hcut

/-! ## Growth that is refused at times -/

theorem limitGrowth_limitGrowth (registry : Registry) (earlier later : Int) :
    (registry.limitGrowth earlier).limitGrowth later = registry.limitGrowth later := rfl

theorem fill_limitGrowth (registry : Registry) (limit : Int) (row : Row) (address : Option Ipv4) :
    (registry.limitGrowth limit).fill row address =
      ((registry.fill row address).1.limitGrowth limit, (registry.fill row address).2) := by
  unfold fill
  split
  · split <;> rfl
  · rfl

theorem capacity_fill (registry : Registry) (row : Row) (address : Option Ipv4) :
    (registry.fill row address).1.capacity = registry.capacity := by
  unfold fill
  split
  · split
    · rfl
    · simp [setAddress, modifyAt, capacity, Slots.capacity, Slots.modify]
  · rfl

theorem append_limitGrowth {iface : Iface} (h : registry.append iface = .ok next)
    (hlimit : (next.capacity : Int) ≤ limit) :
    (registry.limitGrowth limit).append iface = .ok (next.limitGrowth limit) := by
  unfold append at h
  split at h
  · next slots hslots =>
    cases h
    have hlater := Slots.append?_limitGrowth hslots hlimit
    unfold append limitGrowth
    rw [hlater]
  · cases h

theorem capacity_le_of_absorb (h : absorb host mode registry report = .ok (next, changed)) :
    registry.capacity ≤ next.capacity := by
  obtain ⟨address, -, -, habsorbs⟩ := absorbs_of_absorb h
  cases habsorbs with
  | known => rw [capacity_fill]
  | passed => exact Nat.le_refl _
  | added _ _ hnext =>
    unfold append at hnext
    split at hnext
    · next slots hslots =>
      cases hnext
      exact Slots.capacity_le_of_append? hslots
    · cases hnext

/-- What a report does it also does under any limit that has room for the table afterwards. -/
theorem absorb_limitGrowth
    (h : absorb host mode registry report = .ok (next, changed))
    (hlimit : (next.capacity : Int) ≤ limit) :
    absorb host mode (registry.limitGrowth limit) report =
      .ok (next.limitGrowth limit, changed) := by
  obtain ⟨address, haddress, hname, habsorbs⟩ := absorbs_of_absorb h
  refine Absorbs.absorb_eq_ok haddress hname ?_
  cases habsorbs with
  | @known _ row hrow =>
    have hknown : (registry.limitGrowth limit).findByName? report.name.text? = some row := hrow
    have hfill : Absorbs host (registry.limitGrowth limit) report address mode
        ((registry.limitGrowth limit).fill row address).1
        ((registry.limitGrowth limit).fill row address).2 := .known hknown
    rwa [fill_limitGrowth] at hfill
  | passed hnone => exact .passed hnone
  | added hnone htext hnext => exact .added hnone htext (append_limitGrowth hnext hlimit)

/-- A fault stays under a limit that lets the table grow no more than the one before. -/
theorem AtFault.limitGrowth {other : Int}
    (h : AtFault (registry.limitGrowth limit) report mode fault)
    (hother : 2 * (registry.capacity : Int) ≤ other → 2 * (registry.capacity : Int) ≤ limit) :
    AtFault (registry.limitGrowth other) report mode fault := by
  cases h with
  | badAddress hcause => exact .badAddress hcause
  | nameMissing haddress hname => exact .nameMissing haddress hname
  | nameEmpty haddress hname => exact .nameEmpty haddress hname
  | tableFull haddress hname hnone hfull hgrow =>
    refine .tableFull haddress hname hnone hfull fun hgrow' => hgrow ?_
    intro given hgiven
    cases hgiven
    exact hother (hgrow' other rfl)

/-- At its turn a report meets the table under the limit that holds then. -/
theorem perform_absorbAllLimited_cons (host : Host) (mode : Mode) (registry : Registry)
    (limit : Int) (report : Report) (turns : List (Int × Report)) :
    registry.perform (.absorbAllLimited host mode ((limit, report) :: turns)) =
      (registry.limitGrowth limit).perform (do
        let changed ← .absorb host mode report
        let later ← .absorbAllLimited host mode turns
        return changed || later) := rfl

theorem absorbAllLimited_cons_of_error
    (h : absorb host mode (registry.limitGrowth limit) report = .error fault) :
    registry.perform (.absorbAllLimited host mode ((limit, report) :: turns)) =
      { answer := .error fault, registry := registry.limitGrowth limit } := by
  rw [perform_absorbAllLimited_cons]
  exact perform_bind_of_error (atFault_of_absorb h).perform_absorb

theorem absorbAllLimited_cons_of_ok
    (h : absorb host mode (registry.limitGrowth limit) report = .ok (next, changed)) :
    registry.perform (.absorbAllLimited host mode ((limit, report) :: turns)) =
      next.perform (do
        let later ← .absorbAllLimited host mode turns
        return changed || later) := by
  rw [perform_absorbAllLimited_cons]
  exact perform_bind_of_ok (perform_absorb_of_ok h)

/-- The first refusal is the last, and the table doubles before it can be refused again. So whatever
limits hold at the turns of the reports, the pass is one under a single limit. -/
theorem exists_limit (host : Host) (mode : Mode) (registry : Registry)
    (turns : List (Int × Report)) :
    ∃ limit : Int, registry.capacity ≤ limit ∧
      (registry.limitGrowth limit).perform (.absorbAll host mode (turns.map Prod.snd)) =
        let outcome := registry.perform (.absorbAllLimited host mode turns)
        { outcome with registry := outcome.registry.limitGrowth limit } := by
  induction turns generalizing registry with
  | nil => exact ⟨registry.capacity, Int.le_refl _, rfl⟩
  | cons turn turns ih =>
    obtain ⟨given, report⟩ := turn
    cases hreport : absorb host mode (registry.limitGrowth given) report with
    | error fault =>
      have hpos : 0 < registry.capacity := List.length_pos_iff.mpr registry.slots.cells_ne_nil
      refine ⟨max given registry.capacity, by omega, ?_⟩
      have hfault :
          AtFault (registry.limitGrowth (max given registry.capacity)) report mode fault :=
        (atFault_of_absorb hreport).limitGrowth (by omega)
      rw [List.map_cons, perform_absorbAll, absorbAll_cons_of_error hfault.absorb_eq_error,
        absorbAllLimited_cons_of_error hreport]
      rfl
    | ok result =>
      obtain ⟨next, changed⟩ := result
      obtain ⟨limit, hlimit, hrest⟩ := ih next
      have hcapacity : (registry.limitGrowth given).capacity ≤ next.capacity :=
        capacity_le_of_absorb hreport
      change registry.capacity ≤ next.capacity at hcapacity
      have hfirst := absorb_limitGrowth hreport hlimit
      rw [limitGrowth_limitGrowth] at hfirst
      refine ⟨limit, by omega, ?_⟩
      rw [List.map_cons, Work.absorbAll, perform_bind_of_ok (perform_absorb_of_ok hfirst),
        absorbAllLimited_cons_of_ok hreport, perform_map, perform_map, hrest]

/-! ## Reconciliation -/

/-- A pass over a snapshot fails at the report with the number `k`: over the reports before it the
pass comes to its end, and in the table that they leave the work on it does not. -/
def FailsAt (registry : Registry) (host : Host) (mode : Mode) (k : Nat) (cause : Fault) : Prop :=
  ∃ reports report changed, host.snapshot = .ok reports ∧ reports[k]? = some report ∧
    (registry.reconcile (host.upTo k) mode).answer = .ok changed ∧
    ((registry.reconcile (host.upTo k) mode).registry.perform
      (.absorb host mode report)).answer = .error cause

theorem absorbAll_upTo (host : Host) (k : Nat) (mode : Mode) (registry : Registry)
    (reports : List Report) :
    absorbAll (host.upTo k) mode registry reports = absorbAll host mode registry reports := by
  induction reports generalizing registry with
  | nil => rfl
  | cons report reports ih =>
    have hreport : absorb (host.upTo k) mode registry report = absorb host mode registry report :=
      rfl
    simp only [absorbAll, hreport, ih]

theorem reconcile_of_absorbAll_eq_ok (hsnapshot : host.snapshot = .ok reports)
    (h : absorbAll host mode registry reports = (last, .ok changed)) :
    registry.reconcile host mode = { answer := .ok changed, registry := last } := by
  rw [reconcile_of_snapshot hsnapshot, h]

theorem reconcile_of_absorbAll_eq_error (hsnapshot : host.snapshot = .ok reports)
    (h : absorbAll host mode registry reports = (last, .error fault)) :
    (registry.reconcile host mode).answer = .error fault.ofReport ∧
      (registry.reconcile host mode).registry = last := by
  rw [reconcile_of_snapshot hsnapshot, h]
  cases fault <;> exact ⟨rfl, rfl⟩

theorem reconcile_of_refusal (hsnapshot : host.snapshot = .error fault) :
    (registry.reconcile host mode).answer = .error fault.ofSnapshot ∧
      (registry.reconcile host mode).registry = registry := by
  unfold reconcile
  rw [hsnapshot]
  cases fault <;> exact ⟨rfl, rfl⟩

/-- A pass comes to the report with the number `k`: those before it are brought in. -/
def Reaches (registry : Registry) (host : Host) (mode : Mode) (k : Nat) : Prop :=
  ∃ changed, (registry.reconcile (host.upTo k) mode).answer = .ok changed

/-- The table that the report with the number `k` meets. -/
def metBy (registry : Registry) (host : Host) (mode : Mode) (k : Nat) : Registry :=
  (registry.reconcile (host.upTo k) mode).registry

theorem absorbAll_of_reaches (hsnapshot : host.snapshot = .ok reports)
    (h : registry.Reaches host mode k) :
    ∃ changed, absorbAll host mode registry (reports.take k) =
      (registry.metBy host mode k, .ok changed) := by
  obtain ⟨changed, hanswer⟩ := h
  have hupTo := Host.snapshot_upTo k hsnapshot
  rw [reconcile_answer_eq_ok_iff hupTo, absorbAll_upTo] at hanswer
  refine ⟨changed, Prod.ext ?_ hanswer⟩
  rw [metBy, reconcile_registry hupTo, absorbAll_upTo]

theorem reaches_of_absorbAll (hsnapshot : host.snapshot = .ok reports)
    (h : absorbAll host mode registry (reports.take k) = (next, .ok changed)) :
    registry.Reaches host mode k ∧ registry.metBy host mode k = next := by
  have hupTo := Host.snapshot_upTo k hsnapshot
  have hreconcile := reconcile_of_absorbAll_eq_ok hupTo
    ((absorbAll_upTo host k mode registry _).trans h)
  exact ⟨⟨changed, by rw [hreconcile]⟩, by rw [metBy, hreconcile]⟩

/-- A pass over the first reports, and the one over all of them, told by the reports. -/
theorem failsAt_iff (hsnapshot : host.snapshot = .ok reports) :
    registry.FailsAt host mode k fault ↔
      ∃ report changed last, reports[k]? = some report ∧
        absorbAll host mode registry (reports.take k) = (last, .ok changed) ∧
        AtFault last report mode fault := by
  constructor
  · rintro ⟨_, report, changed, hreports, hreport, hok, hfault⟩
    rw [hsnapshot] at hreports
    cases hreports
    obtain ⟨changed, hbefore⟩ := absorbAll_of_reaches hsnapshot ⟨changed, hok⟩
    exact ⟨report, changed, _, hreport, hbefore, atFault_of_perform hfault⟩
  · rintro ⟨report, changed, last, hreport, hbefore, hfault⟩
    obtain ⟨⟨changed, hanswer⟩, rfl⟩ := reaches_of_absorbAll hsnapshot hbefore
    refine ⟨reports, report, changed, hsnapshot, hreport, hanswer, ?_⟩
    exact congrArg Outcome.answer hfault.perform_absorb

theorem exists_failsAt_iff (hsnapshot : host.snapshot = .ok reports) :
    (∃ k, registry.FailsAt host mode k fault) ↔
      (absorbAll host mode registry reports).2 = .error fault := by
  simp only [failsAt_iff hsnapshot]
  constructor
  · rintro ⟨k, report, changed, last, hreport, hbefore, hfault⟩
    rw [absorbAll_of_atFault hreport hbefore hfault]
  · exact exists_of_absorbAll_eq_error

/-- A pass has no answer exactly if there is no snapshot, or if it fails at a report. -/
theorem reconcile_answer_eq_error_iff :
    (registry.reconcile host mode).answer = .error fault ↔
      (∃ cause, host.snapshot = .error cause ∧ fault = cause.ofSnapshot) ∨
        ∃ cause, (∃ k, registry.FailsAt host mode k cause) ∧ fault = cause.ofReport := by
  cases hsnapshot : host.snapshot with
  | error cause =>
    have hnone : ∀ other, ¬ ∃ k, registry.FailsAt host mode k other := by
      rintro other ⟨k, reports, report, changed, hreports, -⟩
      rw [hsnapshot] at hreports
      cases hreports
    rw [(reconcile_of_refusal hsnapshot).1]
    simp [hnone, eq_comm]
  | ok reports =>
    simp only [exists_failsAt_iff hsnapshot]
    cases hall : absorbAll host mode registry reports with
    | mk last answer =>
      cases answer with
      | ok changed =>
        rw [reconcile_of_absorbAll_eq_ok hsnapshot hall]
        simp
      | error cause =>
        rw [(reconcile_of_absorbAll_eq_error hsnapshot hall).1]
        simp [eq_comm]

/-! ## From one report to the next -/

/-- A fault that a pass comes to is one that its caller gets to see. -/
theorem answer_of_atFault (hsnapshot : host.snapshot = .ok reports)
    (hreport : reports[k]? = some report) (hreaches : registry.Reaches host mode k)
    (hfault : AtFault (registry.metBy host mode k) report mode fault) :
    (registry.reconcile host mode).answer = .error fault.ofReport := by
  obtain ⟨changed, hanswer⟩ := hreaches
  have hfails : registry.FailsAt host mode k fault :=
    ⟨reports, report, changed, hsnapshot, hreport, hanswer,
      congrArg Outcome.answer hfault.perform_absorb⟩
  exact reconcile_answer_eq_error_iff.mpr (.inr ⟨fault, ⟨k, hfails⟩, rfl⟩)

/-- The reports behind the one at fault do not matter. -/
theorem answer_upTo_of_atFault (hsnapshot : host.snapshot = .ok reports)
    (hreport : reports[k]? = some report) (hreaches : registry.Reaches host mode k)
    (hfault : AtFault (registry.metBy host mode k) report mode fault) :
    (registry.reconcile (host.upTo (k + 1)) mode).answer = .error fault.ofReport := by
  have hupTo : (host.upTo (k + 1)).upTo k = host.upTo k := Host.upTo_upTo host (Nat.le_succ k)
  have hlast : (reports.take (k + 1))[k]? = some report := by
    rw [List.getElem?_take, if_pos (Nat.lt_succ_self k), hreport]
  refine answer_of_atFault (Host.snapshot_upTo (k + 1) hsnapshot) hlast ?_ ?_
  · rw [Reaches, hupTo]
    exact hreaches
  · rw [metBy, hupTo]
    exact hfault

theorem reaches_succ (hsnapshot : host.snapshot = .ok reports)
    (hreport : reports[k]? = some report) (hreaches : registry.Reaches host mode k)
    (habsorb : absorb host mode (registry.metBy host mode k) report = .ok (next, changed)) :
    registry.Reaches host mode (k + 1) ∧ registry.metBy host mode (k + 1) = next := by
  obtain ⟨earlier, hbefore⟩ := absorbAll_of_reaches hsnapshot hreaches
  have hall := absorbAll_append_of_ok hbefore [report]
  rw [absorbAll_cons_of_ok habsorb] at hall
  apply reaches_of_absorbAll hsnapshot
  rw [List.take_add_one, hreport, Option.toList_some, hall]
  rfl

/-- A pass that comes to the next report as well has brought in this one. -/
theorem absorb_of_reaches_succ (hsnapshot : host.snapshot = .ok reports)
    (hreport : reports[k]? = some report) (hreaches : registry.Reaches host mode k)
    (hnext : registry.Reaches host mode (k + 1)) :
    ∃ changed, absorb host mode (registry.metBy host mode k) report =
      .ok (registry.metBy host mode (k + 1), changed) := by
  cases habsorb : absorb host mode (registry.metBy host mode k) report with
  | error fault =>
    obtain ⟨changed, hanswer⟩ := hnext
    rw [answer_upTo_of_atFault hsnapshot hreport hreaches (atFault_of_absorb habsorb)] at hanswer
    cases hanswer
  | ok result =>
    obtain ⟨next, changed⟩ := result
    rw [(reaches_succ hsnapshot hreport hreaches habsorb).2]
    exact ⟨changed, rfl⟩

/-! ## What is left where a pass fails -/

/-- Over the reports before the one at which a pass fails, it comes to its end with the same
table. -/
theorem FailsAt.reconcile_upTo (h : registry.FailsAt host mode k fault) :
    ∃ changed, registry.reconcile (host.upTo k) mode =
      { answer := .ok changed, registry := (registry.reconcile host mode).registry } := by
  obtain ⟨reports, -, -, hsnapshot, -⟩ := id h
  have hupTo := Host.snapshot_upTo k hsnapshot
  obtain ⟨report, changed, last, hreport, hbefore, hfault⟩ := (failsAt_iff hsnapshot).mp h
  have hall := absorbAll_of_atFault hreport hbefore hfault
  refine ⟨changed, ?_⟩
  rw [(reconcile_of_absorbAll_eq_error hsnapshot hall).2]
  exact reconcile_of_absorbAll_eq_ok hupTo ((absorbAll_upTo host k mode registry _).trans hbefore)

/-- The name of a mode asks for a pass in this mode, and any other name is refused, whatever the
host. Work on a report that ends with a fault leaves the table as it was, and what it ends with is
what is wrong with the report. A pass fails exactly where there is no snapshot, which leaves the
table as it was, or at one report; and then the table is that of the pass over the reports before.
What its caller gets to see is the fault itself, unless it is one that ends the program. Whatever
limits hold at the turns of the reports, they come to a single one. -/
theorem reconcile_fails (registry : Registry) (host : Host) :
    (∀ mode : Mode, registry.reconcileAs host mode.name = registry.reconcile host mode) ∧
    (∀ given, (∀ mode : Mode, given ≠ mode.name) →
      registry.reconcileAs host given = { answer := .error (.unknownMode given), registry }) ∧
    ∀ mode,
      (∀ report fault, (registry.perform (.absorb host mode report)).answer = .error fault →
        (registry.perform (.absorb host mode report)).registry = registry ∧
          AtFault registry report mode fault) ∧
      (∀ fault, (registry.reconcile host mode).answer = .error fault ↔
        (∃ cause, host.snapshot = .error cause ∧ fault = cause.ofSnapshot) ∨
          ∃ cause, (∃ k, registry.FailsAt host mode k cause) ∧ fault = cause.ofReport) ∧
      (∀ cause, host.snapshot = .error cause →
        (registry.reconcile host mode).registry = registry) ∧
      (∀ k cause, registry.FailsAt host mode k cause →
        ∃ changed, registry.reconcile (host.upTo k) mode =
          { answer := .ok changed, registry := (registry.reconcile host mode).registry }) ∧
      ∀ turns : List (Int × Report), ∃ limit,
        (registry.limitGrowth limit).perform (.absorbAll host mode (turns.map Prod.snd)) =
          let outcome := registry.perform (.absorbAllLimited host mode turns)
          { outcome with registry := outcome.registry.limitGrowth limit } := by
  refine ⟨fun mode => ?_, fun given hgiven => ?_, fun mode => ⟨fun report fault hfault => ?_,
    fun fault => reconcile_answer_eq_error_iff, fun cause hcause => (reconcile_of_refusal hcause).2,
    fun k cause h => h.reconcile_upTo, fun turns => ?_⟩⟩
  · rw [reconcileAs, mode.ofName?_name]
  · rw [reconcileAs, Mode.ofName?_of_unknown hgiven]
  · have hreport := atFault_of_perform hfault
    exact ⟨congrArg Outcome.registry hreport.perform_absorb, hreport⟩
  · obtain ⟨limit, -, hlimit⟩ := exists_limit host mode registry turns
    exact ⟨limit, hlimit⟩

/-- One interface, and room for one more. -/
def roomForTwo : Registry :=
  Registry.after {} [.append { name := "eth0", ifindex := 2 }, .limitGrowth 2]

/-- Two interfaces more than there is room for, and a text that is no address. -/
def overflowing : Host :=
  ⟨.ok [⟨.text "eth0:1", 0, .ipv4, some (.text "10.0.0.5")⟩, ⟨.text "lo", 9, .absent, none⟩,
    ⟨.text "eth1", 3, .ipv4, some (.text "10.0.0.6")⟩, ⟨.text "eth2", 0, .ipv4, some (.text "")⟩],
    [("lo", 1), ("eth1", 3)]⟩

/-- The full pass ends the program at eth1, behind an address and a new record. The other one comes
to the text that is no address, behind an address only. A mode of another name is refused. -/
theorem reconcile_fails_overflowing :
    roomForTwo.FailsAt overflowing .full 2 .tableFull ∧
      (roomForTwo.reconcile overflowing .full).answer = .error (.exit .fatal) ∧
      (∃ changed, roomForTwo.reconcile (overflowing.upTo 2) .full =
        { answer := .ok changed, registry := (roomForTwo.reconcile overflowing .full).registry }) ∧
      ((roomForTwo.reconcile overflowing .full).registry.records.map
          fun record => (record.name, record.address)) =
        [("eth0", some ⟨10, 0, 0, 5⟩), ("lo", none)] ∧
      roomForTwo.FailsAt overflowing .refreshOnly 3 (.badAddress (.badText "" .empty)) ∧
      (roomForTwo.reconcile overflowing .refreshOnly).answer =
        .error (.badAddress (.badText "" .empty)) ∧
      (∀ mode : Mode, "refresh" ≠ mode.name) ∧
      roomForTwo.reconcileAs overflowing "refresh" =
        { answer := .error (.unknownMode "refresh"), registry := roomForTwo } := by
  obtain ⟨-, hrefused, hmodes⟩ := reconcile_fails roomForTwo overflowing
  obtain ⟨-, hanswerFull, -, hleft, -⟩ := hmodes .full
  obtain ⟨-, hanswerRefresh, -⟩ := hmodes .refreshOnly
  have hfull : roomForTwo.FailsAt overflowing .full 2 .tableFull :=
    ⟨_, _, true, rfl, rfl, by decide +kernel, by decide +kernel⟩
  have haddress :
      roomForTwo.FailsAt overflowing .refreshOnly 3 (.badAddress (.badText "" .empty)) :=
    ⟨_, _, true, rfl, rfl, by decide +kernel, by decide +kernel⟩
  have hunknown : ∀ mode : Mode, "refresh" ≠ mode.name := by
    intro mode
    cases mode <;> decide
  exact ⟨hfull, (hanswerFull _).mpr (.inr ⟨_, ⟨2, hfull⟩, rfl⟩), hleft 2 _ hfull,
    by decide +kernel, haddress, (hanswerRefresh _).mpr (.inr ⟨_, ⟨3, haddress⟩, rfl⟩), hunknown,
    hrefused _ hunknown⟩

end Registry

end IfaceTable
