import IfaceTable.Proofs.Modes
import IfaceTable.Proofs.Refresh

/-!
# Gains that no refresh answers for

A daemon refreshes the addresses again and again, and carries on if a refresh fails. A refresh that
fails keeps the addresses that it has filled in by then, but it has no answer, and to the next one
they are known.

* `Registry.refreshes`: the refreshes of a sequence, with the tables that they start from.
* `gains_after_iff`: what a sequence gains, one of its refreshes gains.
* `answer_of_gains`: a refresh that comes to its end answers for what it gains.
* `gain_answered_iff`: some answer of a sequence tells of its gains, unless a refresh that failed
  hides one and no other has an address to tell of. `gain_hidden_by_failure`: this happens.
-/

namespace IfaceTable

/-- A refresh: the table that it starts from, and what the host tells. -/
structure RefreshCall where
  table : Registry
  host : Host

namespace RefreshCall

def outcome (call : RefreshCall) : Outcome Bool := call.table.refresh call.host

/-- A record gains an address, whether or not the refresh comes to its end. -/
def Gains (call : RefreshCall) : Prop := call.table.Gains call.outcome.registry

/-- The refresh fails after a record has gained an address. -/
def HidesGain (call : RefreshCall) : Prop := call.outcome.answer.isOk = false ∧ call.Gains

/-- The refresh comes to its end, and brings an address to a record that has no usable one. -/
def BringsAddress (call : RefreshCall) : Prop :=
  call.outcome.answer.isOk ∧
    ∃ reports, call.host.snapshot = .ok reports ∧ call.table.BringsAddress reports

end RefreshCall

namespace Registry

/-- The refreshes of a sequence in which the host may tell something else each time. -/
def refreshes (registry : Registry) : List Host → List RefreshCall
  | [] => []
  | host :: hosts => ⟨registry, host⟩ :: refreshes (registry.refresh host).registry hosts

variable {registry next last : Registry} {host : Host} {hosts : List Host} {changed : Bool}

/-! ## Refreshes in sequence -/

theorem extends_refresh (registry : Registry) (host : Host) :
    registry.Extends (registry.refresh host).registry := by
  rw [refresh_registry]
  apply reconcile_induction (P := fun later => registry.Extends later)
  · intro reports _ report _ before next changed hbefore h
    exact hbefore.trans (extends_of_absorb h)
  · exact .refl registry

theorem length_refresh (registry : Registry) (host : Host) :
    (registry.refresh host).registry.records.length = registry.records.length := by
  rw [refresh_registry]
  cases hsnapshot : host.snapshot with
  | error fault => rw [reconcile_registry_of_error hsnapshot]
  | ok reports => rw [reconcile_registry hsnapshot, length_absorbAll_refresh]

theorem extends_refreshes (registry : Registry) (hosts : List Host) :
    registry.Extends (registry.after (hosts.map .refresh)) := by
  induction hosts generalizing registry with
  | nil => exact .refl registry
  | cons host hosts ih =>
    exact (extends_refresh registry host).trans (ih (registry.refresh host).registry)

theorem not_gains_self (registry : Registry) : ¬ registry.Gains registry := by
  rintro ⟨row, hrow, hwaits, record, hrecord, husable⟩
  rw [mem_rows.mp hrow, Option.mem_some_iff] at hrecord
  rw [← hrecord, hwaits] at husable
  cases husable

/-- What is gained on a way is gained before or behind any table on it. -/
theorem gains_iff_of_between (hnext : registry.Extends next)
    (hlength : next.records.length = registry.records.length) (hlast : next.Extends last) :
    registry.Gains last ↔ registry.Gains next ∨ next.Gains last := by
  constructor
  · rintro ⟨row, hrow, hwaits, record, hrecord, husable⟩
    obtain ⟨kept, hkept, -⟩ := hnext row.2 row.1 (mem_rows.mp hrow)
    cases hmiddle : kept.hasAddress with
    | true => exact .inl ⟨row, hrow, hwaits, kept, hkept, hmiddle⟩
    | false => exact .inr ⟨(kept, row.2), mem_rows.mpr hkept, hmiddle, record, hrecord, husable⟩
  · rintro (⟨row, hrow, hwaits, kept, hkept, husable⟩ | ⟨row, hrow, hwaits, hgained⟩)
    · obtain ⟨record, hrecord, hpersists⟩ := hlast row.2 kept hkept
      exact ⟨row, hrow, hwaits, record, hrecord, hpersists.hasAddress husable⟩
    · -- No record is added, so the one that gains was there from the start.
      have hget := mem_rows.mp hrow
      have hlt : row.2 < registry.records.length := by
        rw [← hlength]
        exact (List.getElem?_eq_some_iff.mp hget).1
      have hold := List.getElem?_eq_getElem hlt
      obtain ⟨kept, hkept, hpersists⟩ := hnext row.2 _ hold
      rw [hget, Option.some.injEq] at hkept
      exact ⟨(registry.records[row.2], row.2), mem_rows.mpr hold,
        hpersists.waits (hkept ▸ hwaits), hgained⟩

/-- A record gains an address in a sequence exactly if it does so in one of the refreshes. -/
theorem gains_after_iff (registry : Registry) (hosts : List Host) :
    registry.Gains (registry.after (hosts.map .refresh)) ↔
      ∃ call ∈ registry.refreshes hosts, call.Gains := by
  induction hosts generalizing registry with
  | nil => exact iff_of_false (not_gains_self registry) (by simp [refreshes])
  | cons host hosts ih =>
    have hbetween := gains_iff_of_between (extends_refresh registry host)
      (length_refresh registry host) (extends_refreshes (registry.refresh host).registry hosts)
    rw [refreshes, List.exists_mem_cons_iff, ← ih]
    exact hbetween

/-! ## Answers -/

/-- A refresh that comes to its end answers whether it brought an address to a record that had no
usable one. -/
theorem answer_eq_true_iff {call : RefreshCall} :
    call.outcome.answer = .ok true ↔ call.BringsAddress := by
  cases hanswer : call.outcome.answer with
  | error fault => simp [RefreshCall.BringsAddress, hanswer, Except.isOk, Except.toBool]
  | ok changed =>
    have hok : (call.table.reconcile call.host .refreshOnly).answer = .ok changed :=
      (refresh_answer call.table call.host).symm.trans hanswer
    obtain ⟨reports, hsnapshot⟩ := snapshot_of_answer hok
    have hchanged := changed_absorbAll ((reconcile_answer_eq_ok_iff hsnapshot).mp hok)
    simp [RefreshCall.BringsAddress, hanswer, Except.isOk, Except.toBool, hsnapshot, hchanged]

/-- A refresh that comes to its end answers for what it gains. -/
theorem answer_of_gains {call : RefreshCall} (hok : call.outcome.answer = .ok changed)
    (hgains : call.Gains) : call.BringsAddress := by
  have hok' : (call.table.reconcile call.host .refreshOnly).answer = .ok changed :=
    (refresh_answer call.table call.host).symm.trans hok
  obtain ⟨reports, hsnapshot⟩ := snapshot_of_answer hok'
  refine ⟨by rw [hok]; rfl, reports, hsnapshot, ?_⟩
  rw [RefreshCall.Gains, RefreshCall.outcome, refresh_registry,
    gains_refresh_iff hsnapshot hok'] at hgains
  exact hgains.bringsAddress

/-- If a record gains an address in a sequence of refreshes, one of them answers that something
changed; this fails exactly where a refresh that failed hides a gain, and none that came to its end
brought an address to a record without a usable one. -/
theorem gain_answered_iff (registry : Registry) (hosts : List Host) :
    (registry.Gains (registry.after (hosts.map .refresh)) →
      ∃ call ∈ registry.refreshes hosts, call.outcome.answer = .ok true) ↔
    ((∃ call ∈ registry.refreshes hosts, call.HidesGain) →
      ∃ call ∈ registry.refreshes hosts, call.BringsAddress) := by
  simp only [answer_eq_true_iff, gains_after_iff]
  constructor
  · rintro hanswered ⟨call, hmem, -, hgains⟩
    exact hanswered ⟨call, hmem, hgains⟩
  · rintro hhidden ⟨call, hmem, hgains⟩
    cases hanswer : call.outcome.answer with
    | ok changed => exact ⟨call, hmem, answer_of_gains hanswer hgains⟩
    | error fault => exact hhidden ⟨call, hmem, by rw [hanswer]; rfl, hgains⟩

/-- The link eth0 has an address, and what is said of eth1 is no address. -/
def halfBroken : Host :=
  ⟨.ok [⟨.text "eth0", 0, .ipv4, some (.text "10.0.0.5")⟩,
    ⟨.text "eth1", 0, .ipv4, some (.text "10.0.0.06")⟩], [("eth0", 2)]⟩

/-- The link eth0 has an address. -/
def configured : Host :=
  ⟨.ok [⟨.text "eth0", 0, .ipv4, some (.text "10.0.0.5")⟩], [("eth0", 2)]⟩

/-- The first refresh gives eth0 its address and fails; the second one answers that nothing
changed. -/
theorem gain_hidden_by_failure :
    (populate {} linkUp).registry.Gains
        ((populate {} linkUp).registry.after ([halfBroken, configured].map .refresh)) ∧
      ((populate {} linkUp).registry.refreshes [halfBroken, configured]).map
          (fun call => call.outcome.answer) =
        [.error (.badAddress (.badText "10.0.0.06" (.octet (.leadingZero "06")))), .ok false] := by
  decide +kernel

end Registry

end IfaceTable
