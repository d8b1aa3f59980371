import IfaceTable.Proofs.Identities
import IfaceTable.Registry.Traversal

/-!
# Going through a changing table

A traversal is carried on step by step, and between two steps anything may happen to the table.
Where a step leads depends on the table as it is then, and on nothing that was read before.

* `Turn`: a step, or something in between. `Way.visits`: all steps of a traversal, each with the
  table that it met.
* `Walker.Comes`: what a step of a walker has to come to. `Walker.comes_next`: it does, in any
  table.
* `Walker.hasCome_after`: as long as no record is taken out, a walker comes to the first records of
  the table, none left out and none twice.
* `Sweep.comes_of_begin`: a sweep comes to the records that were in the table at its first step.
* `traversals_of_changing_table`: all of this, for any turns.
-/

namespace IfaceTable

/-- One thing that happens while a table is gone through. -/
inductive Turn where
  /-- A step of the traversal. -/
  | advance
  /-- The traversal begins anew. -/
  | restart
  | occur (event : Event)
  /-- Any change to the fields of a record, also to its name. -/
  | revise (id : Nat) (change : Iface → Iface)

namespace Turn

/-- The table behind a turn. -/
def apply (table : Registry) : Turn → Registry
  | advance | restart => table
  | occur event => event.apply table
  | revise id change => table.modify id change

/-- The traversal goes on, in a table from which no record is taken out. -/
def goesOn : Turn → Bool
  | advance | revise .. => true
  | restart => false
  | occur event => event.keepsRecords

theorem ids_prefix_apply {turn : Turn} (h : turn.goesOn) (table : Registry) :
    table.ids <+: (turn.apply table).ids := by
  cases turn with
  | advance => exact List.prefix_refl _
  | restart => cases h
  | occur event => exact Registry.ids_prefix_apply h table
  | revise id change => exact table.ids_prefix_modify id change

end Turn

/-- A table, and the place to which a traversal of it has come. -/
structure Traversal (σ : Type) where
  table : Registry
  place : σ

/-- One step of a traversal: where it began, what it came to, and where it ended. -/
structure Visit (σ α : Type) where
  table : Registry
  before : σ
  answer : α
  after : σ

/-- A way to go through a table: where it begins, and how a step goes. -/
structure Way (σ α : Type) where
  start : σ
  next : σ → Registry → α × σ

def Walker.way : Way Walker (Option Record) where
  start := {}
  next := Walker.next

def Sweep.way : Way Sweep (Except Fault Sweep.Step) where
  start := .waiting
  next := Sweep.next

namespace Way

variable {σ α : Type} (way : Way σ α)

/-- A traversal that begins. -/
def begin (table : Registry) : Traversal σ := ⟨table, way.start⟩

/-- One turn. -/
def turn (traversal : Traversal σ) (turn : Turn) : Traversal σ where
  table := turn.apply traversal.table
  place :=
    match turn with
    | .advance => (way.next traversal.place traversal.table).2
    | .restart => way.start
    | .occur _ | .revise .. => traversal.place

/-- The traversal after some turns. -/
def after (traversal : Traversal σ) (turns : List Turn) : Traversal σ :=
  turns.foldl way.turn traversal

/-- The steps along some turns. -/
def visits : Traversal σ → List Turn → List (Visit σ α)
  | _, [] => []
  | traversal, turn :: turns =>
    let later := visits (way.turn traversal turn) turns
    match turn with
    | .advance =>
      let (answer, place) := way.next traversal.place traversal.table
      ⟨traversal.table, traversal.place, answer, place⟩ :: later
    | .restart | .occur _ | .revise .. => later

theorem visits_append (traversal : Traversal σ) (earlier later : List Turn) :
    way.visits traversal (earlier ++ later) =
      way.visits traversal earlier ++ way.visits (way.after traversal earlier) later := by
  induction earlier generalizing traversal with
  | nil => rfl
  | cons turn earlier ih =>
    have hrest := ih (way.turn traversal turn)
    cases turn with
    | advance => exact congrArg (List.cons _) hrest
    | restart | occur | revise => exact hrest

/-- A traversal that begins anew is like one that was never under way. -/
theorem visits_restart (traversal : Traversal σ) (earlier later : List Turn) :
    way.visits traversal (earlier ++ .restart :: later) =
      way.visits traversal earlier ++
        way.visits (way.begin (way.after traversal earlier).table) later :=
  way.visits_append traversal earlier (.restart :: later)

/-- What each step does in the table that it meets, all steps do. -/
theorem of_mem_visits {P : Registry → σ → α → σ → Prop}
    (hstep : ∀ table place, P table place (way.next place table).1 (way.next place table).2)
    (traversal : Traversal σ) (turns : List Turn) :
    ∀ visit ∈ way.visits traversal turns, P visit.table visit.before visit.answer visit.after := by
  induction turns generalizing traversal with
  | nil => simp [visits]
  | cons turn turns ih =>
    cases turn with
    | advance =>
      intro visit hvisit
      rcases List.mem_cons.mp hvisit with rfl | hvisit
      · exact hstep traversal.table traversal.place
      · exact ih _ visit hvisit
    | restart | occur | revise => exact ih _

end Way

/-! ## Walkers -/

namespace Walker

/-- What a step of a walker has to come to: the record at its position, which is in the table and in
the slot of that number, or nothing, if there are no more records than it has passed. -/
inductive Comes (table : Registry) : Walker → Option Record → Walker → Prop
  | record {position : Nat} {record : Record} (hlt : position < table.count)
    (hslot : table.slots.cells[position]? = some (some record))
    (hat : table.recordAt position = .ok record) :
    Comes table ⟨position⟩ (some record) ⟨position + 1⟩
  | nothing {walker : Walker} (hend : table.count ≤ walker.position) :
    Comes table walker none walker

theorem comes_next (table : Registry) (walker : Walker) :
    Comes table walker (walker.next table).1 (walker.next table).2 := by
  by_cases hlt : walker.position < table.count
  · obtain ⟨record, hget⟩ : ∃ record, table.records[walker.position]? = some record :=
      ⟨_, List.getElem?_eq_getElem (by rwa [Registry.length_records])⟩
    rw [next_of_lt hget]
    refine .record hlt ((table.slots.cells_getElem? hlt).trans (congrArg some hget)) ?_
    rw [Registry.recordAt, Slots.at?, if_neg (by omega), Int.toNat_natCast,
      show table.slots.toList[walker.position]? = some record from hget]
  · rw [next_of_le (Nat.le_of_not_lt hlt)]
    exact .nothing (Nat.le_of_not_lt hlt)

/-- The records to which a walker comes. -/
def found (traversal : Traversal Walker) (turns : List Turn) : List Record :=
  (way.visits traversal turns).filterMap Visit.answer

theorem found_advance (traversal : Traversal Walker) (turns : List Turn) :
    found traversal (.advance :: turns) =
      (traversal.place.next traversal.table).1.toList ++
        found (way.turn traversal .advance) turns := by
  cases h : (traversal.place.next traversal.table).1 with
  | none => exact List.filterMap_cons_none h
  | some record => exact List.filterMap_cons_some h

/-- Steps with nothing in between come to one record after the other. -/
theorem found_replicate (table : Registry) (position steps : Nat) :
    found ⟨table, ⟨position⟩⟩ (List.replicate steps .advance) =
      (table.records.drop position).take steps := by
  induction steps generalizing position with
  | zero => rfl
  | succ steps ih =>
    have hturn : way.turn ⟨table, ⟨position⟩⟩ .advance =
        ⟨table, (Walker.next ⟨position⟩ table).2⟩ := rfl
    rw [List.replicate_succ, found_advance, hturn]
    by_cases hlt : position < table.records.length
    · have hstep : Walker.next ⟨position⟩ table =
          (some table.records[position], ⟨position + 1⟩) :=
        next_of_lt (List.getElem?_eq_getElem hlt)
      rw [hstep, ih, List.drop_eq_getElem_cons hlt, List.take_succ_cons]
      rfl
    · have hend : table.records.length ≤ position := Nat.le_of_not_lt hlt
      have hstep : Walker.next ⟨position⟩ table = (none, ⟨position⟩) :=
        next_of_le (table.length_records ▸ hend)
      rw [hstep, ih, List.drop_eq_nil_of_le hend, List.take_nil, List.take_nil]
      rfl

/-- The walker has come to the records with the given identities, which are the first ones of the
table, and is behind them. -/
structure HasCome (ids : List Nat) (traversal : Traversal Walker) : Prop where
  isPrefix : ids <+: traversal.table.ids
  position : traversal.place.position = ids.length

theorem hasCome_begin (table : Registry) : HasCome [] (way.begin table) where
  isPrefix := List.nil_prefix
  position := rfl

/-- A step brings the walker to the next record, if there is one. -/
theorem hasCome_next {ids : List Nat} {table : Registry} {walker : Walker}
    (h : HasCome ids ⟨table, walker⟩) :
    HasCome (ids ++ (walker.next table).1.toList.map fun record => record.id)
      ⟨table, (walker.next table).2⟩ := by
  obtain ⟨hids, hposition⟩ := h
  cases hget : table.records[walker.position]? with
  | none =>
    rw [next, hget]
    exact ⟨by simpa using hids, by simpa using hposition⟩
  | some record =>
    have hid : table.ids[ids.length]? = some record.id :=
      Registry.getElem?_ids (hposition ▸ hget)
    rw [next, hget]
    refine ⟨List.prefix_iff_eq_take.mpr ?_, by simpa using hposition⟩
    calc ids ++ [record.id] = table.ids.take ids.length ++ table.ids[ids.length]?.toList := by
          rw [← List.prefix_iff_eq_take.mp hids, hid, Option.toList_some]
      _ = table.ids.take (ids ++ [record.id]).length := by
          rw [← List.take_add_one, List.length_append, List.length_singleton]

/-- Along turns that go on, a walker comes to one record after the other. -/
theorem hasCome_after {turns : List Turn} (hturns : ∀ turn ∈ turns, turn.goesOn) {ids : List Nat}
    (traversal : Traversal Walker) (h : HasCome ids traversal) :
    HasCome (ids ++ (found traversal turns).map fun record => record.id)
      (way.after traversal turns) := by
  -- Each step adds to what the walker has come to, so this is for any beginning of it.
  induction turns generalizing ids traversal with
  | nil =>
    rw [show found traversal [] = [] from rfl, List.map_nil, List.append_nil]
    exact h
  | cons turn turns ih =>
    obtain ⟨hturn, hlater⟩ := List.forall_mem_cons.mp hturns
    have hids := h.isPrefix.trans (Turn.ids_prefix_apply hturn traversal.table)
    cases turn with
    | advance =>
      rw [found_advance, List.map_append, ← List.append_assoc]
      exact ih hlater (way.turn traversal .advance) (hasCome_next h)
    | restart => cases hturn
    | occur | revise => exact ih hlater (way.turn traversal _) ⟨hids, h.position⟩

end Walker

/-! ## Sweeps -/

namespace Sweep

/-- What step number `position` of a sweep has to come to that counted the records with the given
identities: the record that was at that position by then, and from the end on nothing. -/
inductive Comes (ids : List Nat) (table : Registry) (position : Nat) : Except Fault Step → Prop
  | slot {record : Record} (hat : table.records[position]? = some record)
    (hid : ids[position]? = some record.id) : Comes ids table position (.ok (.slot (some record)))
  | finished (hend : ids.length ≤ position) : Comes ids table position (.ok .finished)

/-- A sweep through `total` slots that took `position` steps. -/
inductive IsAt (total position : Nat) : Sweep → Prop
  | underway : IsAt total position (underway total position)
  | done (hend : total ≤ position) : IsAt total position done

/-- A step among the records that were counted, of which none is gone. -/
theorem comes_next {ids : List Nat} {table : Registry} (hids : ids <+: table.ids) {position : Nat}
    {sweep : Sweep} (h : IsAt ids.length position sweep) :
    Comes ids table position (sweep.next table).1 ∧
      IsAt ids.length (position + 1) (sweep.next table).2 := by
  cases h with
  | done hend => exact ⟨.finished hend, .done (Nat.le_succ_of_le hend)⟩
  | underway =>
    rw [next, readSlot]
    by_cases hend : ids.length ≤ position
    · rw [if_pos hend]
      exact ⟨.finished hend, .done (Nat.le_succ_of_le hend)⟩
    · rw [if_neg hend]
      have hlt : position < ids.length := Nat.lt_of_not_le hend
      have hcount : position < table.records.length :=
        Nat.lt_of_lt_of_le hlt (hids.length_le.trans_eq table.length_ids)
      obtain ⟨record, hat⟩ : ∃ record, table.records[position]? = some record :=
        ⟨_, List.getElem?_eq_getElem hcount⟩
      have hcell : table.slots.cells[position]? = some (some record) :=
        (table.slots.cells_getElem? (by rwa [Registry.length_records] at hcount)).trans
          (congrArg some hat)
      have hid : ids[position]? = some record.id := by
        rw [List.getElem?_eq_getElem hlt, ← List.prefix_iff_getElem?.mp hids position hlt]
        exact Registry.getElem?_ids hat
      rw [hcell]
      exact ⟨.slot hat hid, .underway⟩

/-- The first step counts all records of the table. -/
theorem comes_next_waiting (table : Registry) :
    Comes table.ids table 0 (next .waiting table).1 ∧
      IsAt table.ids.length 1 (next .waiting table).2 := by
  have hlength : table.ids.length = table.count := table.length_ids.trans table.length_records
  have hwaiting : next .waiting table = next (.underway table.ids.length 0) table := by
    rw [next, next, hlength]
  rw [hwaiting]
  exact comes_next (List.prefix_refl _) .underway

/-- Along turns that go on, a sweep comes to one of the records that it counted after the other. -/
theorem comes_of_visits {ids : List Nat} {turns : List Turn}
    (hturns : ∀ turn ∈ turns, turn.goesOn) (traversal : Traversal Sweep)
    (hids : ids <+: traversal.table.ids) {position : Nat}
    (hplace : IsAt ids.length position traversal.place) {number : Nat}
    {visit : Visit Sweep (Except Fault Step)}
    (hvisit : (way.visits traversal turns)[number]? = some visit) :
    Comes ids visit.table (position + number) visit.answer := by
  induction turns generalizing traversal position number with
  | nil => cases hvisit
  | cons turn turns ih =>
    obtain ⟨hturn, hlater⟩ := List.forall_mem_cons.mp hturns
    have hnext := hids.trans (Turn.ids_prefix_apply hturn traversal.table)
    cases turn with
    | advance =>
      obtain ⟨hcomes, hat⟩ := comes_next hids hplace
      cases number with
      | zero =>
        cases hvisit
        exact hcomes
      | succ number =>
        rw [Nat.add_comm number, ← Nat.add_assoc]
        exact ih hlater (way.turn traversal .advance) hids hat hvisit
    | restart => cases hturn
    | occur | revise => exact ih hlater (way.turn traversal _) hnext hplace hvisit

/-- A sweep that begins comes to the records that are in the table at its first step. -/
theorem comes_of_begin {turns : List Turn} (hturns : ∀ turn ∈ turns, turn.goesOn)
    (table : Registry) {first : Visit Sweep (Except Fault Step)}
    (hfirst : first ∈ (way.visits (way.begin table) turns).head?) {number : Nat}
    {visit : Visit Sweep (Except Fault Step)}
    (hvisit : (way.visits (way.begin table) turns)[number]? = some visit) :
    Comes first.table.ids visit.table number visit.answer := by
  -- Nothing is counted before the first step, so up to it any table will do.
  induction turns generalizing table with
  | nil => cases hfirst
  | cons turn turns ih =>
    obtain ⟨hturn, hlater⟩ := List.forall_mem_cons.mp hturns
    cases turn with
    | advance =>
      have htable : table = first.table := congrArg Visit.table (Option.some.inj hfirst)
      obtain ⟨hcomes, hat⟩ := comes_next_waiting table
      rw [← htable]
      cases number with
      | zero =>
        cases hvisit
        exact hcomes
      | succ number =>
        rw [Nat.add_comm]
        exact comes_of_visits hlater (way.turn (way.begin table) .advance) (List.prefix_refl _) hat
          hvisit
    | restart => cases hturn
    | occur | revise => exact ih hlater (Turn.apply table _) hfirst hvisit

end Sweep

/-! ## Both ways -/

/-- Whatever happens to the table between the steps, each step of a walker comes to the record that
is at its position by then, or to none if there is none; and a walker that begins anew goes on like
one that was never under way. As long as it does not and no record is taken out, those that it came
to since are the first ones of the table as it is by then. A sweep comes to the records that were in
the table at its first step, one after the other, however many have come behind them, and is then
done. -/
theorem traversals_of_changing_table (table : Registry) (turns : List Turn) :
    (∀ walker, ∀ visit ∈ Walker.way.visits ⟨table, walker⟩ turns,
        Walker.Comes visit.table visit.before visit.answer visit.after) ∧
      (∀ walker later, Walker.way.visits ⟨table, walker⟩ (turns ++ .restart :: later) =
        Walker.way.visits ⟨table, walker⟩ turns ++
          Walker.way.visits (Walker.way.begin (Walker.way.after ⟨table, walker⟩ turns).table)
            later) ∧
      ((∀ turn ∈ turns, turn.goesOn) →
        ((Walker.found (Walker.way.begin table) turns).map (fun record => record.id) <+:
            (Walker.way.after (Walker.way.begin table) turns).table.ids ∧
          (Walker.way.after (Walker.way.begin table) turns).place.position =
            (Walker.found (Walker.way.begin table) turns).length) ∧
        ∀ first ∈ (Sweep.way.visits (Sweep.way.begin table) turns).head?, ∀ number visit,
          (Sweep.way.visits (Sweep.way.begin table) turns)[number]? = some visit →
            Sweep.Comes first.table.ids visit.table number visit.answer) := by
  refine ⟨fun walker => Way.of_mem_visits _ Walker.comes_next _ turns,
    fun walker later => Way.visits_restart _ _ turns later, fun hturns => ⟨?_, ?_⟩⟩
  · obtain ⟨hids, hposition⟩ := Walker.hasCome_after hturns _ (Walker.hasCome_begin table)
    exact ⟨hids, by simpa using hposition⟩
  · exact fun first hfirst number visit hvisit => Sweep.comes_of_begin hturns table hfirst hvisit

/-- Two interfaces before the first step; a third one for which there is no slot at first. -/
def growingTurns : List Turn :=
  [.occur (.append (.create "eth0" 2)), .occur (.append (.create "eth1" 3)), .advance,
    .occur (.limitGrowth 2), .occur (.append (.create "eth2" 4)), .advance, .advance,
    .occur (.limitGrowth 4), .occur (.append (.create "eth2" 4)),
    .occur (.assign 0 { vif := some 0 }), .advance]

/-- The walker finds none while the third interface is refused, and then it finds that one; the
sweep is done by then. -/
theorem traversals_of_growing_table :
    (∀ turn ∈ growingTurns, turn.goesOn) ∧
      (Walker.way.visits (Walker.way.begin {}) growingTurns).map
          (fun visit => visit.answer.map fun record => (record.id, record.name)) =
        [some (0, "eth0"), some (1, "eth1"), none, some (2, "eth2")] ∧
      (Walker.found (Walker.way.begin {}) growingTurns).map (fun record => record.id) <+:
        (Walker.way.after (Walker.way.begin {}) growingTurns).table.ids ∧
      (Sweep.way.visits (Sweep.way.begin {}) growingTurns).length = 4 ∧
      ∀ number visit,
        (Sweep.way.visits (Sweep.way.begin {}) growingTurns)[number]? = some visit →
          Sweep.Comes [0, 1] visit.table number visit.answer := by
  have hturns : ∀ turn ∈ growingTurns, turn.goesOn := by decide
  obtain ⟨-, -, h⟩ := traversals_of_changing_table {} growingTurns
  obtain ⟨⟨hids, -⟩, hsweep⟩ := h hturns
  exact ⟨hturns, by decide, hids, by decide, hsweep _ rfl⟩

end IfaceTable
