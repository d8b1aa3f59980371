import IfaceTable.Proofs.Identities
import IfaceTable.Proofs.Seek
import Mathlib.Logic.Function.Basic

/-!
# Searches in a growing table

Many searches go on at the same time, each with a cursor of its own and any of them with another
pattern at each step, while records are added to the table and written to.

* `Move`: one thing that happens. `Searches.calls`: all steps of the searches, each with the table
  and the cursor that it met.
* `InRange`: no cursor is off the table. `InRange.step`: every move keeps this, since no record is
  taken out.
* `linked_callsOn`: a cursor goes from step to step of its search, and nothing else moves it.
* `none_missed_or_repeated`: no search misses a record, or comes to one a second time.
-/

namespace IfaceTable

/-- One thing that happens while searches go on. -/
inductive Move where
  /-- A step of the search with the cursor of the given number. -/
  | call (number : Nat) (kind : SearchKind) (pattern : Pattern)
  /-- Something that takes no record out of the table. -/
  | occur (event : Event) (h : event.keepsRecords)
  /-- Any change to the fields of a record, also to its name. -/
  | revise (id : Nat) (change : Iface → Iface)
  /-- From now on the system routes IPv6 multicast, or does not. -/
  | routeIpv6 (on : Bool)

/-- A table and the cursors with which it is searched. A cursor that was not used yet is like one
that is only made then. -/
structure Searches where
  table : Registry
  cursors : Nat → Cursor := fun _ => {}

/-- One step of one search. -/
structure Call where
  number : Nat
  kind : SearchKind
  pattern : Pattern
  /-- The table that is searched, as it is then. -/
  table : Registry
  before : Cursor

namespace Call

def answer (call : Call) : Except Fault (Option Row × Cursor) :=
  call.table.search call.kind call.pattern call.before

/-- The row that is found. -/
def found (call : Call) : Option Row := call.answer.toOption.bind Prod.fst

/-- The cursor afterwards; a step at fault leaves it where it is. -/
def after (call : Call) : Cursor := (call.answer.toOption.map Prod.snd).getD call.before

end Call

/-- The table behind a move. -/
def Move.apply (table : Registry) : Move → Registry
  | .call .. => table
  | .occur event _ => event.apply table
  | .revise id change => table.modify id change
  | .routeIpv6 on => { table with routesIpv6 := on }

namespace Searches

/-- The step that a move is, if it is one. -/
def call? (searches : Searches) : Move → Option Call
  | .call number kind pattern =>
    some ⟨number, kind, pattern, searches.table, searches.cursors number⟩
  | .occur .. | .revise .. | .routeIpv6 _ => none

/-- One move. Only a step moves a cursor. -/
def step (searches : Searches) (move : Move) : Searches where
  table := move.apply searches.table
  cursors :=
    match searches.call? move with
    | some call => Function.update searches.cursors call.number call.after
    | none => searches.cursors

/-- The searches after some moves. -/
def after (searches : Searches) (moves : List Move) : Searches := moves.foldl step searches

/-- All steps of the searches along some moves. -/
def calls : Searches → List Move → List Call
  | _, [] => []
  | searches, move :: moves => (searches.call? move).toList ++ calls (searches.step move) moves

/-- The steps of one search. -/
def callsOn (searches : Searches) (number : Nat) (moves : List Move) : List Call :=
  (searches.calls moves).filter fun call => call.number = number

/-- The rows that one search finds. -/
def foundOn (searches : Searches) (number : Nat) (moves : List Move) : List Row :=
  (searches.callsOn number moves).filterMap Call.found

/-- A table with all searches still to begin. -/
def start (table : Registry) : Searches := { table }

/-- No cursor is off the table. -/
def InRange (searches : Searches) : Prop :=
  ∀ number, 0 ≤ (searches.cursors number).position ∧
    (searches.cursors number).position ≤ searches.table.records.length

end Searches

/-- The step comes to its end and does what it has to. -/
structure Call.IsSound (call : Call) : Prop where
  answered : call.answer = .ok (call.found, call.after)
  finds : call.before.Finds (call.table.admits call.kind call.pattern) call.table.records
    call.found call.after

/-- Each of the steps takes the cursor as the one before left it, the first one as it is at the
start, and the last one leaves it as it is at the end. -/
def Linked : Cursor → List Call → Cursor → Prop
  | start, [], last => last = start
  | start, call :: calls, last => call.before = start ∧ Linked call.after calls last

/-- The move is no step of another search. -/
def Move.concerns (number : Nat) : Move → Bool
  | .call other .. => other = number
  | .occur .. | .revise .. | .routeIpv6 _ => true

/-! ## One search -/

theorem Call.isSound {call : Call} (hstart : 0 ≤ call.before.position)
    (hend : call.before.position ≤ call.table.records.length) : call.IsSound := by
  have hanswer := call.table.search_eq_seek call.kind call.pattern hstart
  have hfinds : call.before.Finds (call.table.admits call.kind call.pattern) _ _ _ :=
    Cursor.finds_seek hstart hend
  generalize call.before.seek (call.table.admits call.kind call.pattern) call.table.records = step
    at hanswer hfinds
  have hfound : call.found = step.1 := by
    rw [found, answer, hanswer]
    rfl
  have hafter : call.after = step.2 := by
    rw [after, answer, hanswer]
    rfl
  exact ⟨by rw [hfound, hafter]; exact hanswer, by rwa [hfound, hafter]⟩

theorem Call.IsSound.inRange {call : Call} (h : call.IsSound) :
    0 ≤ call.after.position ∧ call.after.position ≤ call.table.records.length := by
  have hfinds := h.finds
  generalize call.found = found, call.after = after at hfinds
  cases hfinds with
  | found hget =>
    have := (List.getElem?_eq_some_iff.mp hget).1
    simp only
    omega
  | exhausted hend =>
    simp only
    omega

namespace Linked

variable {start last : Cursor} {calls : List Call}

/-- What a search finds lies behind its start, and each record behind the one before. -/
theorem increasing (hlinked : Linked start calls last) (hsound : ∀ call ∈ calls, call.IsSound) :
    (∀ row ∈ calls.filterMap Call.found, start.position ≤ row.2) ∧
      (calls.filterMap Call.found).Pairwise fun a b => a.2 < b.2 := by
  induction calls generalizing start with
  | nil => simp
  | cons call calls ih =>
    obtain ⟨rfl, hrest⟩ := hlinked
    obtain ⟨hbehind, hpairwise⟩ := ih hrest fun other hmem =>
      hsound other (List.mem_cons_of_mem call hmem)
    have hfinds := (hsound call List.mem_cons_self).finds
    rw [List.filterMap_cons]
    generalize call.found = found, call.after = after at hfinds hbehind
    cases hfinds with
    | exhausted hend =>
      -- Whatever is found later was added behind the end that the cursor came to.
      exact ⟨fun row hmem => Int.le_trans hend (hbehind row hmem), hpairwise⟩
    | @found row hget hadmits hbefore =>
      simp only at hbehind
      constructor
      · intro other hmem
        rcases List.mem_cons.mp hmem with rfl | hmem
        · exact hbefore
        · have := hbehind other hmem
          omega
      · refine List.pairwise_cons.mpr ⟨fun other hmem => ?_, hpairwise⟩
        have := hbehind other hmem
        omega

/-- A cursor counts what is found. -/
theorem matchCount_eq (hlinked : Linked start calls last) (hsound : ∀ call ∈ calls, call.IsSound) :
    last.matchCount = start.matchCount + (calls.filterMap Call.found).length := by
  induction calls generalizing start with
  | nil =>
    rw [show last = start from hlinked]
    simp
  | cons call calls ih =>
    obtain ⟨rfl, hrest⟩ := hlinked
    have hcount := ih hrest fun other hmem => hsound other (List.mem_cons_of_mem call hmem)
    have hfinds := (hsound call List.mem_cons_self).finds
    rw [List.filterMap_cons]
    generalize call.found = found, call.after = after at hfinds hcount
    cases hfinds with
    | exhausted => exact hcount
    | found =>
      simp only [List.length_cons] at hcount ⊢
      omega

end Linked

/-! ## One move -/

theorem Move.ids_prefix_apply (move : Move) (table : Registry) :
    table.ids <+: (move.apply table).ids := by
  cases move with
  | call => exact List.prefix_refl _
  | occur event h => exact Registry.ids_prefix_apply h table
  | revise id change => exact Registry.ids_prefix_modify table id change
  | routeIpv6 => exact List.prefix_refl _

namespace Searches

variable {searches : Searches} {move : Move} {call : Call}

theorem call?_eq_some (h : searches.call? move = some call) :
    call.table = searches.table ∧ call.before = searches.cursors call.number ∧
      (searches.step move).table = searches.table := by
  cases move with
  | call =>
    cases h
    exact ⟨rfl, rfl, rfl⟩
  | occur | revise | routeIpv6 => cases h

theorem step_cursors_of_call (h : searches.call? move = some call) :
    (searches.step move).cursors = Function.update searches.cursors call.number call.after := by
  rw [step, h]

theorem step_cursors_of_none (h : searches.call? move = none) :
    (searches.step move).cursors = searches.cursors := by
  rw [step, h]

theorem InRange.isSound (h : searches.InRange) (hcall : searches.call? move = some call) :
    call.IsSound := by
  obtain ⟨htable, hbefore, -⟩ := call?_eq_some hcall
  obtain ⟨hstart, hend⟩ := h call.number
  rw [← hbefore] at hstart hend
  rw [← htable] at hend
  exact Call.isSound hstart hend

theorem InRange.step (h : searches.InRange) (move : Move) : (searches.step move).InRange := by
  intro number
  -- A cursor at the end of the table stays in range because the table does not shrink.
  have hgrows : searches.table.records.length ≤ (searches.step move).table.records.length := by
    have := (move.ids_prefix_apply searches.table).length_le
    rwa [Registry.length_ids, Registry.length_ids] at this
  obtain ⟨hstart, hend⟩ := h number
  cases hcall : searches.call? move with
  | none =>
    rw [step_cursors_of_none hcall]
    exact ⟨hstart, by omega⟩
  | some call =>
    rw [step_cursors_of_call hcall]
    obtain ⟨htable, hbefore, -⟩ := call?_eq_some hcall
    by_cases hnumber : number = call.number
    · subst hnumber
      rw [Function.update_self]
      have := (h.isSound hcall).inRange
      rw [htable] at this
      omega
    · rw [Function.update_of_ne hnumber]
      exact ⟨hstart, by omega⟩

/-! ## All moves -/

variable {moves : List Move}

theorem isSound_of_mem_calls (h : searches.InRange) :
    ∀ call ∈ searches.calls moves, call.IsSound := by
  induction moves generalizing searches with
  | nil => simp [calls]
  | cons move moves ih =>
    intro call hmem
    rcases List.mem_append.mp hmem with hmem | hmem
    · exact h.isSound (Option.mem_toList.mp hmem)
    · exact ih (h.step move) call hmem

theorem ids_prefix_after (searches : Searches) (moves : List Move) :
    searches.table.ids <+: (searches.after moves).table.ids := by
  induction moves generalizing searches with
  | nil => exact List.prefix_refl _
  | cons move moves ih =>
    exact (move.ids_prefix_apply searches.table).trans (ih (searches.step move))

theorem ids_prefix_of_mem_calls :
    ∀ call ∈ searches.calls moves, call.table.ids <+: (searches.after moves).table.ids := by
  induction moves generalizing searches with
  | nil => simp [calls]
  | cons move moves ih =>
    intro call hmem
    rcases List.mem_append.mp hmem with hmem | hmem
    · rw [(call?_eq_some (Option.mem_toList.mp hmem)).1]
      exact ids_prefix_after searches (move :: moves)
    · exact ih call hmem

theorem callsOn_cons (searches : Searches) (number : Nat) (move : Move) (moves : List Move) :
    searches.callsOn number (move :: moves) =
      ((searches.call? move).toList.filter fun call => call.number = number) ++
        (searches.step move).callsOn number moves :=
  List.filter_append ..

/-- Between two steps of a search nothing moves its cursor. -/
theorem linked_callsOn (searches : Searches) (number : Nat) (moves : List Move) :
    Linked (searches.cursors number) (searches.callsOn number moves)
      ((searches.after moves).cursors number) := by
  induction moves generalizing searches with
  | nil => rfl
  | cons move moves ih =>
    have hrest := ih (searches.step move)
    rw [callsOn_cons]
    cases hcall : searches.call? move with
    | none =>
      rw [step_cursors_of_none hcall] at hrest
      exact hrest
    | some call =>
      rw [step_cursors_of_call hcall] at hrest
      by_cases hnumber : call.number = number
      · subst hnumber
        rw [Function.update_self] at hrest
        rw [Option.toList_some, List.filter_cons_of_pos (by simp), List.filter_nil]
        exact ⟨(call?_eq_some hcall).2.1, hrest⟩
      · rw [Function.update_of_ne (Ne.symm hnumber)] at hrest
        rw [Option.toList_some, List.filter_cons_of_neg (by simpa using hnumber), List.filter_nil]
        exact hrest

/-! ## One search among others -/

variable {number : Nat} {a b : Searches}

theorem step_other (searches : Searches) (h : move.concerns number = false) :
    (searches.step move).table = searches.table ∧
      (searches.step move).cursors number = searches.cursors number ∧
      ((searches.call? move).toList.filter fun call => call.number = number) = [] := by
  cases move with
  | call other kind pattern =>
    have hne : other ≠ number := by simpa [Move.concerns] using h
    exact ⟨rfl, Function.update_of_ne hne.symm _ _, List.filter_cons_of_neg (by simpa using hne)⟩
  | occur | revise | routeIpv6 => cases h

/-- A move that is no step of another search does not depend on the cursors of other searches. -/
theorem step_congr (h : move.concerns number) (htable : a.table = b.table)
    (hcursor : a.cursors number = b.cursors number) :
    (a.step move).table = (b.step move).table ∧
      (a.step move).cursors number = (b.step move).cursors number ∧
      ((a.call? move).toList.filter fun call => call.number = number) = (b.call? move).toList := by
  have htable' : (a.step move).table = (b.step move).table :=
    congrArg (fun table => move.apply table) htable
  cases move with
  | call other kind pattern =>
    obtain rfl : other = number := by simpa [Move.concerns] using h
    have hcall : b.call? (.call other kind pattern) =
        some ⟨other, kind, pattern, b.table, b.cursors other⟩ := rfl
    have hsame : a.call? (.call other kind pattern) = b.call? (.call other kind pattern) := by
      simp only [call?, htable, hcursor]
    refine ⟨htable', ?_, ?_⟩
    · rw [step_cursors_of_call (hsame.trans hcall), step_cursors_of_call hcall,
        Function.update_self, Function.update_self]
    · rw [hsame, hcall]
      exact List.filter_cons_of_pos (by simp)
  | occur | revise | routeIpv6 => exact ⟨htable', hcursor, rfl⟩

/-- A search goes the same way whether or not there are others. -/
theorem callsOn_congr (htable : a.table = b.table)
    (hcursor : a.cursors number = b.cursors number) (moves : List Move) :
    a.callsOn number moves = b.calls (moves.filter (Move.concerns number)) ∧
      (a.after moves).cursors number =
        (b.after (moves.filter (Move.concerns number))).cursors number := by
  induction moves generalizing a b with
  | nil => exact ⟨rfl, hcursor⟩
  | cons move moves ih =>
    rw [callsOn_cons]
    cases hconcerns : move.concerns number with
    | true =>
      obtain ⟨htable', hcursor', hcall⟩ := step_congr hconcerns htable hcursor
      rw [List.filter_cons_of_pos hconcerns, calls, hcall, (ih htable' hcursor').1]
      exact ⟨rfl, (ih htable' hcursor').2⟩
    | false =>
      obtain ⟨htable', hcursor', hcall⟩ := step_other a hconcerns
      rw [List.filter_cons_of_neg (by simp [hconcerns]), hcall]
      exact ih (htable'.trans htable) (hcursor'.trans hcursor)

/-! ## All searches of a table -/

theorem inRange_start (table : Registry) : (start table).InRange := fun _ =>
  ⟨Int.le_refl 0, Int.natCast_nonneg _⟩

/-- What was found stays at its position. -/
theorem id_of_mem_foundOn (h : searches.InRange) {row : Row}
    (hrow : row ∈ searches.foundOn number moves) :
    (searches.after moves).table.ids[row.2]? = some row.1.id := by
  obtain ⟨call, hmem, hfound⟩ := List.mem_filterMap.mp hrow
  have hcall := List.mem_of_mem_filter hmem
  have hfinds := (isSound_of_mem_calls h call hcall).finds
  rw [hfound] at hfinds
  have hget : call.table.ids[row.2]? = some row.1.id := Registry.getElem?_ids hfinds.getElem?_eq
  obtain ⟨later, hlater⟩ := ids_prefix_of_mem_calls call hcall
  rw [← hlater, List.getElem?_append_left (List.getElem?_eq_some_iff.mp hget).1]
  exact hget

/-- While a table grows and is written to, each step of each search finds the first record from its
cursor on that it may return then, and leaves the cursor behind it, or at the end of the table if
there is none. What one search finds lies at ever greater positions, where it stays; the cursor
counts it; and no other search makes a difference. -/
theorem none_missed_or_repeated (table : Registry) (moves : List Move) :
    (∀ call ∈ (start table).calls moves, call.IsSound) ∧
      ∀ number,
        Linked {} ((start table).callsOn number moves) (((start table).after moves).cursors number) ∧
        ((start table).foundOn number moves).Pairwise (fun a b => a.2 < b.2) ∧
        (∀ row ∈ (start table).foundOn number moves,
          ((start table).after moves).table.ids[row.2]? = some row.1.id) ∧
        (((start table).after moves).cursors number).matchCount =
          ((start table).foundOn number moves).length ∧
        (start table).callsOn number moves =
          (start table).calls (moves.filter (Move.concerns number)) ∧
        ((start table).after moves).cursors number =
          ((start table).after (moves.filter (Move.concerns number))).cursors number := by
  have hsound : ∀ call ∈ (start table).calls moves, call.IsSound :=
    isSound_of_mem_calls (inRange_start table)
  refine ⟨hsound, fun number => ?_⟩
  have hlinked := linked_callsOn (start table) number moves
  have hown : ∀ call ∈ (start table).callsOn number moves, call.IsSound := fun call hmem =>
    hsound call (List.mem_of_mem_filter hmem)
  refine ⟨hlinked, (hlinked.increasing hown).2,
    fun row hrow => id_of_mem_foundOn (inRange_start table) hrow, ?_,
    callsOn_congr rfl rfl moves⟩
  rw [hlinked.matchCount_eq hown]
  exact Int.zero_add _

/-- A search goes on where it once found nothing more. -/
example :
    ((start (Registry.after {} [.append { name := "eth0", ifindex := 2 }])).foundOn 0
        [.call 0 .name (.startingWith "eth"), .call 1 .name (.startingWith "eth"),
          .call 0 .name (.startingWith "eth"), .occur (.append { name := "lo", ifindex := 1 }) rfl,
          .occur (.append { name := "eth1", ifindex := 3 }) rfl,
          .call 0 .name (.startingWith "eth")]).map (fun row => (row.1.name, row.2)) =
      [("eth0", 0), ("eth1", 2)] := by
  decide

end Searches

end IfaceTable
