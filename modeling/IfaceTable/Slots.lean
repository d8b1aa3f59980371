/-!
# Slots

A row of slots that holds items in the order they came. The first `count` slots are filled and the
others are vacant. When an item comes and no slot is vacant, the row doubles, unless a limit refuses
that. `empty` starts again with one slot and no limit.

* `Attempt`: work on a row that may be refused halfway. `Attempt.append`: an item comes.
* `attempt_append`: it finds a slot, as in `append?`, or it is refused and the row is as it was.
* `toList`: the items in order. `length_toList`: there are `count` of them.
* `toList_of_append?`: a new item comes last.
* `toList_modify`: the other items stay when one changes.
-/

namespace IfaceTable

/-- A growing row of slots. -/
structure Slots (α : Type) where
  /-- The slots, filled ones first. -/
  cells : List (Option α) := [none]
  /-- How many slots are filled. -/
  count : Nat := 0
  /-- How many slots there may be at most, if that is limited. -/
  growthLimit : Option Int := none
  cells_ne_nil : cells ≠ [] := by simp
  count_le : count ≤ cells.length := by simp
  filled : ∀ cell ∈ cells.take count, cell.isSome := by simp

namespace Slots

variable {α : Type}

/-- One vacant slot and no limit. -/
def empty : Slots α := {}

instance : Inhabited (Slots α) := ⟨empty⟩

/-- How many slots there are. -/
def capacity (s : Slots α) : Nat := s.cells.length

/-- The items, in the order they came. -/
def toList (s : Slots α) : List α := (s.cells.take s.count).filterMap id

/-- The item at a position. -/
def at? (s : Slots α) (position : Int) : Option α :=
  if position < 0 then none else s.toList[position.toNat]?

/-- The same slots under another limit. The limit takes no slot away. -/
def limitGrowth (s : Slots α) (limit : Int) : Slots α := { s with growthLimit := some limit }

/-- No slot is vacant. -/
def IsFull (s : Slots α) : Prop := s.count = s.capacity

instance (s : Slots α) : Decidable s.IsFull := inferInstanceAs (Decidable (_ = _))

/-- The limit lets the row double. -/
def CanGrow (s : Slots α) : Prop := ∀ limit ∈ s.growthLimit, 2 * (s.capacity : Int) ≤ limit

instance (s : Slots α) : Decidable s.CanGrow :=
  match h : s.growthLimit with
  | none => isTrue (by simp [CanGrow, h])
  | some limit =>
    if hl : 2 * (s.capacity : Int) ≤ limit then isTrue (by simp [CanGrow, h, hl])
    else isFalse (by simp [CanGrow, h, hl])

/-- The row with as many vacant slots again as it has slots. -/
def doubled (s : Slots α) : Slots α :=
  { s with
    cells := s.cells ++ List.replicate s.cells.length none
    cells_ne_nil := by simp [s.cells_ne_nil]
    count_le := by have := s.count_le; simp; omega
    filled := by simpa [List.take_append_of_le_length s.count_le] using s.filled }

/-- The row with `a` in its first vacant slot. -/
def place (s : Slots α) (a : α) (h : s.count < s.capacity) : Slots α :=
  { s with
    cells := s.cells.set s.count (some a)
    count := s.count + 1
    cells_ne_nil := by simp [s.cells_ne_nil]
    count_le := by simpa using (show s.count + 1 ≤ s.cells.length from h)
    filled := by
      have hlen : s.count < s.cells.length := h
      intro cell hcell
      rw [List.take_succ_eq_append_getElem (by simpa using hlen)] at hcell
      simp only [List.mem_append, List.take_set_of_le (Nat.le_refl _), List.getElem_set_self,
        List.mem_singleton] at hcell
      rcases hcell with hcell | rfl
      · exact s.filled cell hcell
      · rfl }

theorem count_lt_capacity_doubled (s : Slots α) : s.doubled.count < s.doubled.capacity := by
  have hpos : 0 < s.cells.length := List.length_pos_iff.mpr s.cells_ne_nil
  have := s.count_le
  simp [doubled, capacity]
  omega

/-- The row with `a` in its first vacant slot, if there is one. -/
def put (s : Slots α) (a : α) : Slots α :=
  if h : s.count < s.capacity then s.place a h else s

/-- The row with `a` behind the other items; none if the row is full and may not grow. -/
def append? (s : Slots α) (a : α) : Option (Slots α) :=
  if h : s.count < s.capacity then some (s.place a h)
  else if s.CanGrow then some (s.doubled.place a s.count_lt_capacity_doubled)
  else none

/-- The row with `f` done to the item at a position. -/
def modify (s : Slots α) (pos : Nat) (f : α → α) : Slots α :=
  { s with
    cells := s.cells.modify pos (Option.map f)
    cells_ne_nil := by
      have := s.cells_ne_nil
      rw [← List.length_pos_iff] at this ⊢
      simpa using this
    count_le := by simpa using s.count_le
    filled := by
      intro cell hcell
      obtain ⟨i, hi, rfl⟩ := List.mem_iff_getElem.mp hcell
      have hi' : i < (s.cells.take s.count).length := by simpa using hi
      have := s.filled _ (List.getElem_mem hi')
      simp only [List.getElem_take, List.getElem_modify] at this ⊢
      split <;> simp_all }

/-! ## Work on a row -/

/-- Work on a row that may be refused halfway. Whatever was done by then stays done. -/
abbrev Attempt (α β : Type) := EStateM Unit (Slots α) β

/-- What work on a row comes to, if it is not refused, and the row that it leaves. -/
def attempt {β : Type} (s : Slots α) (work : Attempt α β) : Option β × Slots α :=
  match work.run s with
  | .ok answer t => (some answer, t)
  | .error _ t => (none, t)

namespace Attempt

/-- The row doubles, unless the limit refuses it. -/
def grow : Attempt α Unit := do
  let s ← get
  if s.CanGrow then set s.doubled else throw ()

/-- An item comes. A row without a vacant slot has to grow first. -/
def append (a : α) : Attempt α Unit := do
  if (← get).IsFull then grow
  set ((← get).put a)

end Attempt

/-- An item that is refused leaves the row as it was: nothing is written before the row grows. -/
theorem attempt_append (s : Slots α) (a : α) :
    s.attempt (.append a) =
      match s.append? a with
      | some t => (some (), t)
      | none => (none, s) := by
  have hle : s.count ≤ s.capacity := s.count_le
  by_cases hroom : s.count < s.capacity
  · have hvacant : ¬ s.IsFull := Nat.ne_of_lt hroom
    simp [attempt, Attempt.append, append?, put, hvacant, hroom]
  · have hfull : s.IsFull := Nat.le_antisymm hle (Nat.le_of_not_lt hroom)
    have hdoubled := s.count_lt_capacity_doubled
    by_cases hgrow : s.CanGrow
    · simp [attempt, Attempt.append, Attempt.grow, append?, put, hfull, hroom, hgrow, hdoubled]
    · simp [attempt, Attempt.append, Attempt.grow, append?, hfull, hroom, hgrow]

/-! ## The items -/

private theorem map_some_filterMap_id {cells : List (Option α)} (h : ∀ cell ∈ cells, cell.isSome) :
    (cells.filterMap id).map some = cells := by
  induction cells with
  | nil => rfl
  | cons cell cells ih =>
    obtain ⟨a, rfl⟩ := Option.isSome_iff_exists.mp (h cell (by simp))
    show some a :: (cells.filterMap id).map some = some a :: cells
    rw [ih fun c hc => h c (List.mem_cons_of_mem _ hc)]

/-- The filled slots hold the items. -/
theorem take_cells (s : Slots α) : s.cells.take s.count = s.toList.map some :=
  (map_some_filterMap_id s.filled).symm

@[simp] theorem length_toList (s : Slots α) : s.toList.length = s.count := by
  have := congrArg List.length s.take_cells
  have := s.count_le
  simp_all

/-- A filled slot, read at its position. -/
theorem cells_getElem? (s : Slots α) {i : Nat} (h : i < s.count) :
    s.cells[i]? = some (s.toList[i]?) := by
  have hlt : i < s.toList.length := by simpa using h
  have := congrArg (·[i]?) s.take_cells
  simpa [List.getElem?_take, h, hlt] using this

@[simp] theorem toList_doubled (s : Slots α) : s.doubled.toList = s.toList := by
  simp [toList, doubled, List.take_append_of_le_length s.count_le]

@[simp] theorem toList_place (s : Slots α) (a : α) (h : s.count < s.capacity) :
    (s.place a h).toList = s.toList ++ [a] := by
  have hlen : s.count < s.cells.length := h
  simp only [toList, place]
  rw [List.take_succ_eq_append_getElem (by simpa using hlen)]
  simp [List.take_set_of_le]

theorem toList_of_append? {s t : Slots α} {a : α} (h : s.append? a = some t) :
    t.toList = s.toList ++ [a] := by
  unfold append? at h
  split at h
  · simp [← Option.some.inj h]
  · split at h
    · simp [← Option.some.inj h]
    · simp at h

theorem toList_modify (s : Slots α) (pos : Nat) (f : α → α) :
    (s.modify pos f).toList = s.toList.modify pos f := by
  apply (List.map_inj_right fun _ _ => Option.some.inj).mp
  rw [← take_cells]
  simp only [modify]
  apply List.ext_getElem?
  intro i
  have key := congrArg (·[i]?) s.take_cells
  by_cases hi : i < s.count
  · simp only [List.getElem?_take, hi, ↓reduceIte, List.getElem?_map, List.getElem?_modify] at key ⊢
    rw [key]
    cases s.toList[i]? <;> simp
    split <;> rfl
  · rw [List.getElem?_take_eq_none (Nat.le_of_not_lt hi), List.getElem?_eq_none]
    simpa using hi

end Slots

end IfaceTable
