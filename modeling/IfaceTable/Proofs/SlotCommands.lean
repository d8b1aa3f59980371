import IfaceTable.Proofs.Elementary
import IfaceTable.Proofs.Interruption
import Mathlib.Algebra.Group.Nat.Defs
import Mathlib.Data.List.DropRight
import Mathlib.Order.Bounds.Basic

/-!
# Slots in use

Items come to a row of slots, and from time to time it is emptied. Whenever an item finds no slot
vacant the row has to double, which may succeed or not; if it does not, the item is refused, and no
slot was touched by then.

* `Slots.Command`: what is done to a row. `Slots.replies`: which commands of a sequence were
  carried out.
* `Slots.attempt_append_work`: an item that is refused leaves every slot as it was.
* `Slots.Represents`: what is in the slots, and how many there are. `IsTight.cells_eq`: filled
  slots, then vacant ones. `IsSmallest.of_append?`: no more slots than doubling takes.
* `Slots.represents_after`: after any commands, the items that came since the row was last emptied.
-/

namespace IfaceTable.Slots

variable {α : Type} {s t : Slots α}

/-! ## Commands -/

/-- What is done to a row. -/
inductive Command (α : Type) where
  /-- An item comes. If no slot is vacant for it, `grows` tells whether the row can double now. -/
  | append (item : α) (grows : Bool)
  | clear
  deriving DecidableEq, Repr

/-- The row at a moment at which it can double, or cannot. -/
def lettingGrow (s : Slots α) (grows : Bool) : Slots α :=
  s.limitGrowth (if grows then 2 * s.capacity else s.capacity)

/-- The work that a command takes. -/
def Command.work : Command α → Attempt α Unit
  | .append item grows => do
    set ((← get).lettingGrow grows)
    Attempt.append item
  | .clear => set (empty : Slots α)

/-- The command is refused. -/
def Refuses (s : Slots α) (command : Command α) : Prop := (s.attempt command.work).1 = none

instance (s : Slots α) (command : Command α) : Decidable (s.Refuses command) :=
  inferInstanceAs (Decidable (_ = none))

/-- The row after a command. -/
def next (s : Slots α) (command : Command α) : Slots α := (s.attempt command.work).2

/-- The row after a sequence of commands. -/
def after (s : Slots α) (commands : List (Command α)) : Slots α := commands.foldl next s

/-- A command, and whether it was carried out. -/
structure Reply (α : Type) where
  command : Command α
  done : Bool
  deriving DecidableEq, Repr

/-- The replies to a sequence of commands. -/
def replies (s : Slots α) : List (Command α) → List (Reply α)
  | [] => []
  | command :: commands =>
    ⟨command, !decide (s.Refuses command)⟩ :: (s.next command).replies commands

namespace Reply

/-- The row was emptied. -/
def isClear : Reply α → Bool
  | ⟨.clear, _⟩ => true
  | ⟨.append _ _, _⟩ => false

/-- The item that found a slot. -/
def item? : Reply α → Option α
  | ⟨.append item _, true⟩ => some item
  | _ => none

/-- The items that found a slot since the row was last emptied, in the order they came. -/
def itemsSinceClear (replies : List (Reply α)) : List α :=
  (replies.rtakeWhile fun reply => !reply.isClear).filterMap item?

theorem itemsSinceClear_concat_clear (replies : List (Reply α)) (done : Bool) :
    itemsSinceClear (replies ++ [⟨.clear, done⟩]) = [] := by
  simp [itemsSinceClear, isClear]

theorem itemsSinceClear_concat_append (replies : List (Reply α)) (item : α) (grows done : Bool) :
    itemsSinceClear (replies ++ [⟨.append item grows, done⟩]) =
      itemsSinceClear replies ++ if done then [item] else [] := by
  cases done <;> simp [itemsSinceClear, isClear, item?]

end Reply

/-- There are as many slots as the least power of two that is enough for the items. -/
def IsSmallest (s : Slots α) : Prop :=
  IsLeast {n | (∃ k, n = 2 ^ k) ∧ max 1 s.count ≤ n} s.capacity

/-- The row holds the items in its first slots and nothing behind them, and is no longer than it
has to be. -/
structure Represents (s : Slots α) (items : List α) : Prop where
  count_eq : s.count = items.length
  count_le : s.count ≤ s.capacity
  isSmallest : s.IsSmallest
  cells_eq : s.cells = items.map some ++ List.replicate (s.capacity - s.count) none

/-! ## Vacant slots -/

theorem IsTight.cells_eq (h : s.IsTight) :
    s.cells = s.toList.map some ++ List.replicate (s.capacity - s.count) none := by
  have hvacant : s.cells.drop s.count = List.replicate (s.capacity - s.count) none := by
    refine List.eq_replicate_iff.mpr ⟨List.length_drop, fun cell hcell => ?_⟩
    obtain ⟨i, hi⟩ := List.mem_iff_getElem?.mp hcell
    rw [List.getElem?_drop] at hi
    cases cell with
    | none => rfl
    | some item =>
      have := h _ item hi
      omega
  rw [← take_cells, ← hvacant, List.take_append_drop]

/-! ## How many slots there are -/

theorem isSmallest_empty : (empty : Slots α).IsSmallest :=
  ⟨⟨⟨0, rfl⟩, Nat.le_refl 1⟩, fun _ hn => hn.2⟩

theorem IsSmallest.place (h : s.IsSmallest) (a : α) (hroom : s.count < s.capacity) :
    (s.place a hroom).IsSmallest := by
  have hcount : (s.place a hroom).count = s.count + 1 := rfl
  rw [IsSmallest, capacity_place, hcount]
  refine ⟨⟨h.1.1, by omega⟩, fun n hn => h.2 ⟨hn.1, ?_⟩⟩
  have := hn.2
  omega

/-- A full row has a power of two of items, so with one more the next power is the least. -/
theorem IsSmallest.doubled_place (h : s.IsSmallest) (a : α) (hfull : s.count = s.capacity) :
    (s.doubled.place a s.count_lt_capacity_doubled).IsSmallest := by
  have hcount : (s.doubled.place a s.count_lt_capacity_doubled).count = s.count + 1 := rfl
  obtain ⟨⟨k, hk⟩, hle⟩ := h.1
  rw [IsSmallest, capacity_place, capacity_doubled, hcount, hfull]
  refine ⟨⟨⟨k + 1, by rw [hk, Nat.pow_succ, Nat.mul_comm]⟩, by omega⟩, ?_⟩
  rintro n ⟨⟨j, rfl⟩, hj⟩
  have hlt : 2 ^ k < 2 ^ j := by omega
  have hkj : k + 1 ≤ j := (Nat.pow_lt_pow_iff_right (by decide)).mp hlt
  calc 2 * s.capacity = 2 ^ (k + 1) := by rw [hk, Nat.pow_succ, Nat.mul_comm]
    _ ≤ 2 ^ j := Nat.pow_le_pow_right (by decide) hkj

theorem IsSmallest.of_append? (h : s.IsSmallest) {a : α} (happend : s.append? a = some t) :
    t.IsSmallest := by
  unfold append? at happend
  split at happend
  · cases happend
    exact h.place a _
  · next hroom =>
    have hle : s.count ≤ s.capacity := s.count_le
    split at happend
    · cases happend
      exact h.doubled_place a (by omega)
    · cases happend

/-! ## One command -/

theorem canGrow_lettingGrow {grows : Bool} : (s.lettingGrow grows).CanGrow ↔ grows = true := by
  cases grows with
  | true =>
    refine iff_of_true (fun limit hlimit => ?_) rfl
    cases hlimit
    exact Int.le_refl _
  | false =>
    have hpos : 0 < s.capacity := List.length_pos_iff.mpr s.cells_ne_nil
    refine iff_of_false (fun h => ?_) Bool.false_ne_true
    have hlimit : 2 * (s.capacity : Int) ≤ s.capacity := h _ rfl
    omega

theorem attempt_append_work (s : Slots α) (item : α) (grows : Bool) :
    s.attempt (Command.append item grows).work =
      match (s.lettingGrow grows).append? item with
      | some t => (some (), t)
      | none => (none, s.lettingGrow grows) :=
  attempt_append (s.lettingGrow grows) item

/-- An item is refused exactly if no slot is vacant and the row cannot double. -/
theorem refuses_append_iff {item : α} {grows : Bool} :
    s.Refuses (.append item grows) ↔ s.count = s.capacity ∧ grows = false := by
  have hiff : (s.lettingGrow grows).append? item = none ↔ s.count = s.capacity ∧ grows = false := by
    rw [append?_eq_none_iff, canGrow_lettingGrow, Bool.not_eq_true]
    rfl
  rw [← hiff, Refuses, attempt_append_work]
  cases (s.lettingGrow grows).append? item <;> simp

/-- An item that is refused comes before anything is written. -/
theorem next_of_refuses {item : α} {grows : Bool} (h : s.Refuses (.append item grows)) :
    s.next (.append item grows) = s.lettingGrow grows := by
  rw [Refuses, attempt_append_work] at h
  rw [next, attempt_append_work]
  cases happend : (s.lettingGrow grows).append? item with
  | none => rfl
  | some t => simp [happend] at h

theorem append?_of_not_refuses {item : α} {grows : Bool} (h : ¬ s.Refuses (.append item grows)) :
    (s.lettingGrow grows).append? item = some (s.next (.append item grows)) := by
  rw [Refuses, attempt_append_work] at h
  rw [next, attempt_append_work]
  cases happend : (s.lettingGrow grows).append? item with
  | none => simp [happend] at h
  | some t => rfl

/-! ## A sequence of commands -/

theorem after_concat (s : Slots α) (commands : List (Command α)) (command : Command α) :
    s.after (commands ++ [command]) = (s.after commands).next command := by
  rw [after, List.foldl_append]
  rfl

theorem replies_concat (s : Slots α) (commands : List (Command α)) (command : Command α) :
    s.replies (commands ++ [command]) =
      s.replies commands ++ [⟨command, !decide ((s.after commands).Refuses command)⟩] := by
  induction commands generalizing s with
  | nil => rfl
  | cons first commands ih =>
    rw [List.cons_append, replies, ih]
    rfl

/-- What holds of an empty row, whatever room there is for it, and is kept when an item finds a
slot, holds after any commands. -/
theorem after_induction {P : Slots α → Prop} (hempty : P empty)
    (hgrow : ∀ (s : Slots α) (grows : Bool), P s → P (s.lettingGrow grows))
    (happend : ∀ (s t : Slots α) (item : α), P s → s.append? item = some t → P t)
    (commands : List (Command α)) : P (empty.after commands) := by
  induction commands using List.reverseRecOn with
  | nil => exact hempty
  | append_singleton commands command ih =>
    rw [after_concat]
    cases command with
    | clear => exact hempty
    | append item grows =>
      by_cases h : (empty.after commands).Refuses (.append item grows)
      · rw [next_of_refuses h]
        exact hgrow _ grows ih
      · exact happend _ _ item (hgrow _ grows ih) (append?_of_not_refuses h)

theorem toList_after (commands : List (Command α)) :
    (empty.after commands).toList = Reply.itemsSinceClear (empty.replies commands) := by
  induction commands using List.reverseRecOn with
  | nil => rfl
  | append_singleton commands command ih =>
    rw [after_concat, replies_concat]
    cases command with
    | clear =>
      rw [Reply.itemsSinceClear_concat_clear]
      rfl
    | append item grows =>
      rw [Reply.itemsSinceClear_concat_append, ← ih]
      by_cases h : (empty.after commands).Refuses (.append item grows)
      · rw [next_of_refuses h]
        simp [h, lettingGrow, limitGrowth, toList]
      · rw [toList_of_append? (append?_of_not_refuses h)]
        simp [h, lettingGrow, limitGrowth, toList]

/-- Whatever commands a new row was given, and whenever it could not double, it holds exactly the
items that found a slot since it was last emptied, in order, in as few slots as a power of two
allows. The next item is refused exactly if no slot is vacant and the row cannot double; then every
slot stays as it is. -/
theorem represents_after (commands : List (Command α)) :
    let s : Slots α := empty.after commands
    s.Represents (Reply.itemsSinceClear (empty.replies commands)) ∧
      ∀ (item : α) (grows : Bool),
        (s.Refuses (.append item grows) ↔ s.count = s.capacity ∧ grows = false) ∧
        (s.Refuses (.append item grows) →
          (s.next (.append item grows)).count = s.count ∧
          (s.next (.append item grows)).capacity = s.capacity ∧
          (s.next (.append item grows)).cells = s.cells) := by
  intro s
  have htight : s.IsTight :=
    after_induction (P := IsTight) isTight_empty (fun _ _ h => h)
      (fun _ _ _ h happend => h.of_append? happend) commands
  have hsmallest : s.IsSmallest :=
    after_induction (P := IsSmallest) isSmallest_empty (fun _ _ h => h)
      (fun _ _ _ h happend => h.of_append? happend) commands
  have hitems : s.toList = Reply.itemsSinceClear (empty.replies commands) := toList_after commands
  refine ⟨⟨?_, s.count_le, hsmallest, ?_⟩, fun item grows =>
    ⟨refuses_append_iff, fun hrefused => ?_⟩⟩
  · rw [← hitems, length_toList]
  · rw [← hitems]
    exact htight.cells_eq
  · rw [next_of_refuses hrefused]
    exact ⟨rfl, rfl, rfl⟩

/-- Items before and after the row is emptied, of which the second one is refused. -/
def refusals : List (Command Nat) :=
  [.append 1 true, .append 2 false, .append 3 true, .clear, .append 4 false, .append 5 true]

/-- Two items are left, and with no vacant slot the next one is refused as well. -/
theorem represents_after_refusals :
    (empty.replies refusals).map Reply.done = [true, false, true, true, true, true] ∧
      (empty.after refusals).Represents [4, 5] ∧
      (empty.after refusals).Refuses (.append 6 false) ∧
      ((empty.after refusals).next (.append 6 false)).cells = [some 4, some 5] := by
  obtain ⟨hholds, hrefuses⟩ := represents_after refusals
  obtain ⟨hiff, hkept⟩ := hrefuses 6 false
  have hrefused := hiff.mpr ⟨by decide, rfl⟩
  refine ⟨by decide, hholds, hrefused, ?_⟩
  rw [(hkept hrefused).2.2]
  decide

end IfaceTable.Slots
