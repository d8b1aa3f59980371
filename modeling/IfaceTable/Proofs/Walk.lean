import IfaceTable.Registry.Cursor
import Mathlib.Data.List.Sigma

/-!
# What a walk finds

A walk asks for the next record again and again until there is none. What it finds is a part of the
table, and can be said without a cursor.

* `Cursor.rowsFrom`: the rows from a position on whose names a pattern selects.
* `Cursor.walk_eq`: a walk finds these rows, in order and once each, and ends at the end of the
  table.
* `Registry.matchAll_fst`: a search through the whole table finds the `Registry.selectedRows`.
-/

namespace IfaceTable

namespace Cursor

/-- The rows from `position` on whose names the pattern selects. -/
def rowsFrom (pattern : Pattern) (records : List Record) (position : Nat) : List Row :=
  (records.zipIdx.drop position).filter fun row => pattern.selects row.1.name

theorem scan_eq (pattern : Pattern) (records : List Record) (position : Nat) :
    scan pattern records position =
      (records.zipIdx.drop position).find? fun row => pattern.selects row.1.name := rfl

/-! ## Rows from a position on -/

section Rows

variable {records : List Record} {position : Nat} {row : Row} {admits : Row → Bool}

/-- The rows from a position on are those that a search passes over, the one that it finds, and
those behind it. -/
theorem drop_of_find?_some (h : (records.zipIdx.drop position).find? admits = some row) :
    ∃ skipped, records.zipIdx.drop position = skipped ++ row :: records.zipIdx.drop (row.2 + 1) ∧
      ∀ other ∈ skipped, admits other = false := by
  obtain ⟨-, skipped, later, hsplit, hskipped⟩ := List.find?_eq_some_iff_append.mp h
  have hposition : row.2 = position + skipped.length := by
    have hrow : (records.zipIdx.drop position)[skipped.length]? = some row := by simp [hsplit]
    rw [List.getElem?_drop, List.getElem?_zipIdx, Option.map_eq_some_iff] at hrow
    obtain ⟨record, -, rfl⟩ := hrow
    simp
  have hlater : records.zipIdx.drop (row.2 + 1) = later := by
    rw [hposition, Nat.add_assoc, ← List.drop_drop, hsplit, List.drop_append]
    simp
  exact ⟨skipped, by rw [hsplit, hlater], fun other hmem => by simpa using hskipped other hmem⟩

/-- The admitted ones are the one that is found first, and then those behind it. -/
theorem filter_drop_of_find?_some (h : (records.zipIdx.drop position).find? admits = some row) :
    (records.zipIdx.drop position).filter admits =
      row :: (records.zipIdx.drop (row.2 + 1)).filter admits := by
  obtain ⟨skipped, hsplit, hskipped⟩ := drop_of_find?_some h
  have hnone : skipped.filter admits = [] := by simpa using hskipped
  rw [hsplit, List.filter_append, hnone, List.nil_append,
    List.filter_cons_of_pos (List.find?_some h)]

/-- The rows that are left when those in front of the position are gone. -/
theorem filter_drop_zipIdx (records : List Record) (position : Nat) (admits : Row → Bool) :
    (records.zipIdx.drop position).filter admits =
      records.zipIdx.filter fun row => position ≤ row.2 && admits row := by
  have hfront : (records.zipIdx.take position).filter
      (fun row => position ≤ row.2 && admits row) = [] := by
    rw [List.filter_eq_nil_iff]
    intro row hrow
    obtain ⟨i, hi⟩ := List.mem_iff_getElem?.mp hrow
    simp only [List.getElem?_take, List.getElem?_zipIdx] at hi
    split at hi
    · obtain ⟨record, -, rfl⟩ := Option.map_eq_some_iff.mp hi
      simp
      omega
    · cases hi
  have hback : ∀ row ∈ records.zipIdx.drop position,
      (position ≤ row.2 && admits row) = admits row := by
    intro row hrow
    obtain ⟨i, hi⟩ := List.mem_iff_getElem?.mp hrow
    rw [List.getElem?_drop, List.getElem?_zipIdx] at hi
    obtain ⟨record, -, rfl⟩ := Option.map_eq_some_iff.mp hi
    simp
  conv => rhs; rw [← List.take_append_drop position records.zipIdx]
  rw [List.filter_append, hfront, List.nil_append, List.filter_congr hback]

end Rows

theorem rowsFrom_of_scan_some {pattern : Pattern} {records : List Record} {position : Nat}
    {row : Row} (h : scan pattern records position = some row) :
    rowsFrom pattern records position = row :: rowsFrom pattern records (row.2 + 1) :=
  filter_drop_of_find?_some h

theorem rowsFrom_of_scan_none {pattern : Pattern} {records : List Record} {position : Nat}
    (h : scan pattern records position = none) : rowsFrom pattern records position = [] := by
  rw [scan_eq, List.find?_eq_none] at h
  rwa [rowsFrom, List.filter_eq_nil_iff]

theorem scan_of_next_some {pattern : Pattern} {records : List Record} {cursor after : Cursor}
    {row : Row} (h : cursor.next pattern records = .ok (some row, after)) :
    scan pattern records cursor.position.toNat = some row := by
  rw [next_eq] at h
  split at h
  · cases h
  · split at h
    · next hscan =>
      cases h
      exact hscan
    · cases h

theorem scan_of_next_none {pattern : Pattern} {records : List Record} {cursor after : Cursor}
    (h : cursor.next pattern records = .ok (none, after)) :
    scan pattern records cursor.position.toNat = none := by
  rw [next_eq] at h
  split at h
  · cases h
  · split at h
    · cases h
    · next hscan => exact hscan

/-- A walk finds the selected rows from the cursor on, counts them, and ends at the end of the
table, or where it began if that is further on. -/
theorem walk_eq (pattern : Pattern) (records : List Record) {cursor : Cursor}
    (h : 0 ≤ cursor.position) :
    walk pattern records cursor =
      (rowsFrom pattern records cursor.position.toNat,
        ⟨max cursor.position records.length,
          cursor.matchCount + (rowsFrom pattern records cursor.position.toNat).length⟩) := by
  fun_induction walk pattern records cursor with
  | case1 cursor fault hnext =>
    rw [next_eq, if_neg (by omega)] at hnext
    split at hnext <;> cases hnext
  | case2 cursor after hnext =>
    obtain ⟨-, rfl⟩ := next_none hnext
    rw [rowsFrom_of_scan_none (scan_of_next_none hnext)]
    simp
  | case3 cursor row after hnext rows last hrest ih =>
    obtain ⟨-, hle, hlt, rfl⟩ := next_some hnext
    have hposition : ((row.2 : Int) + 1).toNat = row.2 + 1 := by omega
    have hmax : max ((row.2 : Int) + 1) records.length = max cursor.position records.length := by
      omega
    have hwalk := ih (by simp only; omega)
    rw [hrest, Prod.mk.injEq] at hwalk
    simp only [hposition, hmax] at hwalk
    rw [hwalk.1, hwalk.2, rowsFrom_of_scan_some (scan_of_next_some hnext), List.length_cons]
    congr 2
    omega

end Cursor

namespace Registry

/-- The rows of the table whose names a pattern selects. Where there is no pattern there are
none. -/
def selectedRows (registry : Registry) (pattern : Option Pattern) : List Row :=
  registry.rows.filter fun row => pattern.any fun p => p.selects row.1.name

theorem matchAll_fst (registry : Registry) (pattern : Option Pattern) :
    (registry.matchAll pattern).1 = registry.selectedRows pattern := by
  cases pattern with
  | none => exact (List.filter_eq_nil_iff.mpr (by simp)).symm
  | some pattern =>
    have hstart : 0 ≤ ({} : Cursor).position := Int.le_refl 0
    simp only [matchAll, Cursor.walk_eq pattern registry.records hstart]
    rfl

/-- No position is selected twice. -/
theorem pairwise_selectedRows (registry : Registry) (pattern : Option Pattern) :
    (registry.selectedRows pattern).Pairwise fun a b => a.2 ≠ b.2 :=
  (List.pairwise_map.mp (List.nodup_zipIdx_map_snd registry.records)).filter _

end Registry

end IfaceTable
