import IfaceTable.Pattern
import IfaceTable.Registry.Resolve

/-!
# Cursors

A cursor is a place in the table at which the search for a pattern goes on, and a count of what it
has found. Whoever searches owns the cursor and passes it to each step, so that several searches
may go on at the same time and while the table grows.

* `Cursor.next`: the next record whose name the pattern selects.
* `Cursor.nextRegistered`: the next one of those that has a number. The others are skipped, and
  the cursor takes back having counted them.
* `Cursor.walk`, `Cursor.walkRegistered`: all that follow.
* `Cursor.next_some`, `Cursor.next_none`: where a step leaves the cursor.
-/

namespace IfaceTable

/-- A place in the table, and how many records were found on the way there. -/
structure Cursor where
  position : Int := 0
  matchCount : Int := 0
  deriving DecidableEq, Repr

namespace Cursor

/-- A cursor in words. -/
def summary (cursor : Cursor) : String :=
  "IfaceMatch(position=" ++ cursor.position.repr ++ ", match_count=" ++ cursor.matchCount.repr ++ ")"

/-- Goes past the rows at the cursor to the first one whose name the pattern selects, and counts it,
or past all of them. -/
def pass (pattern : Pattern) : List Row → Cursor → Option Row × Cursor
  | [], cursor => (none, cursor)
  | row :: rows, cursor =>
    let after := { cursor with position := cursor.position + 1 }
    if pattern.selects row.1.name then
      (some row, { after with matchCount := after.matchCount + 1 })
    else pass pattern rows after

/-- The next row whose name the pattern selects, and the cursor behind it. A cursor in front of
the table is at fault. -/
def next (pattern : Pattern) (records : List Record) (cursor : Cursor) :
    Except Fault (Option Row × Cursor) :=
  if cursor.position < 0 then .error (.noRecord cursor.position)
  else .ok (pass pattern (records.zipIdx.drop cursor.position.toNat) cursor)

/-- The first row from `position` on whose name the pattern selects. -/
def scan (pattern : Pattern) (records : List Record) (position : Nat) : Option Row :=
  (records.zipIdx.drop position).find? fun (record, _) => pattern.selects record.name

/-- Row by row the cursor comes behind the first one that is selected, or to the end of the
table. -/
theorem pass_eq (pattern : Pattern) (records : List Record) {cursor : Cursor}
    (h : 0 ≤ cursor.position) :
    pass pattern (records.zipIdx.drop cursor.position.toNat) cursor =
      match scan pattern records cursor.position.toNat with
      | some row => (some row, ⟨row.2 + 1, cursor.matchCount + 1⟩)
      | none => (none, { cursor with position := max cursor.position records.length }) := by
  unfold scan
  generalize hrows : records.zipIdx.drop cursor.position.toNat = rows
  induction rows generalizing cursor with
  | nil =>
    have hend : records.length ≤ cursor.position.toNat := by
      simpa using List.drop_eq_nil_iff.mp hrows
    have hmax : max cursor.position records.length = cursor.position := by omega
    simp only [pass, List.find?_nil, hmax]
  | cons row rows ih =>
    have hlt : cursor.position.toNat < records.zipIdx.length := by
      refine Nat.lt_of_not_le fun hge => ?_
      rw [List.drop_eq_nil_of_le hge] at hrows
      cases hrows
    rw [List.drop_eq_getElem_cons hlt, List.cons.injEq] at hrows
    obtain ⟨hrow, hrest⟩ := hrows
    have hposition : (row.2 : Int) = cursor.position := by
      rw [← hrow, List.getElem_zipIdx]
      simp only
      omega
    cases hselects : pattern.selects row.1.name with
    | true => simp [pass, hselects, hposition]
    | false =>
      have hafter : (cursor.position + 1).toNat = cursor.position.toNat + 1 := by omega
      have hmax : max (cursor.position + 1) records.length = max cursor.position records.length := by
        rw [List.length_zipIdx] at hlt
        omega
      have hgoes := @ih { cursor with position := cursor.position + 1 } (by simp only; omega)
        (by rw [hafter, hrest])
      simp only [hmax] at hgoes
      simp [pass, hselects, hgoes]

theorem next_eq (pattern : Pattern) (records : List Record) (cursor : Cursor) :
    cursor.next pattern records =
      if cursor.position < 0 then .error (.noRecord cursor.position)
      else
        match scan pattern records cursor.position.toNat with
        | some row => .ok (some row, ⟨row.2 + 1, cursor.matchCount + 1⟩)
        | none => .ok (none, { cursor with position := max cursor.position records.length }) := by
  unfold next
  split
  · rfl
  · next hpos =>
    rw [pass_eq pattern records (Int.not_lt.mp hpos)]
    split <;> rfl

theorem scan_some {pattern : Pattern} {records : List Record} {position : Nat} {row : Row}
    (h : scan pattern records position = some row) :
    position ≤ row.2 ∧ records[row.2]? = some row.1 ∧ pattern.selects row.1.name := by
  have hmem := List.mem_of_find?_eq_some h
  obtain ⟨i, hi, rfl⟩ := List.mem_iff_getElem.mp hmem
  have hp := List.find?_some h
  simp only [List.length_drop, List.length_zipIdx] at hi
  refine ⟨by simp, ?_, by simpa using hp⟩
  simp

/-- A step that finds a row leaves the cursor behind it. -/
theorem next_some {pattern : Pattern} {records : List Record} {cursor after : Cursor} {row : Row}
    (h : cursor.next pattern records = .ok (some row, after)) :
    0 ≤ cursor.position ∧ cursor.position ≤ row.2 ∧ row.2 < records.length ∧
      after = ⟨row.2 + 1, cursor.matchCount + 1⟩ := by
  rw [next_eq] at h
  split at h
  · cases h
  · next hpos =>
    split at h
    · next found hscan =>
      cases h
      obtain ⟨hle, hget, -⟩ := scan_some hscan
      have := (List.getElem?_eq_some_iff.mp hget).1
      exact ⟨by omega, by omega, this, rfl⟩
    · cases h

/-- A step that finds nothing leaves the cursor at the end of the table, or where it was if that
is further on. -/
theorem next_none {pattern : Pattern} {records : List Record} {cursor after : Cursor}
    (h : cursor.next pattern records = .ok (none, after)) :
    0 ≤ cursor.position ∧ after = { cursor with position := max cursor.position records.length } := by
  rw [next_eq] at h
  split at h
  · cases h
  · next hpos =>
    split at h
    · cases h
    · cases h
      exact ⟨by omega, rfl⟩

/-- The next row whose name the pattern selects and whose number is not negative, with the number,
and the cursor behind it. -/
def nextRegistered (number : Record → Int) (pattern : Pattern) (records : List Record)
    (cursor : Cursor) : Except Fault (Option (Int × Row) × Cursor) :=
  match _h : cursor.next pattern records with
  | .error fault => .error fault
  | .ok (none, after) => .ok (none, after)
  | .ok (some row, after) =>
    if 0 ≤ number row.1 then .ok (some (number row.1, row), after)
    else nextRegistered number pattern records { after with matchCount := after.matchCount - 1 }
termination_by records.length - cursor.position.toNat
decreasing_by
  obtain ⟨h0, hle, hlt, rfl⟩ := next_some _h
  simp only
  omega

/-- All rows from the cursor on whose names the pattern selects, and the cursor behind them. A
cursor in front of the table finds nothing and stays. -/
def walk (pattern : Pattern) (records : List Record) (cursor : Cursor) : List Row × Cursor :=
  match _h : cursor.next pattern records with
  | .error _ => ([], cursor)
  | .ok (none, after) => ([], after)
  | .ok (some row, after) =>
    let (rows, last) := walk pattern records after
    (row :: rows, last)
termination_by records.length - cursor.position.toNat
decreasing_by
  obtain ⟨h0, hle, hlt, rfl⟩ := next_some _h
  simp only
  omega

/-- A step to a registered row ends behind it. -/
theorem nextRegistered_some {number : Record → Int} {pattern : Pattern} {records : List Record}
    {cursor after : Cursor} {found : Int × Row}
    (h : cursor.nextRegistered number pattern records = .ok (some found, after)) :
    0 ≤ cursor.position ∧ cursor.position ≤ found.2.2 ∧ found.2.2 < records.length ∧
      after.position = found.2.2 + 1 := by
  fun_induction nextRegistered number pattern records cursor with
  | case1 => cases h
  | case2 => cases h
  | case3 cursor row after' hnext hnum =>
    cases h
    obtain ⟨h0, hle, hlt, rfl⟩ := next_some hnext
    exact ⟨h0, hle, hlt, rfl⟩
  | case4 cursor row after' hnext hnum ih =>
    obtain ⟨h0, hle, hlt, rfl⟩ := next_some hnext
    obtain ⟨_, hle', hlt', hpos⟩ := ih h
    simp only at hle'
    exact ⟨h0, by omega, hlt', hpos⟩

/-- All registered rows from the cursor on, with their numbers, and the cursor behind them. -/
def walkRegistered (number : Record → Int) (pattern : Pattern) (records : List Record)
    (cursor : Cursor) : List (Int × Row) × Cursor :=
  match _h : cursor.nextRegistered number pattern records with
  | .error _ => ([], cursor)
  | .ok (none, after) => ([], after)
  | .ok (some found, after) =>
    let (rows, last) := walkRegistered number pattern records after
    (found :: rows, last)
termination_by records.length - cursor.position.toNat
decreasing_by
  obtain ⟨_, hle, hlt, hpos⟩ := nextRegistered_some _h
  rw [hpos]
  omega

/-! ## What a search reports -/

/-- What holding a pattern against one name reports. -/
def checkNotices (pattern : Pattern) (record : Record) : List Notice :=
  .checking pattern.text record.name ::
    if pattern.selects record.name then [.found pattern.text] else []

/-- What a search from `cursor` to `after` reports: each name it came by, and that it found
nothing in the end. -/
def notices (pattern : Pattern) (records : List Record) (cursor after : Cursor) (exhausted : Bool) :
    List Notice :=
  let passed := (records.take after.position.toNat).drop cursor.position.toNat
  passed.flatMap (checkNotices pattern) ++ if exhausted then [.exhausted pattern.text] else []

end Cursor

namespace Registry

/-- The next record whose name the pattern selects, the cursor behind it, and what was reported.
Where there is no pattern nothing is found and the cursor is not looked at. -/
def matchNext (registry : Registry) (pattern : Option Pattern) (cursor : Cursor) :
    Except Fault (Option Row × Cursor × List Notice) :=
  match pattern with
  | none => .ok (none, cursor, [])
  | some pattern =>
    (cursor.next pattern registry.records).map fun (row, after) =>
      (row, after, cursor.notices pattern registry.records after row.isNone)

/-- The next record that has a number and whose name the pattern selects, with the number. -/
def matchNextRegistered (registry : Registry) (number : Record → Int) (pattern : Option Pattern)
    (cursor : Cursor) : Except Fault (Option (Int × Row) × Cursor × List Notice) :=
  match pattern with
  | none => .ok (none, cursor, [])
  | some pattern =>
    (cursor.nextRegistered number pattern registry.records).map fun (found, after) =>
      (found, after, cursor.notices pattern registry.records after found.isNone)

/-- The next record with a VIF. -/
def matchNextVif (registry : Registry) :=
  registry.matchNextRegistered fun record => vifOf (some record)

/-- The next record with a MIF. -/
def matchNextMif (registry : Registry) :=
  registry.matchNextRegistered fun record => registry.mifOf (some record)

/-- All records whose names the pattern selects, the cursor behind them, and what was reported. -/
def matchAll (registry : Registry) (pattern : Option Pattern) : List Row × Cursor × List Notice :=
  match pattern with
  | none => ([], {}, [])
  | some pattern =>
    let (rows, last) := Cursor.walk pattern registry.records {}
    (rows, last, Cursor.notices pattern registry.records {} last true)

/-- All records that have a number and whose names the pattern selects, with their numbers. -/
def matchAllRegistered (registry : Registry) (number : Record → Int) (pattern : Option Pattern) :
    List (Int × Row) × Cursor × List Notice :=
  match pattern with
  | none => ([], {}, [])
  | some pattern =>
    let (rows, last) := Cursor.walkRegistered number pattern registry.records {}
    (rows, last, Cursor.notices pattern registry.records {} last true)

end Registry

end IfaceTable
