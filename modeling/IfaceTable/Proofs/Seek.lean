import IfaceTable.Proofs.Resolution
import IfaceTable.Proofs.Walk

/-!
# One step of a search

Each search asks for the next record that it may return, and passes over the others. Which these
are differs from search to search; how the step goes does not.

* `Cursor.Finds`: what a step has to find, and where it has to leave the cursor.
* `Cursor.seek`: a step to the next admitted record. `finds_seek`: it is such a step, as long as the
  cursor is not off the table.
* `next_eq_seek`, `nextRegistered_eq_seek`: the steps by name, and by name and number, are seeks.
* `Registry.search_eq_seek`: so is a step of a search of any kind.
-/

namespace IfaceTable

namespace Cursor

/-- A step of a search in a table of which it may return the admitted records: it finds the first
one that is not in front of the cursor, goes behind it and counts it; if there is none it goes to
the end of the table. -/
inductive Finds (admits : Record → Bool) (records : List Record) (before : Cursor) :
    Option Row → Cursor → Prop
  | found {row : Row} (hget : records[row.2]? = some row.1) (hadmits : admits row.1)
      (hbefore : before.position ≤ row.2)
      (hskipped : ∀ (i : Nat) (other : Record), records[i]? = some other → before.position ≤ i →
        i < row.2 → admits other = false) :
      Finds admits records before (some row) ⟨row.2 + 1, before.matchCount + 1⟩
  | exhausted (hend : before.position ≤ records.length)
      (hnone : ∀ (i : Nat) (other : Record), records[i]? = some other → before.position ≤ i →
        admits other = false) :
      Finds admits records before none ⟨records.length, before.matchCount⟩

/-- The next admitted record, and the cursor behind it. -/
def seek (admits : Record → Bool) (records : List Record) (cursor : Cursor) :
    Option Row × Cursor :=
  match (records.zipIdx.drop cursor.position.toNat).find? fun row => admits row.1 with
  | some row => (some row, ⟨row.2 + 1, cursor.matchCount + 1⟩)
  | none => (none, { cursor with position := max cursor.position records.length })

variable {admits : Record → Bool} {records : List Record} {cursor : Cursor}

theorem Finds.getElem?_eq {row : Row} {after : Cursor}
    (h : cursor.Finds admits records (some row) after) : records[row.2]? = some row.1 := by
  cases h with
  | found hget => exact hget

theorem finds_seek (hstart : 0 ≤ cursor.position) (hend : cursor.position ≤ records.length) :
    cursor.Finds admits records (cursor.seek admits records).1 (cursor.seek admits records).2 := by
  unfold seek
  split
  · next row hfind =>
    obtain ⟨hget, hadmits, hle, hskipped⟩ := (find?_drop_eq_some_iff admits).mp hfind
    exact .found hget hadmits (by omega) fun i other hother hle hlt =>
      hskipped i other hother (by omega) hlt
  · next hfind =>
    rw [List.find?_eq_none] at hfind
    rw [Int.max_eq_right hend]
    refine .exhausted hend fun i other hget hle => ?_
    have hmem : (other, i) ∈ records.zipIdx.drop cursor.position.toNat := by
      refine List.mem_iff_getElem?.mpr ⟨i - cursor.position.toNat, ?_⟩
      rw [List.getElem?_drop, Nat.add_sub_cancel' (by omega), List.getElem?_zipIdx, hget]
      simp
    simpa using hfind (other, i) hmem

/-- Also a cursor off the table leads to no other row than one of the table. -/
theorem getElem?_of_seek {row : Row} (h : (cursor.seek admits records).1 = some row) :
    records[row.2]? = some row.1 := by
  unfold seek at h
  split at h
  · next hfind =>
    cases h
    exact List.mem_zipIdx_iff_getElem?.mp (List.mem_of_mem_drop (List.mem_of_find?_eq_some hfind))
  · cases h

theorem next_of_neg (pattern : Pattern) (h : cursor.position < 0) :
    cursor.next pattern records = .error (.noRecord cursor.position) := if_pos h

theorem nextRegistered_of_neg (number : Record → Int) (pattern : Pattern)
    (h : cursor.position < 0) :
    cursor.nextRegistered number pattern records = .error (.noRecord cursor.position) := by
  unfold nextRegistered
  split <;> simp_all [next_of_neg pattern h]

theorem next_eq_seek (pattern : Pattern) (h : 0 ≤ cursor.position) :
    cursor.next pattern records =
      .ok (cursor.seek (fun record => pattern.selects record.name) records) := by
  unfold seek
  rw [next_eq, if_neg (by omega), ← scan_eq]
  cases scan pattern records cursor.position.toNat <;> rfl

/-! ## Seeking some of the selected records -/

section Selected

variable {pattern : Pattern} {row : Row} {after : Cursor}

/-- Where no record is selected, none is admitted. -/
theorem seek_of_next_none (hnext : cursor.next pattern records = .ok (none, after))
    (hselects : ∀ record, admits record → pattern.selects record.name) :
    cursor.seek admits records = (none, after) := by
  have hscan := scan_of_next_none hnext
  obtain ⟨-, rfl⟩ := next_none hnext
  rw [scan_eq, List.find?_eq_none] at hscan
  have hnone : (records.zipIdx.drop cursor.position.toNat).find? (fun row => admits row.1) = none :=
    List.find?_eq_none.mpr fun other hmem hadmits => hscan other hmem (hselects other.1 hadmits)
  rw [seek, hnone]

/-- No record in front of the first selected one is admitted. -/
theorem find?_of_next_some (hnext : cursor.next pattern records = .ok (some row, after))
    (hselects : ∀ record, admits record → pattern.selects record.name) :
    (records.zipIdx.drop cursor.position.toNat).find? (fun row => admits row.1) =
      (row :: records.zipIdx.drop (row.2 + 1)).find? fun row => admits row.1 := by
  obtain ⟨skipped, hsplit, hskipped⟩ := drop_of_find?_some (scan_of_next_some hnext)
  have hnone : skipped.find? (fun row => admits row.1) = none := by
    rw [List.find?_eq_none]
    intro other hmem hadmits
    have hrefused : pattern.selects other.1.name = false := hskipped other hmem
    rw [hselects other.1 hadmits] at hrefused
    cases hrefused
  rw [hsplit, List.find?_append, hnone, Option.none_or]

/-- If the first selected record is admitted, it is found. -/
theorem seek_of_admitted (hnext : cursor.next pattern records = .ok (some row, after))
    (hselects : ∀ record, admits record → pattern.selects record.name) (hadmits : admits row.1) :
    cursor.seek admits records = (some row, after) := by
  rw [seek, find?_of_next_some hnext hselects, List.find?_cons, hadmits, (next_some hnext).2.2.2]

/-- If it is not, the seek goes on behind it, without having counted it. -/
theorem seek_of_refused (hnext : cursor.next pattern records = .ok (some row, after))
    (hselects : ∀ record, admits record → pattern.selects record.name)
    (hrefused : admits row.1 = false) :
    cursor.seek admits records =
      seek admits records { after with matchCount := after.matchCount - 1 } := by
  rw [seek, find?_of_next_some hnext hselects, List.find?_cons, hrefused, seek]
  obtain ⟨-, hle, hlt, rfl⟩ := next_some hnext
  have hposition : ((row.2 : Int) + 1).toNat = row.2 + 1 := by omega
  have hcount : cursor.matchCount + 1 - 1 = cursor.matchCount := by omega
  have hmax : max ((row.2 : Int) + 1) records.length = max cursor.position records.length := by
    omega
  simp only [hposition, hcount, hmax]

end Selected

/-- The step by name and number is a seek for the selected records with a number. -/
theorem nextRegistered_eq_seek (number : Record → Int) (pattern : Pattern)
    (h : 0 ≤ cursor.position) :
    cursor.nextRegistered number pattern records =
      .ok (Prod.map (Option.map fun row => (number row.1, row)) id <|
        cursor.seek (fun record => pattern.selects record.name && 0 ≤ number record) records) := by
  have hselects : ∀ record : Record, (pattern.selects record.name && 0 ≤ number record) →
      pattern.selects record.name := fun record hadmits => (Bool.and_eq_true_iff.mp hadmits).1
  fun_induction nextRegistered number pattern records cursor with
  | case1 cursor fault hnext =>
    rw [next_eq_seek pattern h] at hnext
    cases hnext
  | case2 cursor after hnext =>
    rw [seek_of_next_none hnext hselects]
    rfl
  | case3 cursor row after hnext hnumber =>
    have hselected := (scan_some (scan_of_next_some hnext)).2.2
    rw [seek_of_admitted hnext hselects (by simp [hselected, hnumber])]
    rfl
  | case4 cursor row after hnext hnumber ih =>
    -- The count that is taken back is that of the record which was just passed over.
    have hafter := (next_some hnext).2.2.2
    rw [ih (by rw [hafter]; simp only; omega),
      seek_of_refused hnext hselects (by simp [hnumber])]

end Cursor

/-! ## Searches of every kind -/

/-- What a search goes by, beside the names. -/
inductive SearchKind where
  | name
  /-- By the records with a VIF. -/
  | vif
  /-- By the records with a MIF. -/
  | mif
  deriving DecidableEq, Repr

namespace Registry

/-- A search of the given kind may return the record. -/
def admits (registry : Registry) (kind : SearchKind) (pattern : Pattern) (record : Record) : Bool :=
  pattern.selects record.name &&
    match kind with
    | .name => true
    | .vif => 0 ≤ vifOf (some record)
    | .mif => 0 ≤ registry.mifOf (some record)

/-- The record to which one step of a search leads, and the cursor behind it. -/
def search (registry : Registry) (kind : SearchKind) (pattern : Pattern) (cursor : Cursor) :
    Except Fault (Option Row × Cursor) :=
  match kind with
  | .name => (registry.matchNext (some pattern) cursor).map fun (row, after, _) => (row, after)
  | .vif => (registry.matchNextVif (some pattern) cursor).map fun (found, after, _) =>
      (found.map Prod.snd, after)
  | .mif => (registry.matchNextMif (some pattern) cursor).map fun (found, after, _) =>
      (found.map Prod.snd, after)

theorem matchNext_eq_seek (registry : Registry) (pattern : Pattern) {cursor : Cursor}
    (h : 0 ≤ cursor.position) :
    ∃ notices, registry.matchNext (some pattern) cursor =
      .ok ((cursor.seek (fun record => pattern.selects record.name) registry.records).1,
        (cursor.seek (fun record => pattern.selects record.name) registry.records).2, notices) := by
  simp [matchNext, Cursor.next_eq_seek pattern h, Except.map]

theorem matchNextRegistered_eq_seek (registry : Registry) (number : Record → Int)
    (pattern : Pattern) {cursor : Cursor} (h : 0 ≤ cursor.position) :
    ∃ notices, registry.matchNextRegistered number (some pattern) cursor =
      .ok ((cursor.seek (fun record => pattern.selects record.name && 0 ≤ number record)
          registry.records).1.map (fun row => (number row.1, row)),
        (cursor.seek (fun record => pattern.selects record.name && 0 ≤ number record)
          registry.records).2, notices) := by
  simp [matchNextRegistered, Cursor.nextRegistered_eq_seek number pattern h, Except.map]

/-- A step of a search leads to the next record that the search may return. -/
theorem search_eq_seek (registry : Registry) (kind : SearchKind) (pattern : Pattern)
    {cursor : Cursor} (h : 0 ≤ cursor.position) :
    registry.search kind pattern cursor =
      .ok (cursor.seek (registry.admits kind pattern) registry.records) := by
  have hkept (number : Record → Int) (found : Option Row) :
      (found.map fun row => (number row.1, row)).map Prod.snd = found := by
    cases found <;> rfl
  cases kind with
  | name =>
    have hadmits : registry.admits .name pattern = fun record => pattern.selects record.name :=
      funext fun _ => Bool.and_true _
    obtain ⟨notices, hnext⟩ := registry.matchNext_eq_seek pattern h
    simp only [search, hnext, Except.map, hadmits]
  | vif =>
    obtain ⟨notices, hnext⟩ :=
      registry.matchNextRegistered_eq_seek (fun record => vifOf (some record)) pattern h
    simp only [search, matchNextVif, hnext, Except.map, hkept fun record => vifOf (some record)]
    rfl
  | mif =>
    obtain ⟨notices, hnext⟩ :=
      registry.matchNextRegistered_eq_seek (fun record => registry.mifOf (some record)) pattern h
    simp only [search, matchNextMif, hnext, Except.map,
      hkept fun record => registry.mifOf (some record)]
    rfl

/-- A search with a cursor in front of the table is at fault. -/
theorem search_of_neg (registry : Registry) (kind : SearchKind) (pattern : Pattern)
    {cursor : Cursor} (h : cursor.position < 0) :
    registry.search kind pattern cursor = .error (.noRecord cursor.position) := by
  cases kind <;> simp [search, matchNext, matchNextVif, matchNextMif, matchNextRegistered,
    Cursor.next_of_neg pattern h, Cursor.nextRegistered_of_neg _ pattern h, Except.map]

theorem getElem?_of_search {registry : Registry} {kind : SearchKind} {pattern : Pattern}
    {cursor after : Cursor} {row : Row}
    (h : registry.search kind pattern cursor = .ok (some row, after)) :
    registry.records[row.2]? = some row.1 := by
  by_cases hstart : 0 ≤ cursor.position
  · rw [search_eq_seek registry kind pattern hstart, Except.ok.injEq] at h
    exact Cursor.getElem?_of_seek (congrArg Prod.fst h)
  · rw [search_of_neg registry kind pattern (by omega)] at h
    cases h

end Registry

end IfaceTable
