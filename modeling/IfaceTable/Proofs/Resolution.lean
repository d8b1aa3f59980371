import IfaceTable.Registry.Resolve
import Mathlib.Data.List.TakeWhile

/-!
# The row that a name stands for

A name is resolved by what stands before its first colon. The row that is found is in the table
and has that name (`getElem?_of_chooseRow`), and there is one whenever some record has it
(`chooseRow_eq_none_iff`). Where only one record has the name, that one is found, whatever its VIF
is (`chooseRow_of_unique`). Which position is found depends on the names and the VIFs of the
records alone (`chooseRow_position`), so an address that is filled in redirects no name.
-/

namespace IfaceTable

/-! ## Names -/

/-- A name without a colon: that of an interface, and not of an alias. -/
def IsBase (name : String) : Prop := ':' ∉ name.toList

instance (name : String) : Decidable (IsBase name) := inferInstanceAs (Decidable (_ ∉ _))

theorem isBase_baseName (name : String) : IsBase (baseName name) := by
  intro h
  rw [baseName, String.toList_ofList] at h
  simpa using List.mem_takeWhile_imp h

theorem IsBase.ne_colon {name : String} (h : IsBase name) :
    ∀ c ∈ name.toList, decide (c ≠ ':') = true := by
  intro c hc
  rw [decide_eq_true_iff]
  rintro rfl
  exact h hc

theorem IsBase.baseName_eq {name : String} (h : IsBase name) : baseName name = name := by
  rw [baseName, List.takeWhile_eq_self_iff.mpr h.ne_colon, String.ofList_toList]

/-- An alias of a base name resolves like the base name. -/
theorem IsBase.baseName_append {base : String} (h : IsBase base) (label : String) :
    baseName (base ++ ":" ++ label) = base := by
  have hcolon : (":" ++ label).toList = ':' :: label.toList := by simp
  rw [baseName, String.append_assoc, String.toList_append, hcolon,
    List.takeWhile_append_of_pos h.ne_colon, List.takeWhile_cons_of_neg (by simp), List.append_nil,
    String.ofList_toList]

theorem cutName_eq_self {name : String} (h : name.length ≤ nameLimit) : cutName name = name := by
  rw [cutName, List.take_of_length_le (by rwa [String.length_toList]), String.ofList_toList]

/-! ## Rows -/

/-- A search from a position on finds the first admitted record that is not in front of it. -/
theorem find?_drop_eq_some_iff (admits : Record → Bool) {records : List Record} {position : Nat}
    {row : Row} :
    (records.zipIdx.drop position).find? (fun row => admits row.1) = some row ↔
      records[row.2]? = some row.1 ∧ admits row.1 ∧ position ≤ row.2 ∧
        ∀ (i : Nat) (other : Record), records[i]? = some other → position ≤ i → i < row.2 →
          admits other = false := by
  rw [List.find?_eq_some_iff_getElem]
  simp only [List.length_drop, List.length_zipIdx, List.getElem_drop, List.getElem_zipIdx,
    Nat.zero_add, Bool.not_eq_eq_eq_not, Bool.not_true]
  constructor
  · rintro ⟨hadmits, i, hi, rfl, hskipped⟩
    refine ⟨List.getElem?_eq_getElem (by omega), hadmits, by simp, fun j other hget hle hlt => ?_⟩
    have hother := hskipped (j - position) (by simp only at hlt; omega)
    have hj : position + (j - position) = j := by omega
    simpa only [hj, (List.getElem?_eq_some_iff.mp hget).2] using hother
  · rintro ⟨hget, hadmits, hle, hskipped⟩
    obtain ⟨hlt, hget⟩ := List.getElem?_eq_some_iff.mp hget
    have hrow : position + (row.2 - position) = row.2 := by omega
    refine ⟨hadmits, row.2 - position, by omega, ?_, fun j hj => ?_⟩
    · simp only [hrow, hget]
    · exact hskipped _ _ (List.getElem?_eq_getElem (by omega)) (by omega) (by omega)

/-- The rows with a name, in order. -/
def rowsNamed (records : List Record) (base : String) : List Row :=
  records.zipIdx.filter fun row => row.1.name = base

theorem chooseFrom_eq (base : String) (rows : List Row) (candidate : Option Row) :
    chooseFrom base rows candidate =
      (((rows.filter fun row => row.1.name = base).find? fun row => 0 ≤ row.1.vif).or
        (rows.filter fun row => row.1.name = base).getLast?).or candidate := by
  induction rows generalizing candidate with
  | nil => rfl
  | cons row rows ih =>
    rw [chooseFrom]
    split
    · next hname =>
      split
      · next hvif => simp [hname, hvif]
      · next hvif =>
        rw [ih, List.filter_cons_of_pos (by simpa using hname),
          List.find?_cons_of_neg (by simpa using hvif), List.getLast?_cons, Option.or_assoc,
          Option.or_assoc, Option.some_or, Option.or_some]
    · next hname => rw [ih, List.filter_cons_of_neg (by simpa using hname)]

/-- The loop over the rows: the first one with a VIF ends it, and until then the one that came last
is kept. -/
theorem chooseRow_eq (records : List Record) (base : String) :
    chooseRow records base =
      ((rowsNamed records base).find? fun row => 0 ≤ row.1.vif).or
        (rowsNamed records base).getLast? := by
  rw [chooseRow, chooseFrom_eq, Option.or_none]
  rfl

theorem mem_rowsNamed {records : List Record} {base : String} {row : Row} :
    row ∈ rowsNamed records base ↔ records[row.2]? = some row.1 ∧ row.1.name = base := by
  rw [rowsNamed, List.mem_filter, List.mem_zipIdx_iff_getElem?, decide_eq_true_eq]

theorem getElem?_of_chooseRow {records : List Record} {base : String} {row : Row}
    (h : chooseRow records base = some row) :
    records[row.2]? = some row.1 ∧ row.1.name = base := by
  rw [chooseRow_eq, Option.or_eq_some_iff] at h
  rcases h with h | ⟨-, h⟩
  · exact mem_rowsNamed.mp (List.mem_of_find?_eq_some h)
  · exact mem_rowsNamed.mp (List.mem_of_getLast? h)

theorem chooseRow_eq_none_iff {records : List Record} {base : String} :
    chooseRow records base = none ↔ ∀ record ∈ records, record.name ≠ base := by
  constructor
  · intro h record hmem hname
    obtain ⟨i, hi⟩ := List.mem_iff_getElem?.mp hmem
    rw [chooseRow_eq, Option.or_eq_none_iff, List.getLast?_eq_none_iff] at h
    have hrow : (record, i) ∈ rowsNamed records base := mem_rowsNamed.mpr ⟨hi, hname⟩
    rw [h.2] at hrow
    exact absurd hrow List.not_mem_nil
  · intro h
    rw [Option.eq_none_iff_forall_ne_some]
    rintro row hrow
    obtain ⟨hget, hname⟩ := getElem?_of_chooseRow hrow
    exact h row.1 (List.mem_of_getElem? hget) hname

theorem chooseRow_of_unique {records : List Record} {base : String} {i : Nat} {record : Record}
    (hget : records[i]? = some record) (hname : record.name = base)
    (hunique : ∀ j other, records[j]? = some other → other.name = base → j = i) :
    chooseRow records base = some (record, i) := by
  cases h : chooseRow records base with
  | none => exact absurd hname (chooseRow_eq_none_iff.mp h record (List.mem_of_getElem? hget))
  | some row =>
    obtain ⟨hrow, hbase⟩ := getElem?_of_chooseRow h
    obtain rfl := hunique row.2 row.1 hrow hbase
    rw [hget] at hrow
    cases hrow
    rfl

/-- What resolution looks at in a record. -/
def Record.key (record : Record) : String × Int := (record.name, record.vif)

/-- The position that is found among records with the given names and VIFs. -/
def choosePosition (keys : List (String × Int)) (base : String) : Option Nat :=
  let candidates := keys.zipIdx.filter fun entry => entry.1.1 = base
  ((candidates.find? fun entry => 0 ≤ entry.1.2).or candidates.getLast?).map Prod.snd

theorem chooseRow_position (records : List Record) (base : String) :
    (chooseRow records base).map Prod.snd = choosePosition (records.map Record.key) base := by
  have hfilter : ((records.map Record.key).zipIdx.filter fun entry => entry.1.1 = base) =
      (rowsNamed records base).map (Prod.map Record.key id) := by
    rw [List.zipIdx_map, List.filter_map]
    rfl
  simp only [choosePosition, chooseRow_eq, hfilter, List.find?_map, List.getLast?_map,
    Option.map_or, Option.map_map]
  rfl

namespace Registry

theorem mem_rows {registry : Registry} {row : Row} :
    row ∈ registry.rows ↔ registry.records[row.2]? = some row.1 :=
  List.mem_zipIdx_iff_getElem?

theorem findByName?_of_ne_empty {registry : Registry} {name : String} (h : name ≠ "") :
    registry.findByName? (some name) = chooseRow registry.records (baseName name) := by
  unfold findByName?
  split
  · cases ‹_ = none›
  · next heq => exact absurd (Option.some.inj heq) h
  · next heq => rw [Option.some.inj heq]

/-- A name that is found is neither missing nor empty. -/
theorem findByName?_eq_some {registry : Registry} {name : Option String} {row : Row}
    (h : registry.findByName? name = some row) :
    ∃ text, name = some text ∧ text ≠ "" ∧
      chooseRow registry.records (baseName text) = some row := by
  unfold findByName? at h
  split at h
  · cases h
  · cases h
  · next text hne => exact ⟨text, rfl, fun he => hne (by rw [he]), h⟩

/-- The record that a name stands for is in the table. -/
theorem getElem?_of_findByName? {registry : Registry} {name : Option String} {row : Row}
    (h : registry.findByName? name = some row) : registry.records[row.2]? = some row.1 := by
  obtain ⟨_, -, -, hchoose⟩ := findByName?_eq_some h
  exact (getElem?_of_chooseRow hchoose).1

end Registry

end IfaceTable
