import IfaceTable.Proofs.Seek
import IfaceTable.Registry.History

/-!
# Searches to the end

A search is carried on until it finds nothing more. By name it goes through the rows behind the
cursor whose names the pattern selects; by number it goes through those of them that have one, and
it ends at the same place.

* `Cursor.Exhausts`: the calls of one search up to the first one that finds nothing.
* `exhausts_iff`: calls that seek come to an end in one way only, with all admitted rows behind the
  cursor.
* `Pattern.Means`: the names that the text of a pattern stands for.
* `walks_agree`: the walks by VIF and by MIF against the walk by name.
-/

namespace IfaceTable

/-! ## Patterns by their texts -/

/-- The text stands for the name: a text that ends with a plus sign stands for all names that start
with what is in front of the sign, and any other one for itself. -/
def Pattern.Means (text name : String) : Prop :=
  if text.toList.getLast? = some '+' then text.toList.dropLast <+: name.toList else name = text

instance (text name : String) : Decidable (Pattern.Means text name) :=
  inferInstanceAs <| Decidable <|
    if text.toList.getLast? = some '+' then text.toList.dropLast <+: name.toList else name = text

/-- Any text but the empty one is that of a pattern, which selects the names that it stands for. -/
theorem Pattern.exists_ofText? {text : String} (h : text ≠ "") :
    ∃ pattern, Pattern.ofText? text = some pattern ∧
      ∀ name, pattern.selects name ↔ Pattern.Means text name := by
  by_cases hlast : text.toList.getLast? = some '+'
  · refine ⟨.startingWith (String.ofList text.toList.dropLast), ?_, fun name => ?_⟩
    · rw [ofText?, if_neg h, if_pos hlast]
    · simp [selects, Means, hlast]
  · refine ⟨.exactly text, ?_, fun name => ?_⟩
    · rw [ofText?, if_neg h, if_neg hlast]
    · simp [selects, Means, hlast]

namespace Cursor

/-! ## One call after the other -/

/-- The calls of a search, each with the cursor that the one before has left, up to the first one
that finds nothing: what they find, and where the last one leaves the cursor. -/
inductive Exhausts {α : Type} (call : Cursor → Except Fault (Option α × Cursor × List Notice)) :
    Cursor → List α → Cursor → Prop
  | last {before after : Cursor} {notices : List Notice}
    (hcall : call before = .ok (none, after, notices)) : Exhausts call before [] after
  | more {before between after : Cursor} {item : α} {items : List α} {notices : List Notice}
    (hcall : call before = .ok (some item, between, notices))
    (hlater : Exhausts call between items after) : Exhausts call before (item :: items) after

/-- The cursor at the end of the table, unless it is further on, and what it counts when some more
were found. -/
def atEnd (cursor : Cursor) (records : List Record) (found : Nat) : Cursor :=
  ⟨max cursor.position records.length, cursor.matchCount + found⟩

/-- The admitted rows of a table that are not in front of a position. -/
def rowsAhead (admits : Record → Bool) (records : List Record) (position : Int) : List Row :=
  records.zipIdx.filter fun row => position ≤ row.2 ∧ admits row.1

variable {α : Type} {call : Cursor → Except Fault (Option α × Cursor × List Notice)}
  {admits : Record → Bool} {records : List Record} {cursor : Cursor}

theorem Exhausts.unique {items others : List α} {after other : Cursor}
    (h : Exhausts call cursor items after) (hother : Exhausts call cursor others other) :
    items = others ∧ after = other := by
  induction h generalizing others with
  | last hcall =>
    cases hother with
    | last hcall' => simp_all
    | more hcall' => simp_all
  | more hcall _ ih =>
    cases hother with
    | last hcall' => simp_all
    | more hcall' hlater' =>
      rw [hcall, Except.ok.injEq, Prod.mk.injEq, Option.some.injEq, Prod.mk.injEq] at hcall'
      obtain ⟨rfl, rfl, -⟩ := hcall'
      obtain ⟨rfl, rfl⟩ := ih hlater'
      exact ⟨rfl, rfl⟩

theorem rowsAhead_eq (admits : Record → Bool) (records : List Record) (position : Int) :
    rowsAhead admits records position =
      (records.zipIdx.drop position.toNat).filter fun row => admits row.1 := by
  rw [filter_drop_zipIdx, rowsAhead]
  simp

/-- A seek leads to the first of the rows that are ahead, and these are then those behind it. -/
theorem seek_of_cons {row : Row} {rows : List Row}
    (hrows : rowsAhead admits records cursor.position = row :: rows) :
    cursor.seek admits records = (some row, ⟨row.2 + 1, cursor.matchCount + 1⟩) ∧
      rowsAhead admits records (row.2 + 1) = rows ∧
      cursor.position ≤ row.2 ∧ row.2 < records.length := by
  have hmem : row ∈ rowsAhead admits records cursor.position := hrows ▸ List.mem_cons_self
  obtain ⟨hle, -⟩ : cursor.position ≤ row.2 ∧ admits row.1 := by
    simpa using (List.mem_filter.mp hmem).2
  rw [rowsAhead_eq] at hrows
  have hfind : (records.zipIdx.drop cursor.position.toNat).find? (fun row => admits row.1) =
      some row := by
    rw [← List.head?_filter, hrows, List.head?_cons]
  have hseek : cursor.seek admits records = (some row, ⟨row.2 + 1, cursor.matchCount + 1⟩) := by
    rw [seek, hfind]
  have hget := getElem?_of_seek (congrArg Prod.fst hseek)
  refine ⟨hseek, ?_, hle, (List.getElem?_eq_some_iff.mp hget).1⟩
  rw [filter_drop_of_find?_some hfind, List.cons.injEq] at hrows
  have hposition : ((row.2 : Int) + 1).toNat = row.2 + 1 := by omega
  rw [← hrows.2, rowsAhead_eq, hposition]

theorem seek_of_nil (hrows : rowsAhead admits records cursor.position = []) :
    cursor.seek admits records = (none, cursor.atEnd records 0) := by
  rw [rowsAhead_eq] at hrows
  have hfind : (records.zipIdx.drop cursor.position.toNat).find? (fun row => admits row.1) =
      none := by
    rw [← List.head?_filter, hrows, List.head?_nil]
  rw [seek, hfind]
  simp [atEnd]

/-- Calls that seek come to an end, and there is only one way in which they do: they find all
admitted rows ahead of the cursor, and leave it at the end of the table. -/
theorem exhausts_iff {g : Row → α}
    (hcall : ∀ cursor : Cursor, 0 ≤ cursor.position → ∃ notices, call cursor =
      .ok ((cursor.seek admits records).1.map g, (cursor.seek admits records).2, notices))
    (h : 0 ≤ cursor.position) (items : List α) (after : Cursor) :
    Exhausts call cursor items after ↔
      items = (rowsAhead admits records cursor.position).map g ∧
        after = cursor.atEnd records items.length := by
  have hrun : ∀ (rows : List Row) (cursor : Cursor), 0 ≤ cursor.position →
      rowsAhead admits records cursor.position = rows →
      Exhausts call cursor (rows.map g) (cursor.atEnd records rows.length) := by
    -- The rows ahead get fewer with each call, so they are what the induction is on.
    intro rows
    induction rows with
    | nil =>
      intro cursor hstart hrows
      obtain ⟨notices, hnone⟩ := hcall cursor hstart
      rw [seek_of_nil hrows] at hnone
      exact .last hnone
    | cons row rows ih =>
      intro cursor hstart hrows
      obtain ⟨notices, hsome⟩ := hcall cursor hstart
      obtain ⟨hseek, hrest, hle, hlt⟩ := seek_of_cons hrows
      rw [hseek] at hsome
      have hlater := ih ⟨row.2 + 1, cursor.matchCount + 1⟩ (by simp only; omega) hrest
      have hend : atEnd ⟨row.2 + 1, cursor.matchCount + 1⟩ records rows.length =
          cursor.atEnd records (row :: rows).length := by
        simp only [atEnd, List.length_cons, mk.injEq]
        omega
      rw [hend] at hlater
      exact .more hsome hlater
  have hend := hrun _ cursor h rfl
  constructor
  · intro hitems
    obtain ⟨rfl, rfl⟩ := hitems.unique hend
    simp
  · rintro ⟨rfl, rfl⟩
    simpa using hend

end Cursor

namespace Registry

open Cursor

/-- The rows from a position on that the text of a pattern stands for. -/
def rowsMeant (registry : Registry) (text : String) (position : Int) : List Row :=
  registry.rows.filter fun row => position ≤ row.2 ∧ Pattern.Means text row.1.name

variable {registry : Registry} {text : String} {pattern : Pattern} {cursor : Cursor}

theorem rowsAhead_eq_rowsMeant (registry : Registry)
    (hmeans : ∀ name, pattern.selects name ↔ Pattern.Means text name) (admits : Record → Bool)
    (position : Int) :
    rowsAhead (fun record => pattern.selects record.name && admits record) registry.records
        position = (registry.rowsMeant text position).filter fun row => admits row.1 := by
  rw [rowsAhead, rowsMeant, List.filter_filter]
  refine List.filter_congr fun row _ => ?_
  simp only [Bool.and_eq_true, hmeans]
  grind

theorem exhausts_matchNext_iff (hmeans : ∀ name, pattern.selects name ↔ Pattern.Means text name)
    (hcursor : 0 ≤ cursor.position) (rows : List Row) (after : Cursor) :
    Exhausts (registry.matchNext (some pattern)) cursor rows after ↔
      rows = registry.rowsMeant text cursor.position ∧
        after = cursor.atEnd registry.records rows.length := by
  have hrows := rowsAhead_eq_rowsMeant registry hmeans (fun _ => true) cursor.position
  simp only [Bool.and_true, List.filter_true] at hrows
  rw [exhausts_iff (g := id) (fun cursor h => by simpa using registry.matchNext_eq_seek pattern h)
    hcursor, hrows, List.map_id]

/-- The walk by number finds the rows of the walk by name that have one, and ends where that one
ends. -/
theorem exhausts_matchNextRegistered_iff
    (hmeans : ∀ name, pattern.selects name ↔ Pattern.Means text name)
    (hcursor : 0 ≤ cursor.position) (number : Record → Int) (found : List (Int × Row))
    (after : Cursor) :
    Exhausts (registry.matchNextRegistered number (some pattern)) cursor found after ↔
      found = ((registry.rowsMeant text cursor.position).filter fun row => 0 ≤ number row.1).map
          (fun row => (number row.1, row)) ∧
        after = cursor.atEnd registry.records found.length := by
  rw [exhausts_iff (fun _ h => registry.matchNextRegistered_eq_seek number pattern h) hcursor,
    rowsAhead_eq_rowsMeant registry hmeans]

/-- A search is at its end after finitely many calls. By name it finds the rows from the cursor on
that the text stands for, in the order of the table and once each; by VIF those of them that have
one, each with its VIF; by MIF likewise, and nothing where IPv6 multicast is not routed. In all
three cases the cursor is left at the end of the table, unless it was further on, and has counted
what was found. -/
theorem walks_agree (registry : Registry) (htext : text ≠ "") (hcursor : 0 ≤ cursor.position) :
    (∀ rows after, Exhausts (registry.matchNext (Pattern.ofText? text)) cursor rows after ↔
        rows = registry.rowsMeant text cursor.position ∧
          after = cursor.atEnd registry.records rows.length) ∧
      (∀ found after, Exhausts (registry.matchNextVif (Pattern.ofText? text)) cursor found after ↔
        found = ((registry.rowsMeant text cursor.position).filter fun row => 0 ≤ row.1.vif).map
            (fun row => (row.1.vif, row)) ∧
          after = cursor.atEnd registry.records found.length) ∧
      (∀ found after, Exhausts (registry.matchNextMif (Pattern.ofText? text)) cursor found after ↔
        found = (if registry.routesIpv6 then
            ((registry.rowsMeant text cursor.position).filter fun row => 0 ≤ row.1.mif).map
              fun row => (row.1.mif, row)
          else []) ∧
          after = cursor.atEnd registry.records found.length) := by
  obtain ⟨pattern, hpattern, hmeans⟩ := Pattern.exists_ofText? htext
  rw [hpattern]
  refine ⟨exhausts_matchNext_iff hmeans hcursor,
    exhausts_matchNextRegistered_iff hmeans hcursor _, fun found after => ?_⟩
  rw [matchNextMif, exhausts_matchNextRegistered_iff hmeans hcursor]
  cases hroutes : registry.routesIpv6 with
  | true => simp [mifOf, hroutes]
  | false => simp [mifOf, hroutes]

/-- Four interfaces, some with a VIF and some with a MIF. -/
def assorted : Registry :=
  after {}
    [.append { name := "eth0", ifindex := 2, vif := 0, mif := 0 },
      .append { name := "lo", ifindex := 1, vif := 2, mif := 2 },
      .append { name := "eth1", ifindex := 3, mif := 1 },
      .append { name := "eth2", ifindex := 4, vif := 1 }]

/-- From behind the first record on, each of the three walks goes to the end of the table. -/
theorem walks_agree_assorted :
    "eth+" ≠ "" ∧ 0 ≤ (⟨1, 5⟩ : Cursor).position ∧
      (∃ rows, Exhausts (assorted.matchNext (Pattern.ofText? "eth+")) ⟨1, 5⟩ rows ⟨4, 7⟩ ∧
        rows.map (fun row => (row.1.name, row.2)) = [("eth1", 2), ("eth2", 3)]) ∧
      (∃ found, Exhausts (assorted.matchNextVif (Pattern.ofText? "eth+")) ⟨1, 5⟩ found ⟨4, 6⟩ ∧
        found.map (fun (vif, row) => (vif, row.2)) = [(1, 3)]) ∧
      ∃ found, Exhausts (assorted.matchNextMif (Pattern.ofText? "eth+")) ⟨1, 5⟩ found ⟨4, 6⟩ ∧
        found.map (fun (mif, row) => (mif, row.2)) = [(1, 2)] := by
  have htext : "eth+" ≠ "" := by decide
  have hcursor : 0 ≤ (⟨1, 5⟩ : Cursor).position := by decide
  obtain ⟨hname, hvif, hmif⟩ := walks_agree assorted htext hcursor
  exact ⟨htext, hcursor, ⟨_, (hname _ _).mpr ⟨rfl, by decide⟩, by decide⟩,
    ⟨_, (hvif _ _).mpr ⟨rfl, by decide⟩, by decide⟩, _, (hmif _ _).mpr ⟨rfl, by decide⟩, by decide⟩

end Registry

end IfaceTable
