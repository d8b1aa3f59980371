import IfaceTable.Proofs.Utf8
import IfaceTable.Registry.History
import IfaceTable.Registry.Status
import Mathlib.Data.List.DropRight

/-!
# Reading the status table

A client gets the status table as bytes. It can read it back: numbers that are wider than their
columns push the next ones to the right but never run into them, and the name is the only part that
can hold a blank, at a place that is fixed since no name is as wide as its column.

* `StatusRow.ofLine?`, `readStatus?`: the rows of a status table that was sent.
* `IsLegible.linesOf_statusBytes`: there is a line for each record, whatever the characters of its
  name.
* `status_readable`: what is read is what the table says of each record.
-/

namespace IfaceTable

open Text

/-- What a line of the status table tells. -/
structure StatusRow where
  name : String
  ifindex : Int
  vif : Int
  mif : Int
  deriving DecidableEq, Repr

/-- What the status table tells of an interface. -/
def Iface.statusRow (iface : Iface) : StatusRow :=
  ⟨iface.name, iface.ifindex, iface.vif, iface.mif⟩

/-- How many characters wide the column of the name is. -/
def nameWidth : Nat := 16

/-- The row of a line: the name is in its column, without the blanks at its end, and the numbers are
the words behind it. -/
def StatusRow.ofLine? (line : List Char) : Option StatusRow :=
  match words (line.drop nameWidth) with
  | [ifindex, vif, mif] => do
    let name := (line.take nameWidth).rdropWhile (· = ' ')
    return ⟨String.ofList name, ← integerValue? ifindex, ← integerValue? vif, ← integerValue? mif⟩
  | _ => none

/-- The lines of a text in bytes, each of which ends with a line feed. -/
def linesOf (bytes : List UInt8) : List (List Char) :=
  (split '\n' (Utf8.decode bytes).toList).dropLast

/-- The rows of a status table. -/
def readStatus? (bytes : List UInt8) : Option (List StatusRow) :=
  (linesOf bytes).mapM StatusRow.ofLine?

/-! ## One line -/

namespace Iface

/-- The name fits, has no line feed in it and no blank at its end. -/
structure IsLegible (iface : Iface) : Prop where
  length_le : iface.name.length ≤ nameLimit
  no_lineFeed : '\n' ∉ iface.name.toList
  no_blank : iface.name.toList.getLast? ≠ some ' '

instance (iface : Iface) : Decidable iface.IsLegible :=
  decidable_of_iff
    (iface.name.length ≤ nameLimit ∧ '\n' ∉ iface.name.toList ∧
      iface.name.toList.getLast? ≠ some ' ')
    ⟨fun ⟨h₁, h₂, h₃⟩ => ⟨h₁, h₂, h₃⟩, fun ⟨h₁, h₂, h₃⟩ => ⟨h₁, h₂, h₃⟩⟩

/-- The name in its column. -/
def nameColumn (iface : Iface) : List Char := padEnd nameWidth iface.name.toList

/-- The numbers in their columns. -/
def numberColumns (iface : Iface) : List Char :=
  ' ' :: ' ' :: padStart 6 (decimal iface.ifindex) ++
    ' ' :: ' ' :: (padStart 3 (decimal iface.vif) ++
      ' ' :: ' ' :: padStart 3 (decimal iface.mif))

theorem statusChars_eq (iface : Iface) :
    iface.statusChars = iface.nameColumn ++ iface.numberColumns ++ ['\n'] := by
  simp [statusChars, nameColumn, numberColumns, nameWidth]

variable {iface : Iface}

theorem IsLegible.length_nameColumn (h : iface.IsLegible) :
    iface.nameColumn.length = nameWidth := by
  have := h.length_le
  rw [← String.length_toList] at this
  simp only [nameLimit] at this
  simp only [nameColumn, nameWidth, padEnd, List.rightpad, List.length_append,
    List.length_replicate]
  omega

theorem IsLegible.rdropWhile_nameColumn (h : iface.IsLegible) :
    iface.nameColumn.rdropWhile (· = ' ') = iface.name.toList := by
  have hblanks : ∀ c ∈ List.replicate (nameWidth - iface.name.toList.length) ' ',
      decide (c = ' ') = true := fun c hc => by simp [List.eq_of_mem_replicate hc]
  rw [nameColumn, padEnd, List.rightpad, List.rdropWhile, List.reverse_append,
    List.reverse_replicate, List.dropWhile_append_of_pos hblanks]
  refine List.rdropWhile_eq_self_iff.mpr fun hne hblank => h.no_blank ?_
  rw [List.getLast?_eq_some_getLast hne, of_decide_eq_true hblank]

/-! ## The numbers -/

theorem blank_not_mem_decimal (n : Int) : ' ' ∉ decimal n :=
  not_mem_decimal (by decide) (by decide) n

theorem words_padStart_append (width : Nat) (n : Int) (rest : List Char) :
    words (padStart width (decimal n) ++ ' ' :: rest) = decimal n :: words rest := by
  rw [padStart, List.leftpad, List.append_assoc, words_blanks_append,
    words_word_append (decimal_ne_nil n) (blank_not_mem_decimal n)]

theorem words_padStart (width : Nat) (n : Int) :
    words (padStart width (decimal n)) = [decimal n] := by
  rw [padStart, List.leftpad, words_blanks_append,
    words_of_word (decimal_ne_nil n) (blank_not_mem_decimal n)]

/-- However wide the numbers are, they are three words. -/
theorem words_numberColumns (iface : Iface) :
    words iface.numberColumns = [decimal iface.ifindex, decimal iface.vif, decimal iface.mif] := by
  simp only [numberColumns, List.cons_append, words_blank_cons, words_padStart_append,
    words_padStart]

theorem lineFeed_not_mem_padStart (width : Nat) (n : Int) : '\n' ∉ padStart width (decimal n) := by
  intro h
  rcases List.mem_append.mp h with h | h
  · exact absurd (List.eq_of_mem_replicate h) (by decide)
  · exact not_mem_decimal (by decide) (by decide) n h

theorem IsLegible.no_lineFeed_line (h : iface.IsLegible) :
    '\n' ∉ iface.nameColumn ++ iface.numberColumns := by
  have hname : '\n' ∉ iface.nameColumn := by
    intro hmem
    rcases List.mem_append.mp hmem with hmem | hmem
    · exact h.no_lineFeed hmem
    · exact absurd (List.eq_of_mem_replicate hmem) (by decide)
  simp [hname, numberColumns, lineFeed_not_mem_padStart]

theorem IsLegible.ofLine? (h : iface.IsLegible) :
    StatusRow.ofLine? (iface.nameColumn ++ iface.numberColumns) = some iface.statusRow := by
  have htake : (iface.nameColumn ++ iface.numberColumns).take nameWidth = iface.nameColumn :=
    List.take_left' h.length_nameColumn
  have hdrop : (iface.nameColumn ++ iface.numberColumns).drop nameWidth = iface.numberColumns :=
    List.drop_left' h.length_nameColumn
  simp only [StatusRow.ofLine?, htake, hdrop, words_numberColumns, h.rdropWhile_nameColumn,
    integerValue?_decimal, String.ofList_toList]
  rfl

end Iface

/-! ## The whole table -/

theorem split_lines {lines : List (List Char)} (h : ∀ line ∈ lines, '\n' ∉ line) :
    split '\n' (lines.flatMap (· ++ ['\n'])) = lines ++ [[]] := by
  induction lines with
  | nil => rfl
  | cons line lines ih =>
    rw [List.flatMap_cons, List.append_assoc, List.singleton_append,
      split_append_cons (h line List.mem_cons_self),
      ih fun other hmem => h other (List.mem_cons_of_mem line hmem)]
    rfl

namespace Registry

variable {registry : Registry}

/-- The next line is sent if it meets nothing. -/
theorem sendFrom_succ {failure : Nat → Option Fault} {position : Nat} {record : Record}
    (hget : registry.records[position]? = some record) {sent : List (List UInt8)}
    (hnone : failure sent.length = none) :
    registry.sendFrom failure ⟨position⟩ sent =
      registry.sendFrom failure ⟨position + 1⟩ (sent ++ [record.sentLine]) := by
  have hnext : Walker.next ⟨position⟩ registry = (some record, ⟨position + 1⟩) :=
    Walker.next_of_lt hget
  conv_lhs => rw [sendFrom]
  split
  · next heq => simp [hnext] at heq
  · next heq =>
    rw [hnext] at heq
    cases heq
    rw [hnone]

/-- Behind the last record everything is sent. -/
theorem sendFrom_end (failure : Nat → Option Fault) (sent : List (List UInt8)) :
    registry.sendFrom failure ⟨registry.count⟩ sent =
      { answer := .ok .complete, registry, sent } := by
  have hnext : Walker.next ⟨registry.count⟩ registry = (none, ⟨registry.count⟩) :=
    Walker.next_of_le (Nat.le_refl _)
  rw [sendFrom]
  split
  · rfl
  · next heq => simp [hnext] at heq

/-- There is one line for each of the first records. -/
theorem length_firstLines {number : Nat} (h : number ≤ registry.count) :
    ((registry.records.take number).map Record.sentLine).length = number := by
  rw [List.length_map, List.length_take_of_le (registry.length_records.symm ▸ h)]

/-- Lines that meet nothing are sent, and then it goes on with the others. -/
theorem sendStatus_of_undisturbed {failure : Nat → Option Fault} {number : Nat}
    (hnumber : number ≤ registry.count) (h : ∀ earlier < number, failure earlier = none) :
    registry.sendStatus failure =
      registry.sendFrom failure ⟨number⟩ ((registry.records.take number).map Record.sentLine) := by
  induction number with
  | zero => rfl
  | succ number ih =>
    have hlt : number < registry.records.length := registry.length_records.symm ▸ hnumber
    have hget := List.getElem?_eq_getElem hlt
    have hlength := length_firstLines (Nat.le_of_succ_le hnumber)
    rw [ih (Nat.le_of_succ_le hnumber) fun earlier hearlier =>
        h earlier (Nat.lt_succ_of_lt hearlier),
      sendFrom_succ hget (by rw [hlength]; exact h number (Nat.lt_succ_self number)),
      List.take_succ_eq_append_getElem hlt, List.map_append]
    rfl

theorem sendStatus_complete {failure : Nat → Option Fault}
    (h : ∀ number < registry.count, failure number = none) :
    registry.sendStatus failure =
      { answer := .ok .complete, registry, sent := registry.records.map Record.sentLine } := by
  rw [sendStatus_of_undisturbed (Nat.le_refl _) h, sendFrom_end,
    List.take_of_length_le registry.length_records.le]

/-- The bytes that a client gets if nothing keeps them from it. -/
def statusBytes (registry : Registry) : List UInt8 :=
  (registry.sendStatus fun _ => none).sent.flatten

/-- What the status table tells of the records. -/
def statusRows (registry : Registry) : List StatusRow :=
  registry.records.map fun record => record.statusRow

/-- Each record can be told from its line. -/
def IsLegible (registry : Registry) : Prop := ∀ record ∈ registry.records, record.toIface.IsLegible

instance (registry : Registry) : Decidable registry.IsLegible :=
  inferInstanceAs (Decidable (∀ _ ∈ _, _))

theorem statusBytes_eq (registry : Registry) :
    registry.statusBytes = (registry.records.map Record.sentLine).flatten := by
  rw [statusBytes, sendStatus_complete fun _ _ => rfl]

theorem decode_statusBytes (registry : Registry) :
    (Utf8.decode registry.statusBytes).toList =
      registry.records.flatMap fun record => record.statusChars := by
  have hbytes : registry.statusBytes =
      (registry.records.flatMap fun record =>
        record.statusChars).flatMap String.utf8EncodeChar := by
    have hline : Record.sentLine = fun record : Record =>
        record.statusChars.flatMap String.utf8EncodeChar := by
      funext record
      rw [Record.sentLine, Utf8.encode, Iface.statusLine, String.toList_ofList]
    rw [statusBytes_eq, hline, List.flatMap_assoc, ← List.flatMap_def]
  rw [hbytes, Utf8.decode, Utf8.decodeChars, Utf8.read_flatMap_utf8EncodeChar]
  simp [Utf8.finish]

theorem IsLegible.linesOf_statusBytes (h : registry.IsLegible) :
    linesOf registry.statusBytes =
      registry.records.map fun record => record.nameColumn ++ record.numberColumns := by
  have hlines : (registry.records.flatMap fun record => record.statusChars) =
      (registry.records.map fun record => record.nameColumn ++ record.numberColumns).flatMap
        (· ++ ['\n']) := by
    simp only [List.flatMap_map, Iface.statusChars_eq]
  rw [linesOf, decode_statusBytes, hlines, split_lines, List.dropLast_concat]
  intro line hline
  obtain ⟨record, hrecord, rfl⟩ := List.mem_map.mp hline
  exact (h record hrecord).no_lineFeed_line

theorem mapM_ofLine? {records : List Record}
    (h : ∀ record ∈ records, record.toIface.IsLegible) :
    (records.map fun record => record.nameColumn ++ record.numberColumns).mapM
      StatusRow.ofLine? = some (records.map fun record => record.statusRow) := by
  induction records with
  | nil => rfl
  | cons record records ih =>
    rw [List.map_cons, List.mapM_cons, (h record List.mem_cons_self).ofLine?,
      ih fun other hmem => h other (List.mem_cons_of_mem record hmem)]
    rfl

theorem IsLegible.readStatus?_statusBytes (h : registry.IsLegible) :
    readStatus? registry.statusBytes = some registry.statusRows := by
  rw [readStatus?, h.linesOf_statusBytes, statusRows]
  exact mapM_ofLine? h

/-- A client that gets the status table of a legible table finds a line for each record in it, and
in the line the name, the kernel index, the VIF and the MIF of the record. So the status tables of
two such tables are the same only if they tell the same of each record. -/
theorem status_readable :
    (∀ registry : Registry, registry.IsLegible →
      (registry.sendStatus fun _ => none).answer = .ok .complete ∧
        (linesOf registry.statusBytes).length = registry.count ∧
        readStatus? registry.statusBytes = some registry.statusRows) ∧
      ∀ a b : Registry, a.IsLegible → b.IsLegible → a.statusBytes = b.statusBytes →
        a.statusRows = b.statusRows := by
  refine ⟨fun registry h => ⟨?_, ?_, h.readStatus?_statusBytes⟩, fun a b ha hb hbytes => ?_⟩
  · rw [sendStatus_complete fun _ _ => rfl]
  · rw [h.linesOf_statusBytes, List.length_map, length_records]
  · have hrows := ha.readStatus?_statusBytes
    rw [hbytes, hb.readStatus?_statusBytes] at hrows
    exact (Option.some.inj hrows).symm

/-- Names with a blank inside, with a character of two bytes at the limit, and without a character;
numbers that are wider than their columns. -/
def wideTable : Registry :=
  after {} [.append (.create "up link" 2), .append (.create "büro-anbindung-nord" 12345678),
    .append (.create "" (-1)), .assign 1 { vif := some (-100000), mif := some 4096 }]

theorem status_readable_wide :
    wideTable.IsLegible ∧ (linesOf wideTable.statusBytes).length = 3 ∧
      readStatus? wideTable.statusBytes =
        some [⟨"up link", 2, -1, -1⟩, ⟨"büro-anbindung-", 12345678, -100000, 4096⟩,
          ⟨"", -1, -1, -1⟩] ∧
      (wideTable.modify 0 fun iface => { iface with flags := 1 }).statusRows =
        wideTable.statusRows := by
  have hlegible : wideTable.IsLegible := by decide
  have hlegible' : (wideTable.modify 0 fun iface => { iface with flags := 1 }).IsLegible := by
    decide
  obtain ⟨hread, hsame⟩ := status_readable
  obtain ⟨-, hlines, hrows⟩ := hread wideTable hlegible
  refine ⟨hlegible, hlines.trans (by decide), hrows.trans (by decide),
    hsame _ _ hlegible' hlegible ?_⟩
  rw [statusBytes_eq, statusBytes_eq]
  decide

end Registry

end IfaceTable
