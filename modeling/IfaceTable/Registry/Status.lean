import IfaceTable.Registry.Cursor
import IfaceTable.Registry.Traversal
import IfaceTable.Text.Utf8

/-!
# Status

The status table: one line for each record. A client gets it line by line along a walk through the
table; if a line cannot be delivered because of a system error, the rest is not sent.

* `Registry.selection`: the records that a client wants to see.
* `Registry.sendFrom`: sending from a walker on. `Registry.sendStatus`: sending the status table.
-/

namespace IfaceTable

/-- How sending the status table ended. -/
inductive Delivery where
  | complete
  /-- A line could not be delivered. -/
  | broken
  deriving DecidableEq, Repr

/-- The code that a caller gets. -/
def Delivery.code : Delivery → Int
  | complete => 0
  | broken => -1

/-- What sending leaves behind: also the lines that were delivered. -/
structure Dispatch extends Outcome Delivery where
  sent : List (List UInt8)

/-- The line of a record, as it is sent. -/
def Record.sentLine (record : Record) : List UInt8 := Text.Utf8.encode record.statusLine

namespace Registry

/-- The records whose names the pattern selects, or all of them if there is no pattern, and what
was reported. -/
def selection (registry : Registry) (pattern : Option Pattern) : List Record × List Notice :=
  match pattern with
  | none => (registry.records, [])
  | some pattern =>
    let (rows, _, notices) := registry.matchAll (some pattern)
    (rows.map (·.1), notices)

/-- Goes on sending with the records from the walker on, when the lines `sent` are delivered. The
line with number `index` meets `failure index`, if that is something. -/
def sendFrom (registry : Registry) (failure : Nat → Option Fault) (walker : Walker)
    (sent : List (List UInt8)) : Dispatch :=
  match _h : walker.next registry with
  | (none, _) => { answer := .ok .complete, registry, sent }
  | (some record, after) =>
    match failure sent.length with
    | none => registry.sendFrom failure after (sent ++ [record.sentLine])
    | some fault =>
      if fault.isSystem then
        { answer := .ok .broken, registry, notices := [.sendFailed fault.message], sent }
      else { answer := .error fault, registry, sent }
termination_by registry.count - walker.position
decreasing_by
  obtain ⟨hget, rfl⟩ := Walker.next_some _h
  have hlt := (List.getElem?_eq_some_iff.mp hget).1
  rw [length_records] at hlt
  simp only
  omega

/-- Sends the status table. -/
def sendStatus (registry : Registry) (failure : Nat → Option Fault) : Dispatch :=
  registry.sendFrom failure {} []

end Registry

end IfaceTable
