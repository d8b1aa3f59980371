import IfaceTable.Registry.Cursor

/-!
# Registration

Giving VIF numbers to the interfaces that a pattern selects. Numbers go up from the greatest one
in use, in the order of the table. An interface without a usable address has to wait, and one that
has a number keeps it.

* `Registry.nextVif`: the first number to give.
* `Registry.register`: one record. `Registry.registerFrom`: one after the other, along a search that
  goes on in the table as it is by then. `Registry.registerAll`: all that a pattern selects.
-/

namespace IfaceTable

/-- What registration did with one record. -/
inductive Registration where
  | assigned (name : String) (vif : Int) (address : Ipv4)
  /-- The interface has no usable address yet. -/
  | deferred (name : String)
  deriving DecidableEq, Repr

/-- A registration in words. -/
def Registration.message : Registration → String
  | assigned name vif address =>
    "  " ++ name ++ ": VIF " ++ vif.repr ++ " (" ++ address.toText ++ ")\n"
  | deferred name => "  " ++ name ++ ": no address yet, deferred\n"

/-- The registry in the course of registration. -/
structure RegistrationState where
  registry : Registry
  /-- The next number to give. -/
  next : Int
  /-- What was done so far, in order. -/
  log : List Registration := []

namespace Registry

/-- The number after the greatest VIF in use, or 0. -/
def nextVif (registry : Registry) : Int :=
  match (registry.records.map fun record => record.vif).max? with
  | some greatest => greatest + 1
  | none => 0

/-- Registration of the record in one row. -/
def register (state : RegistrationState) (row : Row) : RegistrationState :=
  let (record, position) := row
  if 0 ≤ record.vif then state
  else
    match record.usableAddress? with
    | some address =>
      { registry := state.registry.modifyAt position fun iface => { iface with vif := state.next }
        next := state.next + 1
        log := state.log ++ [.assigned record.name state.next address] }
    | none => { state with log := state.log ++ [.deferred record.name] }

theorem length_records_register (state : RegistrationState) (row : Row) :
    (register state row).registry.records.length = state.registry.records.length := by
  unfold register
  simp only
  split
  · rfl
  · split
    · rw [records_modifyAt, List.length_modify]
    · rfl

/-- Registration of the records from the cursor on whose names the pattern selects. The next one
is looked for in the table as it is by then, with the numbers that were given so far. -/
def registerFrom (pattern : Pattern) (state : RegistrationState) (cursor : Cursor) :
    RegistrationState × Cursor :=
  match _h : cursor.next pattern state.registry.records with
  | .error _ => (state, cursor)
  | .ok (none, after) => (state, after)
  | .ok (some row, after) => registerFrom pattern (register state row) after
termination_by state.registry.records.length - cursor.position.toNat
decreasing_by
  obtain ⟨h0, hle, hlt, rfl⟩ := Cursor.next_some _h
  rw [length_records_register]
  simp only
  omega

/-- Registration of all records whose names the pattern selects. Also the number of these
records, and what the search reported. -/
def registerAll (registry : Registry) (pattern : Option Pattern) :
    RegistrationState × Int × List Notice :=
  let start : RegistrationState := { registry, next := registry.nextVif }
  match pattern with
  | none => (start, 0, [])
  | some pattern =>
    let (state, last) := registerFrom pattern start {}
    (state, last.matchCount, Cursor.notices pattern state.registry.records {} last true)

/-- Registration in words, and the registry behind it. -/
def registerReport (registry : Registry) (pattern : Option String) :
    String × Registry × List Notice :=
  let (state, matched, notices) := registry.registerAll (pattern.bind Pattern.ofText?)
  (String.join (state.log.map Registration.message) ++ "  " ++ matched.repr
    ++ " interface(s) match " ++ pattern.getD "None" ++ "\n", state.registry, notices)

end Registry

end IfaceTable
