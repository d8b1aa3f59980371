import IfaceTable.CommandLine.Reading
import IfaceTable.Registry.Basic

/-!
# Running a command

A command prints on two streams and ends in one of two ways: it returns, or a fault ends it. What
it printed before a fault stays printed.

* `Run`: a command under way. `Run.run_bind_of_ok`: one part after the other.
* `Execution`: a command that has ended.
-/

namespace IfaceTable

/-- What was printed on the two streams. -/
structure Screen where
  out : String := ""
  err : String := ""
  deriving DecidableEq, Repr

/-- How a command ended. -/
inductive Ending where
  /-- It returned, with a code or without one. -/
  | returned (code : Option Int)
  | raised (fault : Fault)
  deriving DecidableEq, Repr

/-- The exit status that a process reports for the end of a command. -/
def Ending.status : Ending → UInt32
  | returned code => UInt32.ofInt (code.getD 0 % 256)
  | raised (.exit (.code code)) => UInt32.ofInt (code % 256)
  | raised (.exit .silent) => 0
  | raised _ => 1

/-- What is left to be said after the end of a command. -/
def Ending.lastWords : Ending → String
  | returned _ | raised (.exit (.code _)) | raised (.exit .silent) => ""
  | raised fault => fault.message ++ "\n"

/-- A command that has ended. -/
structure Execution where
  ending : Ending
  screen : Screen
  deriving DecidableEq, Repr

/-- A command under way, which a fault may end. -/
abbrev Run := ExceptT Fault (StateM Screen)

namespace Run

def print (text : String) : Run Unit := modify fun s => { s with out := s.out ++ text }

def complain (text : String) : Run Unit := modify fun s => { s with err := s.err ++ text }

/-- A command goes on from the screen that its first part has left. -/
theorem run_bind_of_ok {α β : Type} {run : Run α} {next : α → Run β} {value : α}
    {before after : Screen} (h : run.run.run before = (.ok value, after)) :
    (run >>= next).run.run before = (next value).run.run after := by
  simp only [ExceptT.run_bind, StateT.run_bind]
  rw [h]
  rfl

/-- Prints notices. Failures are always printed; where everything is printed, each line begins
with the part of the program that it comes from. -/
def log (everything : Bool) (notices : List Notice) : Run Unit :=
  if everything then
    complain (String.join (notices.map fun n => n.origin ++ ": " ++ n.message ++ "\n"))
  else complain (String.join ((notices.filter Notice.isError).map fun n => n.message ++ "\n"))

/-- Goes on with the answer of an operation and the registry that it left behind. -/
def settle {α : Type} (everything : Bool) (outcome : Outcome α) : Run (α × Registry) := do
  log everything outcome.notices
  let answer ← liftExcept outcome.answer
  return (answer, outcome.registry)
where
  liftExcept : Except Fault α → Run α
    | .ok answer => return answer
    | .error fault => throw fault

/-- The end of a command that returns `code` unless a fault comes in between. A fault is handed to
`recover`, which prints what it has to and says how the command ends. -/
def finish (run : Run Unit) (code : Option Int) (recover : Fault → String × Ending) : Execution :=
  match (run.run).run {} with
  | (.ok (), screen) => ⟨.returned code, screen⟩
  | (.error fault, screen) =>
    let (text, ending) := recover fault
    ⟨ending, { screen with err := screen.err ++ text }⟩

end Run

namespace CommandLine

/-- The end of a command whose command line makes no settings: the help, or what is wrong. -/
def Stop.execution (synopsis : Synopsis) : Stop → Execution
  | .help => ⟨.raised (.exit (.code 0)), { out := synopsis.help }⟩
  | .misuse cause =>
    ⟨.raised (.exit (.code 2)),
      { err := synopsis.usage ++ synopsis.program ++ ": error: " ++ cause.message ++ "\n" }⟩

end CommandLine

end IfaceTable
