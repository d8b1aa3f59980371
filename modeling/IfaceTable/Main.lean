import IfaceTable.Command.Addresses
import IfaceTable.Command.Show
import IfaceTable.Command.Walkthrough
import IfaceTable.Kernel.Listing

/-!
# The program

Runs one of the commands over a listing of kernel states. The first word names the command, the
second one the file with the listing, and the others are the command line of the command.
-/

namespace IfaceTable

/-- How the program is called. -/
def usageLine : String := "usage: iface-table show|ifaddrs|walkthrough LISTING [ARGUMENT ...]"

/-- The command of the given name over the first two states of a listing, of which the last one
is repeated. -/
def commandOf? (name : String) (args : List String) (states : List Kernel) : Option Execution :=
  let start := states.headD {}
  let later := states.getD 1 start
  match name with
  | "show" => some (Show.execute args start later)
  | "ifaddrs" => some (Addresses.execute args start)
  | "walkthrough" => some (Walkthrough.execute args start later)
  | _ => none

end IfaceTable

open IfaceTable in
/-- The program. -/
def main (words : List String) : IO UInt32 := do
  let name :: file :: args := words | do
    IO.eprintln usageLine
    return 2
  let lines ← IO.FS.lines file
  match (Kernel.allOfLines? lines.toList).bind (commandOf? name args) with
  | none =>
    IO.eprintln usageLine
    return 2
  | some execution =>
    IO.print execution.screen.out
    IO.eprint (execution.screen.err ++ execution.ending.lastWords)
    return execution.ending.status
