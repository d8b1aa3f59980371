import IfaceTable.Command.Screen
import IfaceTable.Kernel.Query
import IfaceTable.Registry.Reconcile
import IfaceTable.Registry.Registration
import IfaceTable.Registry.Status

/-!
# A walk through a daemon's life

What a multicast routing daemon does with its table: fill it at the start, register the interfaces
that a pattern selects, look for new addresses later and try again if there are any, and show the
table.

* `Walkthrough.serve`: registration, and once more if a refresh asks for it.
* `Walkthrough.execute`: the command.
-/

namespace IfaceTable.Walkthrough

/-- Registration for a pattern, printed. -/
def register (registry : Registry) (pattern : String) : Run Registry := do
  let (text, registry, notices) := registry.registerReport (some pattern)
  Run.log false notices
  Run.print text
  return registry

/-- Registration for a pattern, a look for new addresses, and registration again if the table
changed. -/
def serve (registry : Registry) (pattern : String) (later : Host) : Run Registry := do
  Run.print ("\nRegistering VIFs for " ++ pattern ++ ":\n")
  let registry ← register registry pattern
  Run.print "\nPeriodic refresh:\n"
  let (changed, registry) ← Run.settle false (registry.refresh later)
  if changed then register registry pattern
  else do
    Run.print "  no address changes\n"
    return registry

/-- The command for a pattern. The kernel is asked at the start and once more later. -/
def run (pattern : String) (start later : Kernel) : Run Unit := do
  let (_, registry) ← Run.settle false (({} : Registry).populate start.host)
  Run.print ("Found " ++ registry.count.repr ++ " interfaces\n")
  let registry ← serve registry pattern later.host
  Run.print "\nStatus table:\n"
  Run.print (Text.Utf8.decode (registry.sendStatus fun _ => none).sent.flatten)
  if let .ok (some (vif, record, _), _) :=
      registry.matchNextVif (Pattern.ofText? pattern) {} then
    Run.print ("\nFirst registered match: " ++ record.name ++ " (VIF " ++ vif.repr ++ ")\n")

/-- The command, with the words of its command line and the states in which it finds the kernel.
The first word is the pattern; without one every interface is meant. -/
def execute (args : List String) (start later : Kernel) : Execution :=
  (run (args.headD "+") start later).finish none fun fault => ("", .raised fault)

end IfaceTable.Walkthrough
