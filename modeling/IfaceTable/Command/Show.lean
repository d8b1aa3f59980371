import IfaceTable.Command.Screen
import IfaceTable.Kernel.Query
import IfaceTable.Registry.Reconcile
import IfaceTable.Registry.Status

/-!
# The status command

Fills a table from the kernel and prints the status table, or the records that a pattern selects.

* `Show.present`: what it prints of a table.
* `Show.execute`: the command.
-/

namespace IfaceTable.Show

open CommandLine

def matchOpt : Opt where
  short := some 'm'
  long := "match"
  value := some "PATTERN"
  help := "Only show interfaces matching PATTERN, e.g. eth0 or \x27eth+\x27"

def refreshOpt : Opt where
  long := "refresh"
  help := "Run an address refresh after populating and report changes"

def jsonOpt : Opt where
  short := some 'j'
  long := "json"
  help := "Output records in JSON format"

def noIpv6Opt : Opt where
  long := "no-ipv6"
  help := "Report no IPv6 multicast routing support (MIF always -1)"

def debugOpt : Opt where
  long := "debug"
  help := "Log interface matching to stderr"

def synopsis : Synopsis where
  program := "mcifreg-show"
  description := "Show the multicast routing interface table"
  ownOptions := [matchOpt, refreshOpt, jsonOpt, noIpv6Opt, debugOpt]

/-- What the command line asks for. -/
structure Settings where
  pattern : Option String := none
  refresh : Bool := false
  json : Bool := false
  routesIpv6 : Bool := true
  debug : Bool := false
  deriving DecidableEq, Repr

def Settings.of (settings : List Setting) : Settings where
  pattern := valueOf? settings matchOpt.long
  refresh := isSet settings refreshOpt.long
  json := isSet settings jsonOpt.long
  routesIpv6 := !isSet settings noIpv6Opt.long
  debug := isSet settings debugOpt.long

/-- Prints what is asked for of the table. -/
def present (settings : Settings) (registry : Registry) : Run Unit := do
  let pattern := settings.pattern.bind Pattern.ofText?
  let (records, notices) := registry.selection pattern
  Run.log settings.debug notices
  if let some pattern := pattern then
    if records = [] then
      Run.complain ("Warning: No interfaces match \x27" ++ pattern.text ++ "\x27\n")
  if settings.json then
    Run.print ((Json.array (records.map fun record => record.toJson)).render ++ "\n")
  else if pattern.isSome then
    Run.print (String.join (records.map fun record => record.statusLine))
  else
    Run.print (Text.Utf8.decode (registry.sendStatus fun _ => none).sent.flatten)

/-- The command with its settings. The kernel is asked at the start, and once more later if the
addresses are refreshed. -/
def run (settings : Settings) (start later : Kernel) : Run Unit := do
  let registry : Registry := { routesIpv6 := settings.routesIpv6 }
  let (_, registry) ← Run.settle settings.debug (registry.populate start.host)
  Run.log settings.debug [.populated registry.count]
  if settings.refresh then
    let (changed, registry) ← Run.settle settings.debug (registry.refresh later.host)
    Run.complain ("Refresh: " ++ (if changed then "changed" else "no change") ++ "\n")
    present settings registry
  else present settings registry

/-- How the command ends after a fault. -/
def recover : Fault → String × Ending
  | .stopped _ => ("\nInterrupted by user\n", .returned (some 130))
  | .exit status => ("", .raised (.exit status))
  | .system .permission _ _ => ("Error: Permission denied\n", .returned (some 1))
  | fault => ("Error: " ++ fault.message ++ "\n", .returned (some 1))

/-- The command, with the words of its command line and the states in which it finds the
kernel. -/
def execute (args : List String) (start later : Kernel) : Execution :=
  match synopsis.read args with
  | .error stop => stop.execution synopsis
  | .ok settings => (run (.of settings) start later).finish (some 0) recover

end IfaceTable.Show
