import IfaceTable.Command.Screen
import IfaceTable.Kernel.Query

/-!
# The address command

Lists the entries of a query, as JSON or in columns.

* `Addresses.execute`: the command.
-/

namespace IfaceTable.Addresses

open CommandLine

def deviceOpt : Opt where
  short := some 'd'
  long := "device"
  value := some "DEVICE"
  help := "Filter output to show only the specified interface (e.g., eth0, eth0:1)"

def ipv4Opt : Opt where
  long := "ipv4"
  help := "Show only IPv4 entries"

def ipv6Opt : Opt where
  long := "ipv6"
  help := "Show only IPv6 entries"

def jsonOpt : Opt where
  short := some 'j'
  long := "json"
  help := "Output in pure JSON format (default)"

def textOpt : Opt where
  short := some 't'
  long := "text"
  help := "Output in text format"

def synopsis : Synopsis where
  program := "mcifreg-ifaddrs"
  description := "Interface Address Enumeration Tool"
  ownOptions := [deviceOpt, ipv4Opt, ipv6Opt, jsonOpt, textOpt]

/-- What the command line asks for. -/
structure Settings where
  /-- The only interface to list, unless it is empty. -/
  device : Option String := none
  filter : Option Filter := none
  text : Bool := false
  deriving DecidableEq, Repr

/-- The settings of a command line. Only one form of output may be asked for, and of two families
the first one counts. -/
def Settings.of (settings : List Setting) : Except Misuse Settings :=
  if isSet settings jsonOpt.long ∧ isSet settings textOpt.long then
    .error (.exclusive jsonOpt textOpt)
  else .ok {
    device := (valueOf? settings deviceOpt.long).filter (· ≠ "")
    filter :=
      if isSet settings ipv4Opt.long then some .ipv4
      else if isSet settings ipv6Opt.long then some .ipv6
      else none
    text := isSet settings textOpt.long }

/-- The command with its settings. -/
def run (settings : Settings) (kernel : Kernel) : Run Unit := do
  let entries ← MonadExcept.ofExcept (kernel.query settings.filter)
  let chosen := entries.filter fun entry => settings.device.all (entry.name = ·)
  if let some device := settings.device then
    if chosen = [] then Run.complain ("Warning: Device \x27" ++ device ++ "\x27 not found\n")
  if settings.text then Run.print (String.join (chosen.map Entry.line))
  else Run.print ((Json.array (chosen.map (·.render.toJson))).render ++ "\n")

/-- How the command ends after a fault. -/
def recover : Fault → String × Ending
  | .stopped reason => ("", .raised (.stopped reason))
  | .exit status => ("", .raised (.exit status))
  | .system .permission _ _ => ("Error: Permission denied\n", .raised (.exit (.code 1)))
  | fault => ("Error: " ++ fault.message ++ "\n", .raised (.exit (.code 1)))

/-- The command, with the words of its command line and the state in which it finds the kernel. -/
def execute (args : List String) (kernel : Kernel) : Execution :=
  match synopsis.read args with
  | .error stop => stop.execution synopsis
  | .ok settings =>
    match Settings.of settings with
    | .error misuse => (Stop.misuse misuse).execution synopsis
    | .ok settings => (run settings kernel).finish (some 0) recover

end IfaceTable.Addresses
