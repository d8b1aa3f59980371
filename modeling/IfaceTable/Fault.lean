import IfaceTable.Address.Given

/-!
# Faults

Everything that can go wrong, by its cause. The registry finds some faults itself; others come
from the system, from whoever supplies snapshots, or from whoever takes the status lines, and are
passed on as they are.

* `Fault.message`: a fault in words.
-/

namespace IfaceTable

/-- The kinds of errors that the system reports by number. -/
inductive SystemErrorKind where
  | permission | brokenPipe | notFound | interrupted | wouldBlock | childProcess
  | connectionAborted | connectionRefused | connectionReset | alreadyExists | isDirectory
  | notDirectory | noProcess | timedOut
  /-- Any other. -/
  | general
  deriving DecidableEq, Repr

/-- The kind of the system error with the given number. -/
def SystemErrorKind.ofNumber (errno : Int) : SystemErrorKind :=
  if errno = 1 ∨ errno = 13 then permission
  else if errno = 32 ∨ errno = 108 then brokenPipe
  else if errno = 2 then notFound
  else if errno = 4 then interrupted
  else if errno = 11 ∨ errno = 114 ∨ errno = 115 then wouldBlock
  else if errno = 10 then childProcess
  else if errno = 103 then connectionAborted
  else if errno = 111 then connectionRefused
  else if errno = 104 then connectionReset
  else if errno = 17 then alreadyExists
  else if errno = 21 then isDirectory
  else if errno = 20 then notDirectory
  else if errno = 3 then noProcess
  else if errno = 110 then timedOut
  else general

/-- With what a program ends that stops itself. -/
inductive ExitStatus where
  | code (value : Int)
  | text (value : String)
  /-- Nothing is said. -/
  | silent
  deriving DecidableEq, Repr

/-- The status of a daemon that cannot go on. -/
def ExitStatus.fatal : ExitStatus := .code 255

/-- What went wrong. -/
inductive Fault where
  /-- A snapshot reports something that is no IPv4 address. -/
  | badAddress (cause : AddressError)
  /-- There is no way of reconciling of that name. -/
  | unknownMode (given : String)
  /-- There is no filter of that name. -/
  | unknownFamily (given : String)
  /-- A snapshot entry does not say which interface it is about. -/
  | nameMissing
  /-- A snapshot entry reports a new interface and has nothing for its name. -/
  | nameEmpty
  /-- There is no record at that position. -/
  | noRecord (position : Int)
  /-- There is no slot at the position that a sweep has come to. -/
  | noSlot
  /-- The table is full and may not grow. -/
  | tableFull
  /-- The system refused to enumerate the interfaces. -/
  | enumeration (errno : Int) (reason : String)
  | system (kind : SystemErrorKind) (errno : Int) (reason : String)
  /-- Someone stopped the program. -/
  | stopped (reason : String)
  /-- The program ends itself. -/
  | exit (status : ExitStatus)
  /-- A fault of the other side, known by its label only. -/
  | foreign (label : String) (text : String)
  deriving DecidableEq, Repr

/-- The words for a table that may not grow. -/
def tableFullMessage : String := "Failed allocating space for interfaces"

/-- The words for an error with a number. -/
def numberedMessage (errno : Int) (reason : String) : String :=
  "[Errno " ++ errno.repr ++ "] " ++ reason

def ExitStatus.message : ExitStatus → String
  | .code value => value.repr
  | .text value => value
  | .silent => ""

namespace Fault

def message : Fault → String
  | badAddress cause => cause.message
  | unknownMode given => "Invalid mode: " ++ given ++ ". Use \x27full\x27 or \x27refresh_only\x27"
  | unknownFamily given =>
    "Invalid family: " ++ given ++ ". Use \x27ipv4\x27, \x27ipv6\x27, or None"
  | nameMissing => Text.quoted "name"
  | nameEmpty => "\x27NoneType\x27 object is not subscriptable"
  | noRecord position => position.repr
  | noSlot => "list index out of range"
  | tableFull => tableFullMessage
  | enumeration errno reason | system _ errno reason => numberedMessage errno reason
  | stopped reason => reason
  | exit status => status.message
  | foreign _ text => text

/-- The fault is an error that the system reported by number. -/
def isSystem : Fault → Bool
  | system .. => true
  | _ => false

end Fault

end IfaceTable
