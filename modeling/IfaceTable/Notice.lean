/-!
# Notices

What the registry and the commands report to a log while they work.
-/

namespace IfaceTable

/-- Something worth a line in a log. -/
inductive Notice where
  /-- No snapshot could be taken. -/
  | enumerationFailed (reason : String)
  /-- The table could not grow. -/
  | growthFailed (reason : String)
  /-- A status line could not be sent. -/
  | sendFailed (reason : String)
  /-- A refresh found an address for an interface that had none. -/
  | addressesUpdated
  /-- A pattern is held against a name. -/
  | checking (pattern name : String)
  | found (pattern : String)
  | exhausted (pattern : String)
  /-- The table was filled for the first time. -/
  | populated (count : Nat)
  deriving DecidableEq, Repr

namespace Notice

def message : Notice → String
  | enumerationFailed reason => "Failed retrieving interface addresses: " ++ reason
  | growthFailed reason => reason
  | sendFailed reason => "Failed sending reply to client: " ++ reason
  | addressesUpdated => "Interface address(es) updated"
  | checking pattern name => "Check if " ++ pattern ++ " matches " ++ name ++ " ..."
  | found pattern => "Found match for " ++ pattern
  | exhausted pattern => "No matches for " ++ pattern ++ "!"
  | populated count => "Registry populated with " ++ count.repr ++ " interfaces"

/-- The notice tells of a failure, and does not just follow what is done. -/
def isError : Notice → Bool
  | enumerationFailed _ | growthFailed _ | sendFailed _ => true
  | addressesUpdated | checking .. | found _ | exhausted _ | populated _ => false

/-- The part of the program that a notice comes from. -/
def origin : Notice → String
  | populated _ => "mcifreg.ifshow"
  | _ => "mcifreg.registry"

end Notice

end IfaceTable
