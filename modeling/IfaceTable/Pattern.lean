/-!
# Name patterns

A pattern selects interfaces by name. A plus sign at its end stands for any ending, so eth+
selects every name that starts with eth; any other pattern selects the one name that it is. The
empty text is no pattern and selects nothing.

* `Pattern.ofText?`: the pattern that a text writes.
* `Pattern.selects`: the names that a pattern selects.
-/

namespace IfaceTable

/-- A pattern for names of interfaces. -/
inductive Pattern where
  /-- The names that start with `stem`. -/
  | startingWith (stem : String)
  /-- The name itself, which is neither empty nor ends with a plus sign. -/
  | exactly (name : String)
  deriving DecidableEq, Repr

namespace Pattern

/-- The pattern that a text writes; none for the empty text. -/
def ofText? (text : String) : Option Pattern :=
  if text = "" then none
  else if text.toList.getLast? = some '+' then
    some (startingWith (String.ofList text.toList.dropLast))
  else some (exactly text)

def isWildcard : Pattern → Bool
  | startingWith _ => true
  | exactly _ => false

/-- The text of a pattern. -/
def text : Pattern → String
  | startingWith stem => stem ++ "+"
  | exactly name => name

/-- The pattern selects `name`. -/
def selects : Pattern → String → Bool
  | startingWith stem, name => stem.toList.isPrefixOf name.toList
  | exactly wanted, name => name = wanted

end Pattern

end IfaceTable
