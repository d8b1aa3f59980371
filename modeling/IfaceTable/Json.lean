import IfaceTable.Text.Hex

/-!
# JSON

JSON values and their text: every member and element on a line of its own, two blanks deeper than
what it is in, and only ASCII characters. An empty list is a pair of brackets.

* `Json.quote`: a text between double quotes.
* `Json.render`: the text of a value.
-/

namespace IfaceTable

open Text

/-- A JSON value. -/
inductive Json where
  | null
  | bool (value : Bool)
  | number (value : Int)
  | string (value : String)
  | array (elements : List Json)
  /-- Members in the order they are written. -/
  | object (members : List (String × Json))

namespace Json

/-- One unit of sixteen bits, as an escape. -/
def unitEscape (unit : Nat) : List Char := '\\' :: 'u' :: hex 4 unit

/-- One character between double quotes. A character outside the visible ASCII ones is written by
its UTF-16 units, unless it has a short form. -/
def escapeChar (c : Char) : List Char :=
  if c = '\x22' ∨ c = '\\' then ['\\', c]
  else if c = '\n' then ['\\', 'n']
  else if c = '\r' then ['\\', 'r']
  else if c = '\t' then ['\\', 't']
  else if c = '\x08' then ['\\', 'b']
  else if c = '\x0c' then ['\\', 'f']
  else if ' ' ≤ c ∧ c ≤ '~' then [c]
  else if c.toNat < 0x10000 then unitEscape c.toNat
  else
    let rest := c.toNat - 0x10000
    unitEscape (0xD800 + rest / 0x400) ++ unitEscape (0xDC00 + rest % 0x400)

/-- A text between double quotes. -/
def quote (text : String) : String :=
  String.ofList ('\x22' :: text.toList.flatMap escapeChar ++ ['\x22'])

/-- A new line, with the blanks in front for what is nested `depth` times. -/
def newline (depth : Nat) : String := String.ofList ('\n' :: List.replicate (2 * depth) ' ')

mutual

/-- The text of a value that is nested `depth` times. -/
def renderAt (depth : Nat) : Json → String
  | null => "null"
  | bool value => if value then "true" else "false"
  | number value => value.repr
  | string value => quote value
  | array [] => "[]"
  | array elements =>
    "[" ++ String.intercalate "," (renderElements (depth + 1) elements) ++ newline depth ++ "]"
  | object [] => "\x7b\x7d"
  | object members =>
    "\x7b" ++ String.intercalate "," (renderMembers (depth + 1) members) ++ newline depth ++ "\x7d"

/-- The elements of a list, each on a line of its own. -/
def renderElements (depth : Nat) : List Json → List String
  | [] => []
  | element :: elements => (newline depth ++ renderAt depth element) :: renderElements depth elements

/-- The members of an object, each on a line of its own. -/
def renderMembers (depth : Nat) : List (String × Json) → List String
  | [] => []
  | (name, value) :: members =>
    (newline depth ++ quote name ++ ": " ++ renderAt depth value) :: renderMembers depth members

end

/-- The text of a value. -/
def render (value : Json) : String := renderAt 0 value

end Json

end IfaceTable
