import IfaceTable.Text.Hex
import IfaceTable.Text.Printable

/-!
# Quoted text

Text between quotes, for messages. The quotes are single ones, unless the text holds a single
quote and no double one. The quote in use and the backslash get a backslash in front, line feed,
carriage return and tab have names, and any other character that is not printable is written as
its code point in hexadecimal.
-/

namespace IfaceTable.Text

def singleQuote : Char := '\x27'

def doubleQuote : Char := '\x22'

/-- The quote for a text with the given characters. -/
def quoteFor (chars : List Char) : Char :=
  if singleQuote ∈ chars ∧ doubleQuote ∉ chars then doubleQuote else singleQuote

/-- A code point in hexadecimal, in the shortest of three widths. -/
def escapeCode (n : Nat) : List Char :=
  if n < 0x100 then '\\' :: 'x' :: hex 2 n
  else if n < 0x10000 then '\\' :: 'u' :: hex 4 n
  else '\\' :: 'U' :: hex 8 n

/-- One character of a text between two `mark`s, where `plain` ones stand for themselves. -/
def escapeChar (mark : Char) (plain : Char → Bool) (c : Char) : List Char :=
  if c = mark ∨ c = '\\' then ['\\', c]
  else if c = '\n' then ['\\', 'n']
  else if c = '\r' then ['\\', 'r']
  else if c = '\t' then ['\\', 't']
  else if plain c then [c]
  else escapeCode c.toNat

/-- The characters between two quotes. -/
def quoteChars (plain : Char → Bool) (chars : List Char) : List Char :=
  let mark := quoteFor chars
  mark :: chars.flatMap (escapeChar mark plain) ++ [mark]

/-- A text between quotes. -/
def quoted (text : String) : String := String.ofList (quoteChars isPrintable text.toList)

/-- Bytes between quotes, behind the letter b: the visible ASCII characters stand for
themselves. -/
def quotedBytes (bytes : List UInt8) : String :=
  let visible (c : Char) : Bool := 0x20 ≤ c.toNat && c.toNat ≤ 0x7e
  String.ofList ('b' :: quoteChars visible (bytes.map fun b => Char.ofNat b.toNat))

end IfaceTable.Text
