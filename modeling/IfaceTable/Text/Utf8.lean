/-!
# UTF-8

Text as bytes, and bytes as text. Reading never fails: bytes that are no part of a character are
replaced by U+FFFD, once for each stretch of bytes that begins a character and breaks off, and
once for each other byte.

The reader goes through the bytes one at a time. Between two bytes it is either at the start of a
character or has a `Partial` character. The first byte of a character fixes how many bytes follow
and which values the second one may have: the ranges leave out overlong forms, surrogates and
numbers above U+10FFFF.

* `step`: what one byte adds to the text.
* `decode`: the text of any bytes. `text?`: the text of which they are the bytes.
* `read_append`: reading may stop and go on between any two bytes.
-/

namespace IfaceTable.Text.Utf8

/-- The bytes of a text. -/
def encode (text : String) : List UInt8 := text.toList.flatMap String.utf8EncodeChar

/-- The character that stands for bytes that could not be read. -/
def replacement : Char := '\ufffd'

/-- A character of which the first bytes were read. -/
structure Partial where
  /-- The bits of the bytes that were read. -/
  value : Nat
  /-- How many bytes follow the next one. -/
  missing : Nat
  /-- The least value that the next byte may have. -/
  low : Nat
  /-- The greatest value that the next byte may have. -/
  high : Nat
  deriving DecidableEq, Repr

/-- What a byte adds to the text, and the character that it leaves open. -/
abbrev Step := List Char × Option Partial

/-- A byte at the start of a character. -/
def begin (byte : UInt8) : Step :=
  let b := byte.toNat
  if b < 0x80 then ([Char.ofNat b], none)
  else if b < 0xC2 then ([replacement], none)
  else if b < 0xE0 then ([], some ⟨b % 0x20, 0, 0x80, 0xBF⟩)
  else if b = 0xE0 then ([], some ⟨b % 0x10, 1, 0xA0, 0xBF⟩)
  else if b = 0xED then ([], some ⟨b % 0x10, 1, 0x80, 0x9F⟩)
  else if b < 0xF0 then ([], some ⟨b % 0x10, 1, 0x80, 0xBF⟩)
  else if b = 0xF0 then ([], some ⟨b % 0x08, 2, 0x90, 0xBF⟩)
  else if b < 0xF4 then ([], some ⟨b % 0x08, 2, 0x80, 0xBF⟩)
  else if b = 0xF4 then ([], some ⟨b % 0x08, 2, 0x80, 0x8F⟩)
  else ([replacement], none)

/-- A byte that the open character `p` accepts. -/
def Partial.extend (p : Partial) (byte : UInt8) : Step :=
  let value := p.value * 0x40 + byte.toNat % 0x40
  match p.missing with
  | 0 => ([Char.ofNat value], none)
  | missing + 1 => ([], some ⟨value, missing, 0x80, 0xBF⟩)

/-- One byte. If it does not go on with the open character, that one breaks off and the byte
starts anew. -/
def step (state : Option Partial) (byte : UInt8) : Step :=
  match state with
  | none => begin byte
  | some p =>
    if p.low ≤ byte.toNat ∧ byte.toNat ≤ p.high then p.extend byte
    else (replacement :: (begin byte).1, (begin byte).2)

/-- What the end of the bytes adds to the text. -/
def finish (state : Option Partial) : List Char :=
  if state.isSome then [replacement] else []

/-- The text of the bytes that follow in the given state, and the state behind them. -/
def read : Option Partial → List UInt8 → Step
  | state, [] => ([], state)
  | state, byte :: bytes =>
    let (chars, next) := step state byte
    let (more, last) := read next bytes
    (chars ++ more, last)

/-- The characters of a list of bytes. -/
def decodeChars (bytes : List UInt8) : List Char :=
  let (chars, last) := read none bytes
  chars ++ finish last

/-- The text of a list of bytes. -/
def decode (bytes : List UInt8) : String := String.ofList (decodeChars bytes)

/-- The text that the bytes write, if they write one. -/
def text? (bytes : List UInt8) : Option String :=
  if encode (decode bytes) = bytes then some (decode bytes) else none

theorem read_append (state : Option Partial) (xs ys : List UInt8) :
    read state (xs ++ ys) =
      ((read state xs).1 ++ (read (read state xs).2 ys).1, (read (read state xs).2 ys).2) := by
  induction xs generalizing state with
  | nil => rfl
  | cons byte xs ih => simp [read, ih]

end IfaceTable.Text.Utf8
