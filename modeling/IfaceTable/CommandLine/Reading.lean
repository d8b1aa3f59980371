import IfaceTable.CommandLine.Synopsis
import IfaceTable.Text.DecimalDigit
import IfaceTable.Text.Quoted

/-!
# Reading a command line

The words of a command line are first sorted into options and other words, and then read from the
left to the right.

A long option may be shortened as long as only one option starts that way, and may have its value
behind an equals sign. Short options may stand together behind one dash, and a value may follow
without a blank. Two dashes in the place of such a value give none, and take back the one before.
A word behind a dash is a value only if it is the dash alone, a negative number, or holds a blank.
The commands take no words but options and their values, so any other word is refused in the end.

* `Synopsis.sort`: what a word is.
* `attachedValue?`: the value that stands behind an option in its own word.
* `Synopsis.cluster`: the options in one word.
* `Synopsis.read`: the settings that a command line makes.
-/

namespace IfaceTable.CommandLine

open Text

/-- What is wrong with a command line. -/
inductive Misuse where
  /-- Several options start like the word. -/
  | ambiguous (word : String) (candidates : List String)
  | valueMissing (opt : Opt)
  /-- A value is attached to an option that takes none. -/
  | valueIgnored (opt : Opt) (value : String)
  | unrecognized (words : List String)
  | exclusive (first second : Opt)
  deriving DecidableEq, Repr

def Misuse.message : Misuse → String
  | ambiguous word candidates =>
    "ambiguous option: " ++ word ++ " could match " ++ String.intercalate ", " candidates
  | valueMissing opt => "argument " ++ opt.names ++ ": expected one argument"
  | valueIgnored opt value =>
    "argument " ++ opt.names ++ ": ignored explicit argument " ++ quoted value
  | unrecognized words => "unrecognized arguments: " ++ String.intercalate " " words
  | exclusive first second => "Only one of " ++ first.names ++ " and " ++ second.names ++ " is allowed"

/-- Why a command line makes no settings. -/
inductive Stop where
  | help
  | misuse (cause : Misuse)
  deriving DecidableEq, Repr

/-- A word of a command line. -/
inductive Word where
  /-- A word that may be the value of an option. -/
  | plain (text : String)
  /-- A word that looks like an option and is none. -/
  | unknown (text : String)
  /-- Two dashes, behind which there are no options. -/
  | endOfOptions
  /-- An option, and the characters that are attached to it. -/
  | option (opt : Opt) (isShort : Bool) (attached : Option (List Char))
  deriving DecidableEq, Repr

/-- Digits, or digits with a point before the last ones, behind a minus sign; a line feed may
follow. -/
def isNegativeNumber (chars : List Char) : Bool :=
  match chars with
  | '-' :: rest =>
    let number := if rest.getLast? = some '\n' then rest.dropLast else rest
    let whole := number.takeWhile isDecimalDigit
    match number.dropWhile isDecimalDigit with
    | [] => !whole.isEmpty
    | '.' :: places => !places.isEmpty && places.all isDecimalDigit
    | _ => false
  | _ => false

/-- An option that is set, with its value if it takes one and is given one. -/
abbrev Setting := Opt × Option String

/-- The value that the characters attached to an option give. Two dashes give none, so an option
set by them is without the value it had before. -/
def attachedValue? (attached : List Char) : Option String :=
  if attached = ['-', '-'] then none else some (String.ofList attached)

namespace Synopsis

/-- The option with the given letter. -/
def short? (synopsis : Synopsis) (c : Char) : Option Opt :=
  synopsis.options.find? (·.short = some c)

/-- The option that is spelled in full, and whether it is the short spelling. -/
def spelled? (synopsis : Synopsis) : List Char → Option (Opt × Bool)
  | ['-', c] => (synopsis.short? c).map (·, true)
  | '-' :: '-' :: long =>
    (synopsis.options.find? fun opt => opt.long.toList = long).map (·, false)
  | _ => none

/-- A text cut at its first equals sign, if it has one. -/
def cutEquals (chars : List Char) : List Char × Option (List Char) :=
  let name := chars.takeWhile (· ≠ '=')
  (name, if '=' ∈ chars then some (chars.drop (name.length + 1)) else none)

/-- The options that a word may mean that is spelled in full neither as a whole nor before an
equals sign. -/
def candidates (synopsis : Synopsis) (chars : List Char) : List Word :=
  match chars with
  | '-' :: '-' :: long =>
    let (start, attached) := cutEquals long
    (synopsis.options.filter fun opt => start.isPrefixOf opt.long.toList).map fun opt =>
      .option opt false attached
  | '-' :: c :: attached =>
    (synopsis.short? c).toList.map fun opt => .option opt true (some attached)
  | _ => []

/-- What a word is that starts with a dash. -/
def sortDashed (synopsis : Synopsis) (text : String) : Except Misuse Word :=
  let chars := text.toList
  let (start, attached) := cutEquals chars
  match synopsis.spelled? chars, chars, attached.bind fun _ => synopsis.spelled? start with
  | some (opt, isShort), _, _ => .ok (.option opt isShort none)
  | none, [_], _ => .ok (.plain text)
  | none, _, some (opt, isShort) => .ok (.option opt isShort attached)
  | none, _, none =>
    match synopsis.candidates chars with
    | [word] => .ok word
    | [] =>
      if isNegativeNumber chars ∨ ' ' ∈ chars then .ok (.plain text) else .ok (.unknown text)
    | words =>
      .error (.ambiguous text (words.filterMap fun
        | .option opt .. => some ("--" ++ opt.long)
        | _ => none))

/-- What a word is. -/
def sort (synopsis : Synopsis) (text : String) : Except Misuse Word :=
  if text.toList.head? = some '-' then synopsis.sortDashed text else .ok (.plain text)

/-- What the words of a command line are. -/
def sortAll (synopsis : Synopsis) : List String → Except Misuse (List Word)
  | [] => .ok []
  | text :: rest =>
    if text = "--" then .ok (.endOfOptions :: rest.map .plain)
    else do return (← synopsis.sort text) :: (← synopsis.sortAll rest)

/-- The settings that one word makes, and the option whose value is the next word. Behind a short
option that takes no value, further ones may be attached. -/
def cluster (synopsis : Synopsis) (opt : Opt) (isShort : Bool) :
    Option (List Char) → Except Misuse (List Setting × Option Opt)
  | none => if opt.value.isSome then .ok ([], some opt) else .ok ([(opt, none)], none)
  | some attached =>
    if opt.value.isSome then .ok ([(opt, attachedValue? attached)], none)
    else
      match isShort, attached with
      | true, c :: more =>
        match synopsis.short? c with
        | none => .error (.valueIgnored opt (String.ofList attached))
        | some next => do
          let (settings, waiting) ←
            synopsis.cluster next true (if more = [] then none else some more)
          return ((opt, none) :: settings, waiting)
      | _, _ => .error (.valueIgnored opt (String.ofList attached))
termination_by attached => (attached.map (·.length + 1)).getD 0
decreasing_by
  by_cases h : more = [] <;> simp_all

/-- A command line that has been read: its settings, and the words that are none. -/
structure Reading where
  settings : List Setting := []
  leftover : List String := []

/-- The reading with the given settings in front. The option that shows the help ends it. -/
def Reading.prepend (settings : List Setting) (rest : Except Stop Reading) : Except Stop Reading :=
  if settings.any (·.1 = helpOpt) then .error .help
  else rest.map fun reading => { reading with settings := settings ++ reading.settings }

/-- The reading with one more word that is no setting. -/
def Reading.skip (text : String) (rest : Except Stop Reading) : Except Stop Reading :=
  rest.map fun reading => { reading with leftover := text :: reading.leftover }

/-- Reads the words from the left to the right. -/
def readWords (synopsis : Synopsis) : List Word → Except Stop Reading
  | [] => .ok {}
  | .plain text :: rest | .unknown text :: rest => Reading.skip text (synopsis.readWords rest)
  | .endOfOptions :: rest => Reading.skip "--" (synopsis.readWords rest)
  | .option opt isShort attached :: rest =>
    match synopsis.cluster opt isShort attached with
    | .error misuse => .error (.misuse misuse)
    | .ok (settings, none) => Reading.prepend settings (synopsis.readWords rest)
    | .ok (settings, some waiting) =>
      match rest with
      | .plain value :: more =>
        Reading.prepend (settings ++ [(waiting, some value)]) (synopsis.readWords more)
      | _ => .error (.misuse (.valueMissing waiting))

/-- The settings that a command line makes, in order. -/
def read (synopsis : Synopsis) (args : List String) : Except Stop (List Setting) := do
  let words ← (synopsis.sortAll args).mapError .misuse
  let reading ← synopsis.readWords words
  if reading.leftover = [] then return reading.settings
  else throw (.misuse (.unrecognized reading.leftover))

end Synopsis

/-- The option with the given word is set. -/
def isSet (settings : List Setting) (long : String) : Bool := settings.any (·.1.long = long)

/-- The value of the option with the given word where it is set last. -/
def valueOf? (settings : List Setting) (long : String) : Option String :=
  (settings.reverse.find? (·.1.long = long)).bind (·.2)

end IfaceTable.CommandLine
