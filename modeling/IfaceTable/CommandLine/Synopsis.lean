import IfaceTable.Text.Fields

/-!
# Synopses

What a command says about its command line: its name, what it does, and its options. Every
command has the option that shows this help.

* `Synopsis.usage`: the line that shows how the command is called.
* `Synopsis.help`: the usage line, what the command does, and its options in two columns.
-/

namespace IfaceTable.CommandLine

open Text

/-- An option of a command. -/
structure Opt where
  /-- The letter of the option, behind one dash. -/
  short : Option Char := none
  /-- The word of the option, behind two dashes. -/
  long : String
  /-- What its value is called, if it takes one. -/
  value : Option String := none
  /-- What it does. -/
  help : String
  deriving DecidableEq, Repr

namespace Opt

/-- The ways to write the option, short one first. -/
def spellings (opt : Opt) : List String :=
  (opt.short.map fun c => String.ofList ['-', c]).toList ++ ["--" ++ opt.long]

/-- The option in messages. -/
def names (opt : Opt) : String := String.intercalate "/" opt.spellings

/-- A spelling with the name of the value behind it. -/
def withValue (opt : Opt) (spelling : String) : String :=
  spelling ++ (opt.value.map (" " ++ ·)).getD ""

/-- The option in the usage line. -/
def usage (opt : Opt) : String := "[" ++ opt.withValue (opt.spellings.headD "") ++ "]"

/-- The option in the left column of the help. -/
def heading (opt : Opt) : String := String.intercalate ", " (opt.spellings.map opt.withValue)

end Opt

/-- The option that shows the help. -/
def helpOpt : Opt := { short := some 'h', long := "help", help := "show this help message and exit" }

/-- What a command says about its command line. -/
structure Synopsis where
  program : String
  description : String
  /-- The options of its own. -/
  ownOptions : List Opt

/-- Words in lines of at most `width` characters, with as many words in each line as fit. -/
def fillLines (width : Nat) (words : List String) : List String :=
  let place (lines : List String) (word : String) : List String :=
    match lines with
    | [] => [word]
    | line :: full =>
      if line.length + 1 + word.length ≤ width then (line ++ " " ++ word) :: full
      else word :: line :: full
  (words.foldl place []).reverse

/-- The width of a screen, less two columns at its edge. -/
def screenWidth : Nat := 78

/-- The column in which the right column of the help begins. -/
def helpColumn : Nat := 24

/-- Blanks. -/
def blanks (n : Nat) : String := String.ofList (List.replicate n ' ')

/-- The lines of an option in the help. What it does stands in the right column, from the next
line on if the heading is too wide. -/
def Opt.helpLines (opt : Opt) : List String :=
  let lines := (fillLines (screenWidth - helpColumn)
    ((split ' ' opt.help.toList).map String.ofList))
  let heading := "  " ++ opt.heading
  if heading.length + 2 ≤ helpColumn then
    match lines with
    | [] => [heading]
    | line :: more =>
      (heading ++ blanks (helpColumn - heading.length) ++ line) :: more.map (blanks helpColumn ++ ·)
  else heading :: lines.map (blanks helpColumn ++ ·)

namespace Synopsis

/-- All options, the one that shows the help first. -/
def options (synopsis : Synopsis) : List Opt := helpOpt :: synopsis.ownOptions

def usage (synopsis : Synopsis) : String :=
  "usage: " ++ String.intercalate " " (synopsis.program :: synopsis.options.map Opt.usage) ++ "\n"

def help (synopsis : Synopsis) : String :=
  synopsis.usage ++ "\n" ++ synopsis.description ++ "\n\noptions:\n"
    ++ String.join ((synopsis.options.flatMap Opt.helpLines).map (· ++ "\n"))

end Synopsis

end IfaceTable.CommandLine
