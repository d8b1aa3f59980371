/-!
# Columns

Text padded with blanks to the width of a column. Widths count characters, and a text that is
wider than its column is kept whole.
-/

namespace IfaceTable.Text

/-- `text` at the left edge of a column. -/
def padEnd (width : Nat) (text : List Char) : List Char := text.rightpad width ' '

/-- `text` at the right edge of a column. -/
def padStart (width : Nat) (text : List Char) : List Char := text.leftpad width ' '

end IfaceTable.Text
