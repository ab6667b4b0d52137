import Timesheet.Text.CodePoints
import Timesheet.Text.LetterTable
/-!
# Letters and digits

`Text.isAlphabetic` and `Text.isNumeric` are classes of Unicode, so that letters and digits of all scripts
belong to them.
-/

namespace Timesheet.Text

/-- The character has the property Alphabetic. -/
def isAlphabetic (c : Char) : Bool := inRanges alphabeticRanges c.toNat

/-- The character is a digit or another sign for a number. -/
def isNumeric (c : Char) : Bool := inRanges numericRanges c.toNat

def isAlphanumeric (c : Char) : Bool := isAlphabetic c || isNumeric c

end Timesheet.Text
