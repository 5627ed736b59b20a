import ConfigWeave.Text.Table.Letter
import ConfigWeave.Text.Table.Cased

namespace ConfigWeave.Text

/-- The property Alphabetic. The letters below U+0080 are decided without the table. -/
def isAlphabetic (c : Char) : Bool :=
  if c.toNat < 0x80 then c.isAlpha else covered alphabeticRuns c.toNat

/-- The general categories of numbers: decimal digits, letter numbers and others such as fractions. -/
def isNumeric (c : Char) : Bool :=
  if c.toNat < 0x80 then c.isDigit else covered numericRuns c.toNat

def isAlphanumeric (c : Char) : Bool :=
  isAlphabetic c || isNumeric c

def isUppercase (c : Char) : Bool :=
  if c.toNat < 0x80 then c.isUpper else covered uppercaseRuns c.toNat

def isLowercase (c : Char) : Bool :=
  if c.toNat < 0x80 then c.isLower else covered lowercaseRuns c.toNat

/-- Letters that have a case: upper, lower or title case. -/
def isCased (c : Char) : Bool :=
  isUppercase c || isLowercase c || covered titlecaseRuns c.toNat

/-- Characters that are passed over when the neighbours of a letter decide its lower case. -/
def isCaseIgnorable (c : Char) : Bool :=
  covered caseIgnorableRuns c.toNat

end ConfigWeave.Text
