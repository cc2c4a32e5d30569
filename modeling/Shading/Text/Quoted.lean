import Shading.Text.Printable

/-!
# Quoted text

Text between quotation marks, as summaries show it. The marks are single unless the text holds a
single mark and no double one. The mark in use and the backslash are escaped by a backslash; line
ends and tabs have escapes of one letter; any other character that is not printable is written
with its code point in hexadecimal digits, two, four or eight of them.
-/

namespace Shading.Text

/-- The mark around texts that do not force the other one. -/
def singleMark : Char := '\x27'

/-- The mark around texts that hold a single mark and no double one. -/
def doubleMark : Char := '\x22'

/-- The character that opens an escape. -/
def backslash : Char := '\x5c'

/-- The last `width` hexadecimal digits of `n`, in lower case. -/
def hexDigits : (width n : Nat) → List Char
  | 0, _ => []
  | width + 1, n => hexDigits width (n / 16) ++ [Nat.digitChar (n % 16)]

/-- The escape of a character that has no form on the page. -/
def escapeCodePoint (n : Nat) : List Char :=
  if n < 0x100 then backslash :: 'x' :: hexDigits 2 n
  else if n < 0x10000 then backslash :: 'u' :: hexDigits 4 n
  else backslash :: 'U' :: hexDigits 8 n

/-- A character as it is written between two of `mark`. -/
def escape (mark c : Char) : List Char :=
  if c = mark ∨ c = backslash then [backslash, c]
  else if c = '\n' then [backslash, 'n']
  else if c = '\r' then [backslash, 'r']
  else if c = '\t' then [backslash, 't']
  else if isPrintable c then [c]
  else escapeCodePoint c.toNat

/-- The mark that goes around a text. -/
def markFor (cs : List Char) : Char :=
  if singleMark ∈ cs ∧ doubleMark ∉ cs then doubleMark else singleMark

/-- A text between quotation marks. -/
def quote (s : String) : String :=
  let mark := markFor s.toList
  String.ofList (mark :: s.toList.flatMap (escape mark) ++ [mark])

end Shading.Text
