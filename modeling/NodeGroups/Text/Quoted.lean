import NodeGroups.Text.GraphemeExtend
import NodeGroups.Text.Printable

/-!
# Quoted text

Error messages show the text at fault between double quotes, so that stray blanks and control
characters can be seen. Inside the quotes a quote and a backslash are marked by a backslash,
four control characters have a letter of their own, and every other character that would not be
legible by itself is given by its code point in hexadecimal.
-/

namespace NodeGroups.Text

/-- A character given by its code point, as in `\u{a0}`. -/
def codePointEscape (c : Char) : List Char :=
  ['\\', 'u', '\x7b'] ++ Nat.toDigits 16 c.toNat ++ ['\x7d']

/-- What stands for a character between the quotes. -/
def escape (c : Char) : List Char :=
  if c = '"' ∨ c = '\\' then ['\\', c]
  else if c = '\n' then ['\\', 'n']
  else if c = '\r' then ['\\', 'r']
  else if c = '\t' then ['\\', 't']
  else if c = '\x00' then ['\\', '0']
  else if isGraphemeExtender c || !isPrintable c then codePointEscape c
  else [c]

/-- The text between double quotes, with every character legible. -/
def quoted (s : String) : String :=
  String.ofList (['"'] ++ s.toList.flatMap escape ++ ['"'])

end NodeGroups.Text
