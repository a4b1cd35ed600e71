import NodeGroups.Datum.Basic

/-!
# JSON texts

Trees of data as JSON, on one line without spaces, or laid out on several lines with two
spaces of indentation for each level. A text is escaped only where JSON asks for it: a quote, a
backslash and control characters.
-/

namespace NodeGroups.Datum

def hexByte (n : Nat) : List Char :=
  (if n < 16 then ['0'] else []) ++ Nat.toDigits 16 n

/-- What stands for a character inside a JSON text. -/
def jsonEscape (c : Char) : List Char :=
  if c = '"' ∨ c = '\\' then ['\\', c]
  else if c = '\n' then ['\\', 'n']
  else if c = '\r' then ['\\', 'r']
  else if c = '\t' then ['\\', 't']
  else if c = '\x08' then ['\\', 'b']
  else if c = '\x0c' then ['\\', 'f']
  else if c.toNat < 0x20 then ['\\', 'u', '0', '0'] ++ hexByte c.toNat
  else [c]

def jsonText (s : String) : List Char := ['"'] ++ s.toList.flatMap jsonEscape ++ ['"']

/-- Puts a separator between the parts. -/
def joined (separator : List Char) : List (List Char) → List Char
  | [] => []
  | [a] => a
  | a :: r => a ++ separator ++ joined separator r

/-- A scalar in JSON; lists and records are written by the layouts below. -/
def jsonScalar : Datum → List Char
  | null => ['n', 'u', 'l', 'l']
  | bool true => ['t', 'r', 'u', 'e']
  | bool false => ['f', 'a', 'l', 's', 'e']
  | int n => (toString n).toList
  | real s => s.toList
  | text s => jsonText s
  | list _ => ['[', ']']
  | record _ => ['\x7b', '\x7d']

mutual

/-- JSON on one line. -/
def compactChars : Datum → List Char
  | list items => ['['] ++ joined [','] (compactItems items) ++ [']']
  | record fields => ['\x7b'] ++ joined [','] (compactFields fields) ++ ['\x7d']
  | d => jsonScalar d

def compactItems : List Datum → List (List Char)
  | [] => []
  | d :: r => compactChars d :: compactItems r

def compactFields : List (String × Datum) → List (List Char)
  | [] => []
  | (k, d) :: r => (jsonText k ++ [':'] ++ compactChars d) :: compactFields r

end

def newline (level : Nat) : List Char := '\n' :: List.replicate (2 * level) ' '

/-- Brackets around parts on lines of their own; nothing goes between the brackets if there are
no parts. -/
def block (level : Nat) (opening closing : Char) (parts : List (List Char)) : List Char :=
  if parts = [] then [opening, closing]
  else [opening] ++ newline (level + 1) ++ joined (',' :: newline (level + 1)) parts
    ++ newline level ++ [closing]

mutual

/-- JSON on several lines, from a level of indentation on. -/
def prettyChars (level : Nat) : Datum → List Char
  | list items => block level '[' ']' (prettyItems (level + 1) items)
  | record fields => block level '\x7b' '\x7d' (prettyFields (level + 1) fields)
  | d => jsonScalar d

def prettyItems (level : Nat) : List Datum → List (List Char)
  | [] => []
  | d :: r => prettyChars level d :: prettyItems level r

def prettyFields (level : Nat) : List (String × Datum) → List (List Char)
  | [] => []
  | (k, d) :: r => (jsonText k ++ [':', ' '] ++ prettyChars level d) :: prettyFields level r

end

/-- The tree as JSON on one line. -/
def compact (d : Datum) : String := String.ofList (compactChars d)

/-- The tree as JSON on several lines. -/
def pretty (d : Datum) : String := String.ofList (prettyChars 0 d)

end NodeGroups.Datum
