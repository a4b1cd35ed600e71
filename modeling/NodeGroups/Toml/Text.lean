import NodeGroups.Toml.Reader

/-!
# Texts and keys in TOML

A text stands between quotes, single or double, on one line or between three quotes on several.
Between double quotes a backslash escapes; between single quotes everything stands for itself.
A key is a sequence of names with dots between them, each a bare word or a text on one line.
-/

namespace NodeGroups.Toml

open Reader

/-- Whether a character may stand for itself in a text: no control character but a tab. -/
def isTextChar (c : Char) : Bool := isCommentChar c

def isHexDigit (c : Char) : Bool :=
  c.isDigit || ('a' ≤ c && c ≤ 'f') || ('A' ≤ c && c ≤ 'F')

def hexDigit (c : Char) : Nat :=
  if c.isDigit then c.toNat - '0'.toNat else c.toLower.toNat - 'a'.toNat + 10

/-- The number that hexadecimal digits denote. -/
def ofHexDigits (ds : List Char) : Nat := ds.foldl (fun n c ↦ 16 * n + hexDigit c) 0

/-- The character with a number of the given count of hexadecimal digits. -/
def codePoint (count : Nat) : Reader Char := fun s ↦
  let ds := s.take count
  let n := ofHexDigits ds
  if ds.length = count ∧ ds.all isHexDigit ∧ n.isValidChar then
    some (Char.ofNat n, s.drop count)
  else none

/-- The character that an escape stands for, after the backslash. -/
def escaped : Reader Char := do
  match ← next with
  | 'b' => pure '\x08'
  | 't' => pure '\t'
  | 'n' => pure '\n'
  | 'f' => pure '\x0c'
  | 'r' => pure '\r'
  | '"' => pure '"'
  | '\\' => pure '\\'
  | 'u' => codePoint 4
  | 'U' => codePoint 8
  | _ => failure

/-! ## On one line -/

/-- A character of a text in double quotes, or the quote that ends it. -/
def basicPart : Reader (Char ⊕ Unit) := do
  let c ← nextIf isTextChar
  if c = '"' then pure (.inr ())
  else if c = '\\' then .inl <$> escaped
  else pure (.inl c)

/-- A character of a text in single quotes, or the quote that ends it. -/
def literalPart : Reader (Char ⊕ Unit) := do
  let c ← nextIf isTextChar
  if c = '\'' then pure (.inr ()) else pure (.inl c)

def lineText : Reader String := do
  let c ← next
  let part ←
    if c = '"' then pure basicPart else if c = '\'' then pure literalPart else failure
  let (cs, _) ← repeated part
  pure (String.ofList cs)

/-! ## On several lines -/

/-- A run of quotes: fewer than three belong to the text, unless nothing follows; with three to
five the text ends, after those beyond three. -/
def quoteRun (quote : Char) : Reader (List Char ⊕ List Char) := do
  let run ← takeWhile (· == quote)
  if run.length < 3 then
    if (← peek).isNone then failure else pure (.inl run)
  else if run.length ≤ 5 then pure (.inr (run.drop 3))
  else failure

/-- A line end within a text; it always counts as the one character. -/
def lineBreak : Reader (List Char ⊕ List Char) := do
  newline
  pure (.inl ['\n'])

/-- A character that stands for itself within a text on several lines. -/
def plainChar : Reader (List Char ⊕ List Char) := do
  let c ← nextIf isTextChar
  pure (.inl [c])

/-- White space and line ends after a backslash at the end of a line; they do not count. -/
def continuation : Reader (List Char ⊕ List Char) := do
  spaces
  newline
  gap
  pure (.inl [])

/-- A part of a text between three double quotes. -/
def basicBlockPart : Reader (List Char ⊕ List Char) := do
  match ← peek with
  | some '"' => quoteRun '"'
  | some '\\' =>
    let _ ← next
    continuation <|> (fun c ↦ .inl [c]) <$> escaped
  | some '\n' | some '\r' => lineBreak
  | _ => plainChar

/-- A part of a text between three single quotes. -/
def literalBlockPart : Reader (List Char ⊕ List Char) := do
  match ← peek with
  | some '\'' => quoteRun '\''
  | some '\n' | some '\r' => lineBreak
  | _ => plainChar

/-- A text on several lines. A line end right after the opening quotes does not count. -/
def blockText : Reader String := do
  let part ←
    (do expect ['"', '"', '"']; pure basicBlockPart)
    <|> (do expect ['\'', '\'', '\'']; pure literalBlockPart)
  newline <|> pure ()
  let (parts, last) ← repeated part
  pure (String.ofList (parts.flatten ++ last))

/-- Whether a text on several lines starts here. -/
def atBlockText : Reader Bool := do
  let s ← rest
  pure (['"', '"', '"'].isPrefixOf s || ['\'', '\'', '\''].isPrefixOf s)

def textValue : Reader String := do
  if ← atBlockText then blockText else lineText

/-! ## Keys -/

/-- Whether a character may stand in a bare word. -/
def isBareChar (c : Char) : Bool := c.isAlphanum || c == '-' || c == '_'

def keyName : Reader String := do
  match ← peek with
  | some '"' | some '\'' => lineText
  | _ =>
    let word ← takeWhile isBareChar
    if word.isEmpty then failure else pure (String.ofList word)

/-- One name of a key with the white space around it, and whether the key goes on after it. -/
def keyPart : Reader (String ⊕ String) := do
  spaces
  let name ← keyName
  spaces
  if (← peek) == some '.' then
    let _ ← next
    pure (.inl name)
  else
    pure (.inr name)

/-- How many names a key may not have, and how deeply values may not be nested. -/
def depthLimit : Nat := 80

/-- A key: the names before its last one, and the last one. -/
def key : Reader (List String × String) := do
  let (path, name) ← repeated keyPart
  if path.length + 1 < depthLimit then pure (path, name) else failure

end NodeGroups.Toml
