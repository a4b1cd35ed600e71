/-!
# Readers

A reader takes what it wants off the front of a text and leaves the rest, or fails. Readers are
put together with `do` and `<|>`; an alternative starts again at the front. The one loop,
`repeated`, goes on only while the text gets shorter, so every reader comes to an end.

Below are the readers for what stands between the parts of a TOML text.
-/

namespace NodeGroups.Toml

/-- Reads a value off the front of a text. -/
abbrev Reader := StateT (List Char) Option

namespace Reader

def rest : Reader (List Char) := get

/-- The next character, which is left in place. -/
def peek : Reader (Option Char) := fun s ↦ some (s.head?, s)

def next : Reader Char
  | [] => none
  | c :: r => some (c, r)

/-- Takes the next character if it is of a kind. -/
def nextIf (kind : Char → Bool) : Reader Char
  | [] => none
  | c :: r => if kind c then some (c, r) else none

/-- Takes a given text. -/
def expect (text : List Char) : Reader Unit := fun s ↦
  if text.isPrefixOf s then some ((), s.drop text.length) else none

/-- Takes all characters of a kind up to the first of another. -/
def takeWhile (kind : Char → Bool) : Reader (List Char) := fun s ↦
  some (s.takeWhile kind, s.dropWhile kind)

/-- Takes parts, `Sum.inl`, one after another until there is a last one, `Sum.inr`. Every part
before the last has to take something. -/
def repeated {α β : Type} (part : Reader (α ⊕ β)) (s : List Char) :
    Option ((List α × β) × List Char) :=
  match part s with
  | none => none
  | some (.inr b, r) => some (([], b), r)
  | some (.inl a, r) =>
    if r.length < s.length then
      (repeated part r).map fun p ↦ ((a :: p.1.1, p.1.2), p.2)
    else none
termination_by s.length

/-! ## Between the parts -/

/-- Whether a character is white space within a line. -/
def isSpace (c : Char) : Bool := c == ' ' || c == '\t'

/-- Whether a character may stand in a comment: no control character but a tab. -/
def isCommentChar (c : Char) : Bool := c == '\t' || (' ' ≤ c && c != '\x7f')

/-- Skips white space within the line. -/
def spaces : Reader Unit := do let _ ← takeWhile isSpace

/-- Takes the end of a line. -/
def newline : Reader Unit := expect ['\n'] <|> expect ['\r', '\n']

/-- Skips white space and line ends. A carriage return that ends no line stays. -/
def gap : Reader Unit := do
  let _ ← repeated (α := Unit) (β := Unit) do
    spaces
    (do newline; pure (.inl ())) <|> pure (.inr ())

/-- Skips a comment, if one starts here. -/
def comment : Reader Unit := do
  if (← peek) == some '#' then
    let _ ← takeWhile isCommentChar

/-- Takes the rest of a line that has nothing more to say. -/
def endOfLine : Reader Unit := do
  spaces
  comment
  if (← peek).isSome then newline

/-- Skips white space, comments and line ends. -/
def blanks : Reader Unit := do
  let _ ← repeated (α := Unit) (β := Unit) do
    spaces
    comment
    if (← peek) == some '\n' || (← peek) == some '\r' then
      newline
      pure (.inl ())
    else
      pure (.inr ())

end Reader

end NodeGroups.Toml
