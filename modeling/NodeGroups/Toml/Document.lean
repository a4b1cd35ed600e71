import NodeGroups.Toml.Date
import NodeGroups.Toml.Number
import NodeGroups.Toml.Table

/-!
# TOML texts

A text is a sequence of sections. Each has a header, but for the first, and gives values to keys,
one to a line. `parse?` reads a whole text as one record. Dates and times have no place in trees
of data; one becomes a record that tells it as it was written.
-/

namespace NodeGroups.Toml

open Reader

/-! ## Values -/

/-- Whether a character may stand in a number, a date or a word. -/
def isTokenChar (c : Char) : Bool :=
  !(isSpace c || c == '\n' || c == '\r' || c == ',' || c == ']' || c == '\x7d' || c == '#')

/-- A date or a time as a tree of data. -/
def momentDatum (s : List Char) : Datum := .record [("datetime", .text (String.ofList s))]

/-- The time that follows a date after a space, with the space. -/
def spacedClock : Reader (List Char) := do
  let space ← nextIf (· == ' ')
  let clock ← takeWhile isTokenChar
  if isClock clock then pure (space :: clock) else failure

/-- A word, a number, a date or a time. -/
def token : Reader Datum := do
  let s ← takeWhile isTokenChar
  if s = ['t', 'r', 'u', 'e'] then pure (.bool true)
  else if s = ['f', 'a', 'l', 's', 'e'] then pure (.bool false)
  else if isDate s then
    let clock ← spacedClock <|> pure []
    pure (momentDatum (s ++ clock))
  else if isMoment s then pure (momentDatum s)
  else match number? s with
    | some d => pure d
    | none => failure

/-- An item of a list and what separates it from the next, or the end of the list with the last
item, if there is one. -/
def listPart (value : Reader Datum) : Reader (Datum ⊕ Option Datum) := do
  blanks
  if (← peek) == some ']' then
    let _ ← next
    pure (.inr none)
  else
    let d ← value
    blanks
    match ← next with
    | ',' => pure (.inl d)
    | ']' => pure (.inr (some d))
    | _ => failure

/-- The items of a list, after its opening bracket. -/
def listItems (value : Reader Datum) : Reader Datum := do
  let (items, last) ← repeated (listPart value)
  pure (.list (items ++ last.toList))

def pair (value : Reader Datum) : Reader ((List String × String) × Datum) := do
  let k ← key
  expect ['=']
  spaces
  let d ← value
  spaces
  pure (k, d)

/-- A key and its value within braces, the last one or not. -/
def bracePart (value : Reader Datum) :
    Reader (((List String × String) × Datum) ⊕ ((List String × String) × Datum)) := do
  let p ← pair value
  match ← next with
  | ',' => pure (.inl p)
  | '\x7d' => pure (.inr p)
  | _ => failure

/-- The keys and values of a table in braces, after the opening brace. -/
def braceTable (value : Reader Datum) : Reader Datum := do
  spaces
  if (← peek) == some '\x7d' then
    let _ ← next
    pure (.record [])
  else
    let (pairs, last) ← repeated (bracePart value)
    match Entries.assignAll [] (pairs ++ [last]) with
    | some es => pure es.toDatum
    | none => failure

/-- A value with at most the given depth of brackets. -/
def value : Nat → Reader Datum
  | 0 => do
    match ← peek with
    | some '"' | some '\'' => .text <$> textValue
    | _ => token
  | depth + 1 => do
    match ← peek with
    | some '"' | some '\'' => .text <$> textValue
    | some '[' => do let _ ← next; listItems (value depth)
    | some '\x7b' => do let _ ← next; braceTable (value depth)
    | _ => token

/-! ## Sections -/

/-- The header of a section. -/
inductive Header
  | table (key : List String × String)
  | tables (key : List String × String)

/-- A line of a text. -/
inductive Line
  | blank
  | header (header : Header)
  | pair (key : List String × String) (value : Datum)

def header : Reader Header :=
  (do
    expect ['[', '[']
    let k ← key
    expect [']', ']']
    pure (.tables k))
  <|> do
    expect ['[']
    let k ← key
    expect [']']
    pure (.table k)

def line : Reader (Line ⊕ Unit) := do
  spaces
  match ← peek with
  | none => pure (.inr ())
  | some '[' => do
    let h ← header
    endOfLine
    pure (.inl (.header h))
  | some '#' | some '\n' | some '\r' => do
    endOfLine
    pure (.inl .blank)
  | some _ => do
    let (k, d) ← pair (value (depthLimit - 1))
    endOfLine
    pure (.inl (.pair k d))

/-- The keys and values up to the next header, and the lines from it on. -/
def splitSection : List Line → List ((List String × String) × Datum) × List Line
  | .pair k d :: r => ((k, d) :: (splitSection r).1, (splitSection r).2)
  | .blank :: r => splitSection r
  | r => ([], r)

theorem length_splitSection (lines : List Line) :
    (splitSection lines).2.length ≤ lines.length := by
  fun_induction splitSection lines <;> simp_all <;> omega

/-- Adds the sections of a text to its tables. Lines before the first header belong to the
whole. -/
def addSections (es : Entries) : List Line → Option Entries
  | [] => some es
  | .blank :: r => addSections es r
  | .pair k d :: r => (es.assign k d).bind fun es ↦ addSections es r
  | .header h :: r =>
    let body := splitSection r
    let es := match h with
      | .table k => es.openTable k body.1
      | .tables k => es.pushTable k body.1
    es.bind fun es ↦ addSections es body.2
termination_by lines => lines.length
decreasing_by
  all_goals
    have := length_splitSection r
    simp_all
    try omega

/-- Reads a text as a record. A byte order mark may open it. -/
def parse? (text : String) : Option Datum := do
  let cs := match text.toList with
    | '\ufeff' :: r => r
    | cs => cs
  let ((lines, _), _) ← repeated line cs
  let es ← addSections [] lines
  pure es.toDatum

end NodeGroups.Toml
