/-
What the text of a variable stands for.

A text that is a value from its first to its last character stands for that
value: true or false, a number, a text or a single character in quotes, a list
in brackets, a table in braces.  A text with commas that opens with none of
these marks stands for the list of its pieces, and every other text for itself.
The words for true and false may be in any case when they are the whole text;
inside of a value they are in small letters.
-/
import AgentHooks.Json.Record
import AgentHooks.Number.Literal
import AgentHooks.Text.Characters
import AgentHooks.Text.Pieces
import AgentHooks.Text.Unquoted

namespace AgentHooks.Settings.Variable

/-- Why a reader stops. -/
inductive Stop where
  | mismatch
  /-- A text was to be cut inside of a character. -/
  | badCut (fault : Text.CutFault)
deriving DecidableEq, Repr

/-- A reader takes a value off the front of some characters. -/
abbrev Reader (α : Type) := List Char → Except Stop (α × List Char)

/-- A blank between the parts of a value. -/
def isSpace (c : Char) : Bool := c == ' ' || c == '\t' || c == '\n' || c == '\x0c' || c == '\r'

/-- A character that opens a list, a table or something in quotes. -/
def opens (c : Char) : Bool := c == '[' || c == '\x7b' || c == '"' || c == '\''

/-- A character of a bare word: none that separates or encloses parts. -/
def isWordChar (c : Char) : Bool :=
  !(c == ',' || c == '[' || c == ']' || c == '\x7b' || c == '\x7d')

/-- The value of a number that may be out of range; then there is none. -/
def ofFloat : Option Binary64 → Json
  | some x => .number (.float x)
  | none => .null

/-- The number that a word spells: with a point one that may be a fraction,
otherwise a whole one of 64 bits. -/
def ofNumeral? (cs : List Char) : Option Json :=
  match if cs.contains '.' then Decimal.ofSignedLiteral? cs else none with
  | some (negative, d) => some (ofFloat (d.nearest? negative))
  | none => ((Text.integer? cs).bind Number.ofInt?).map .number

def ofWord (cs : List Char) : Json := (ofNumeral? cs).getD (.string (String.ofList cs))

def truthWords : List (String × Bool) := [("true", true), ("false", false)]

/-- The word for true or false in front of some characters, and what follows
it. -/
def leadingTruth? (cs : List Char) : Option (Json × List Char) :=
  truthWords.findSome? fun (word, b) =>
    if word.toList.isPrefixOf cs then some (.bool b, cs.drop word.length) else none

/-- The truth that a whole text names, in any case of its letters. -/
def truth? (cs : List Char) : Option Json :=
  (truthWords.find? fun w => Text.sameIgnoringAsciiCase w.1 (String.ofList cs)).map fun w =>
    .bool w.2

/-- Reads a single character after its opening quote. -/
def readCharacter : Reader Json
  | c :: '\'' :: rest => .ok (.string (String.singleton c), rest)
  | _ => .error .mismatch

/-- Reads parts up to a closing character; a comma stands between two of them
and may follow the last one.  Each part but the last takes at least its comma,
so `fuel` need not exceed the characters that are left. -/
def readParts {α : Type} (part : Reader α) (close : Char) : (fuel : Nat) → Reader (List α)
  | 0, _ => .error .mismatch
  | fuel + 1, cs =>
    if cs.head? = some close then .ok ([], cs.tail)
    else do
      let (x, rest) ← part cs
      match rest with
      | [] => throw .mismatch
      | c :: rest =>
        if c = close then return ([x], rest)
        else if c = ',' then do
          let (xs, rest) ← readParts part close fuel rest
          return (x :: xs, rest)
        else throw .mismatch

/-- Whether a quote closes the text that some characters begin. -/
def isClosed : List Char → Bool
  | [] => false
  | '"' :: _ => true
  | '\\' :: _ :: cs => isClosed cs
  | _ :: cs => isClosed cs

/-- What counts of the characters in front of the first mark, or of all when
there is none.  In front of a mark only as many bytes count as there are
characters, and they have to be whole characters. -/
def keptLead (lead rest : List Char) : Except Text.CutFault (List Char) :=
  if rest.head? = some '\\' then (Text.cutAtByte lead.length lead).map (·.1) else .ok lead

/-- Reads a text in quotes, after the opening one. -/
def readQuoted : Reader String := fun cs =>
  let lead := cs.takeWhile fun c => c != '\\' && c != '"'
  if isClosed cs && lead.all Text.isUnmarked then
    match keptLead lead (cs.drop lead.length), Text.readQuoted false cs with
    | .error fault, _ => .error (.badCut fault)
    | .ok kept, some (text, rest) => .ok (String.ofList (kept ++ text.drop lead.length), rest)
    | .ok _, none => .error .mismatch
  else .error .mismatch

def readKey : Reader String
  | '"' :: quoted => readQuoted quoted
  | cs =>
    let key := cs.takeWhile Text.isKeyChar
    if key = [] then .error .mismatch
    else .ok (String.ofList key, cs.dropWhile Text.isKeyChar)

/-- Reads a key and its value with an equals sign between them. -/
def readMember (value : Reader Json) : Reader (String × Json) := fun cs => do
  let (key, rest) ← readKey (cs.dropWhile isSpace)
  match rest.dropWhile isSpace with
  | '=' :: rest => do
    let (v, rest) ← value rest
    return ((key, v), rest)
  | _ => throw .mismatch

/-- Reads a value that is not true or false and has no blank in front; `part`
reads the values in it. -/
def readOther (part : Reader Json) : Reader Json
  | '[' :: rest =>
    (readParts part ']' (rest.length + 1) rest).map fun (items, rest) => (.array items, rest)
  | '\x7b' :: rest =>
    (readParts (readMember part) '\x7d' (rest.length + 1) rest).map fun (members, rest) =>
      ((Record.ofMembers members).toJson, rest)
  | '"' :: rest => (readQuoted rest).map fun (text, rest) => (.string text, rest)
  | '\'' :: rest => readCharacter rest
  | cs => .ok (ofWord (Text.trim (cs.takeWhile isWordChar)), cs.dropWhile isWordChar)

/-- Reads a value and the blanks around it. -/
def readValueWith (part : Reader Json) : Reader Json := fun cs =>
  let cs := cs.dropWhile isSpace
  let read : Except Stop (Json × List Char) :=
    match leadingTruth? cs with
    | some found => .ok found
    | none => readOther part cs
  read.map fun (v, rest) => (v, rest.dropWhile isSpace)

/-- Reads a value in which at most `depth` lists and tables are open at a
time. -/
def readValue : (depth : Nat) → Reader Json
  | 0 => fun _ => .error .mismatch
  | depth + 1 => readValueWith (readValue depth)

/-- The value that is spelled from the first to the last character, if there is
one.  Every list and table takes a character to open, so all of them may be open
at a time. -/
def spelled? (cs : List Char) : Except Text.CutFault (Option Json) :=
  match readValue (cs.length + 1) cs with
  | .ok (v, []) => .ok (some v)
  | .ok _ | .error .mismatch => .ok none
  | .error (.badCut fault) => .error fault

/-- Whether a text is a list without brackets. -/
def isBareList (cs : List Char) : Bool := cs.contains ',' && !cs.head?.any opens

def bareItems (cs : List Char) : List Json :=
  (Text.cut (· == ',') cs).map fun piece => .string (String.ofList (Text.trim piece))

/-- What the text of a variable stands for; blanks around it do not count. -/
def value (text : String) : Except Text.CutFault Json :=
  let cs := Text.trim text.toList
  if isBareList cs then .ok (.array (bareItems cs))
  else
    match truth? cs with
    | some b => .ok b
    | none => (spelled? cs).map (·.getD (.string (String.ofList cs)))

end AgentHooks.Settings.Variable
