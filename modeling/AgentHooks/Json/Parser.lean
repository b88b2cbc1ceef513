/-
Reading JSON text.

Every reader takes the bytes that are left and returns what it read with the
bytes left after it.  Nesting is bounded: `value` recurses on the containers
that may still open, and the loops over items and members on a count of the
bytes that are left.  `parse` reads a whole input.
-/
import AgentHooks.Json.Fault
import AgentHooks.Json.Record
import AgentHooks.Number.Scaled

namespace AgentHooks.Json

/-- What a reader returns: its result and the bytes left. -/
abbrev Reading (α : Type) := Except Stop (α × Bytes)

/-- A blank between the parts of a text. -/
def isSpace (b : UInt8) : Bool := b = 0x20 || b = 0x0A || b = 0x09 || b = 0x0D

def skipSpace (s : Bytes) : Bytes := s.dropWhile isSpace

def isDigit (b : UInt8) : Bool := '0'.toUInt8 ≤ b && b ≤ '9'.toUInt8

def digitValue (b : UInt8) : Nat := b.toNat - 0x30

/-! ## Words -/

def readWord : Bytes → Bytes → Except Stop Bytes
  | [], s => .ok s
  | _ :: _, [] => stopBefore .endInValue []
  | w :: ws, b :: s => if b = w then readWord ws s else stopBefore .misspelledWord s

/-! ## Strings -/

/-- The value of a hexadecimal digit of either case. -/
def hexValue? (b : UInt8) : Option Nat :=
  if isDigit b then some (b.toNat - 0x30)
  else if 'a'.toUInt8 ≤ b ∧ b ≤ 'f'.toUInt8 then some (b.toNat - 0x57)
  else if 'A'.toUInt8 ≤ b ∧ b ≤ 'F'.toUInt8 then some (b.toNat - 0x37)
  else none

def hexValue4? (a b c d : UInt8) : Option Nat := do
  return (((← hexValue? a) * 16 + (← hexValue? b)) * 16 + (← hexValue? c)) * 16 + (← hexValue? d)

def isHighSurrogate (n : Nat) : Bool := 0xD800 ≤ n && n ≤ 0xDBFF

def isLowSurrogate (n : Nat) : Bool := 0xDC00 ≤ n && n ≤ 0xDFFF

def joinSurrogates (high low : Nat) : Char :=
  Char.ofNat ((high - 0xD800) * 0x400 + (low - 0xDC00) + 0x10000)

/-- The byte that a letter after a backslash stands for. -/
def shortEscape? (b : UInt8) : Option UInt8 :=
  if b = '"'.toUInt8 ∨ b = '\\'.toUInt8 ∨ b = '/'.toUInt8 then some b
  else if b = 'b'.toUInt8 then some 0x08
  else if b = 'f'.toUInt8 then some 0x0C
  else if b = 'n'.toUInt8 then some 0x0A
  else if b = 'r'.toUInt8 then some 0x0D
  else if b = 't'.toUInt8 then some 0x09
  else none

/-- Puts bytes before the content that a reader returns. -/
def prepend (bs : Bytes) (r : Reading Bytes) : Reading Bytes :=
  r.map fun (content, rest) => (bs ++ content, rest)

/-- Reads the content of a string after its opening quote, up to and including
the closing one. -/
def readContent : Bytes → Reading Bytes
  | [] => stopBefore .endInString []
  | b :: r =>
    if b = '"'.toUInt8 then .ok ([], r)
    else if b ≠ '\\'.toUInt8 then
      if b < 0x20 then stopBefore .controlCharacter r else prepend [b] (readContent r)
    else
      match r with
      | [] => stopBefore .endInString []
      | e :: r₁ =>
        if e ≠ 'u'.toUInt8 then
          match shortEscape? e with
          | some x => prepend [x] (readContent r₁)
          | none => stopBefore .badEscape r₁
        else
          match r₁ with
          | a₁ :: a₂ :: a₃ :: a₄ :: r₂ =>
            match hexValue4? a₁ a₂ a₃ a₄ with
            | none => stopBefore .badEscape r₂
            | some n =>
              if isLowSurrogate n then stopBefore .unpairedSurrogate r₂
              else if !isHighSurrogate n then
                prepend (Utf8.encodeChar (Char.ofNat n)) (readContent r₂)
              else
                match r₂ with
                | [] => stopBefore .endInString []
                | x :: r₃ =>
                  if x ≠ '\\'.toUInt8 then stopBefore .surrogateCutShort r₃
                  else
                    match r₃ with
                    | [] => stopBefore .endInString []
                    | y :: r₄ =>
                      if y ≠ 'u'.toUInt8 then stopBefore .surrogateCutShort r₄
                      else
                        match r₄ with
                        | b₁ :: b₂ :: b₃ :: b₄ :: r₅ =>
                          match hexValue4? b₁ b₂ b₃ b₄ with
                          | none => stopBefore .badEscape r₅
                          | some m =>
                            if isLowSurrogate m then
                              prepend (Utf8.encodeChar (joinSurrogates n m)) (readContent r₅)
                            else stopBefore .unpairedSurrogate r₅
                        | _ => stopBefore .endInString []
          | _ => stopBefore .endInString []

/-- Reads a string after its opening quote.  Its content must be UTF-8, which
is looked at after the closing quote; the place of a fault is found by counting
back from there the bytes of content that are not good. -/
def readString (s : Bytes) : Except Stop (String × Bytes) := do
  let (content, rest) ← readContent s
  match Utf8.decode content with
  | .ok text => return (String.ofList text, rest)
  | .error fault => .error ⟨.notUtf8, rest.length + (content.length - fault.index)⟩

/-! ## Numbers -/

/-- The greatest power of ten that is counted; a literal with a greater one is
zero or out of range whatever its digits are. -/
def exponentLimit : Nat := 2147483647

/-- The digits of an exponent. -/
inductive ExponentDigits where
  | value (n : Nat) (rest : Bytes)
  | beyondLimit (rest : Bytes)

/-- Reads the digits of an exponent, up to the first one that exceeds the limit. -/
def readExponentDigits (n : Nat) : Bytes → ExponentDigits
  | [] => .value n []
  | b :: s =>
    if isDigit b then
      let n' := n * 10 + digitValue b
      if exponentLimit < n' then .beyondLimit s else readExponentDigits n' s
    else .value n (b :: s)

/-- The number of a significand, or the fault that it is out of range. -/
def finishFloat (negative : Bool) (sig : Significand) (rest : Bytes) : Reading Number :=
  match Binary64.ofSignificand? sig with
  | some x => .ok (.float (x.withSign negative), rest)
  | none => stopBefore .numberTooLarge rest

def readExponent (negative : Bool) (sig : Significand) (s : Bytes) : Reading Number :=
  let (down, s) :=
    match s with
    | [] => (false, [])
    | b :: r =>
      if b = '+'.toUInt8 then (false, r) else if b = '-'.toUInt8 then (true, r) else (false, s)
  match s with
  | [] => stopBefore .endInValue []
  | b :: r =>
    if !isDigit b then stopBefore .badNumber r
    else
      match readExponentDigits 0 s with
      | .value n rest =>
        finishFloat negative ⟨sig.digits, if down then sig.exponent - n else sig.exponent + n⟩ rest
      | .beyondLimit rest =>
        if sig.digits ≠ 0 ∧ !down then stopBefore .numberTooLarge rest
        else .ok (.float (.zero negative), rest.dropWhile isDigit)

def isExponentMark (b : UInt8) : Bool := b = 'e'.toUInt8 || b = 'E'.toUInt8

def readTail (negative : Bool) (sig : Significand) (s : Bytes) : Reading Number :=
  match s with
  | [] => finishFloat negative sig []
  | b :: r => if isExponentMark b then readExponent negative sig r else finishFloat negative sig s

def digitsValue (ds : List Nat) : Nat := ds.foldl (fun n d => n * 10 + d) 0

/-- The number of a literal without fraction and exponent.  Minus zero is a
float, and so is a literal that does not fit 64 bits. -/
def finishWhole (negative : Bool) (whole : List Nat) (rest : Bytes) : Reading Number :=
  let n := digitsValue whole
  if negative ∧ n = 0 then .ok (.float (.zero true), rest)
  else
    match Number.ofInt? (if negative then -(n : Int) else n) with
    | some x => .ok (x, rest)
    | none => finishFloat negative (.ofDigits whole []) rest

/-- Reads what follows the whole digits of a number. -/
def readFraction (negative : Bool) (whole : List Nat) (s : Bytes) : Reading Number :=
  match s with
  | [] => finishWhole negative whole []
  | b :: r =>
    if b = '.'.toUInt8 then
      let digits := r.takeWhile isDigit
      let rest := r.dropWhile isDigit
      if digits = [] then stopAt (if rest = [] then .endInValue else .badNumber) rest
      else readTail negative (.ofDigits whole (digits.map digitValue)) rest
    else if isExponentMark b then readExponent negative (.ofDigits whole []) r
    else finishWhole negative whole s

/-- Reads a number after its sign.  A zero in front stands alone. -/
def readNumber (negative : Bool) (s : Bytes) : Reading Number :=
  match s with
  | [] => stopBefore .endInValue []
  | b :: r =>
    if !isDigit b then stopBefore .badNumber r
    else if b = '0'.toUInt8 then
      if r.head?.any isDigit then stopAt .badNumber r else readFraction negative [0] r
    else readFraction negative ((s.takeWhile isDigit).map digitValue) (s.dropWhile isDigit)

/-! ## Values -/

/-- Reads the items that follow the first one.  Each takes at least a comma, so
`fuel` need not exceed the bytes that are left. -/
def readItems (item : Bytes → Reading Json) : (fuel : Nat) → Bytes → Except Stop (List Json × Bytes)
  | 0, s => stopAt .endInArray s
  | fuel + 1, s =>
    match skipSpace s with
    | [] => stopAt .endInArray []
    | b :: r =>
      if b = ']'.toUInt8 then .ok ([], r)
      else if b = ','.toUInt8 then
        match skipSpace r with
        | [] => stopAt .endInValue []
        | c :: r₁ =>
          if c = ']'.toUInt8 then stopAt .trailingComma (c :: r₁)
          else do
            let (v, s₁) ← item (c :: r₁)
            let (vs, s₂) ← readItems item fuel s₁
            return (v :: vs, s₂)
      else stopAt .noCommaOrBracket (b :: r)

def readArray (item : Bytes → Reading Json) (s : Bytes) : Except Stop (List Json × Bytes) :=
  match skipSpace s with
  | [] => stopAt .endInArray []
  | b :: r =>
    if b = ']'.toUInt8 then .ok ([], r)
    else do
      let (v, s₁) ← item (b :: r)
      let (vs, s₂) ← readItems item s₁.length s₁
      return (v :: vs, s₂)

/-- Reads a member after the opening quote of its key. -/
def readMember (item : Bytes → Reading Json) (s : Bytes) :
    Except Stop ((String × Json) × Bytes) := do
  let (key, s₁) ← readString s
  match skipSpace s₁ with
  | [] => stopAt .endInObject []
  | b :: r =>
    if b = ':'.toUInt8 then do
      let (v, s₂) ← item r
      return ((key, v), s₂)
    else stopAt .noColon (b :: r)

/-- Reads the members that follow the first one. -/
def readMembers (item : Bytes → Reading Json) :
    (fuel : Nat) → Bytes → Except Stop (List (String × Json) × Bytes)
  | 0, s => stopAt .endInObject s
  | fuel + 1, s =>
    match skipSpace s with
    | [] => stopAt .endInObject []
    | b :: r =>
      if b = '\x7d'.toUInt8 then .ok ([], r)
      else if b = ','.toUInt8 then
        match skipSpace r with
        | [] => stopAt .endInValue []
        | c :: r₁ =>
          if c = '"'.toUInt8 then do
            let (m, s₁) ← readMember item r₁
            let (ms, s₂) ← readMembers item fuel s₁
            return (m :: ms, s₂)
          else
            stopAt (if c = '\x7d'.toUInt8 then .trailingComma else .keyNotString) (c :: r₁)
      else stopAt .noCommaOrBrace (b :: r)

/-- Reads an object after its opening brace; of two members with one key the
later one counts. -/
def readObject (item : Bytes → Reading Json) (s : Bytes) : Except Stop (Record × Bytes) :=
  match skipSpace s with
  | [] => stopAt .endInObject []
  | b :: r =>
    if b = '\x7d'.toUInt8 then .ok (.empty, r)
    else if b = '"'.toUInt8 then do
      let (m, s₁) ← readMember item r
      let (ms, s₂) ← readMembers item s₁.length s₁
      return (.ofMembers (m :: ms), s₂)
    else stopAt .keyNotString (b :: r)

/-- A reader of what an opening bracket or brace begins; the bytes left are
those after it. -/
abbrev NestedReader := (isArray : Bool) → Bytes → Reading Json

def refuseNested : NestedReader := fun _ r => stopBefore .nestedTooDeep r

/-- Containers whose parts `item` reads. -/
def readNested (item : Bytes → Reading Json) : NestedReader := fun isArray r =>
  if isArray then (readArray item r).map fun (vs, rest) => (.array vs, rest)
  else (readObject item r).map fun (o, rest) => (o.toJson, rest)

/-- Reads a value whose containers `nested` reads. -/
def readValueWith (nested : NestedReader) (s : Bytes) : Reading Json :=
  match skipSpace s with
  | [] => stopAt .endInValue []
  | b :: r =>
    if b = 'n'.toUInt8 then (readWord (Utf8.encode "ull") r).map fun rest => (.null, rest)
    else if b = 't'.toUInt8 then (readWord (Utf8.encode "rue") r).map fun rest => (.bool true, rest)
    else if b = 'f'.toUInt8 then
      (readWord (Utf8.encode "alse") r).map fun rest => (.bool false, rest)
    else if b = '-'.toUInt8 then (readNumber true r).map fun (n, rest) => (.number n, rest)
    else if isDigit b then (readNumber false (b :: r)).map fun (n, rest) => (.number n, rest)
    else if b = '"'.toUInt8 then (readString r).map fun (t, rest) => (.string t, rest)
    else if b = '['.toUInt8 then nested true r
    else if b = '\x7b'.toUInt8 then nested false r
    else stopAt .noValue (b :: r)

/-- Reads a value in which at most `depth` containers are open at a time. -/
def readValue : (depth : Nat) → Bytes → Reading Json
  | 0 => readValueWith refuseNested
  | depth + 1 => readValueWith (readNested (readValue depth))

/-- The containers that may be open at a time. -/
def depthLimit : Nat := 127

/-- Reads a value and the blanks around it, to the end of the input. -/
def readWhole (s : Bytes) : Except Stop Json := do
  let (v, rest) ← readValue depthLimit s
  match skipSpace rest with
  | [] => return v
  | b :: r => stopAt .trailingText (b :: r)

/-- The value that the bytes hold, or why and where they hold none. -/
def parse (input : Bytes) : Except Fault Json :=
  (readWhole input).mapError (·.locate input)

def parseText (text : String) : Except Fault Json := parse (Utf8.encode text)

end AgentHooks.Json
