/-
UTF-8: the bytes of a text, and the text that some bytes hold.

`scan` cuts any byte sequence into characters and faults; it never fails.
Reading strictly (`decode`), reading leniently (`decodeLossy`) and the place
of the first fault are views of that one scan.  Pure definitions over lists,
so that everything above can be stated by induction on the text.
-/

namespace AgentHooks

/-- A byte sequence: a line of a stream, the content of a file. -/
abbrev Bytes := List UInt8

namespace Utf8

/-- The bytes of one character, one to four of them. -/
def encodeChar (c : Char) : Bytes :=
  let n := c.toNat
  if n < 0x80 then [UInt8.ofNat n]
  else if n < 0x800 then [UInt8.ofNat (0xC0 + n / 0x40), UInt8.ofNat (0x80 + n % 0x40)]
  else if n < 0x10000 then
    [UInt8.ofNat (0xE0 + n / 0x1000), UInt8.ofNat (0x80 + n / 0x40 % 0x40),
      UInt8.ofNat (0x80 + n % 0x40)]
  else
    [UInt8.ofNat (0xF0 + n / 0x40000), UInt8.ofNat (0x80 + n / 0x1000 % 0x40),
      UInt8.ofNat (0x80 + n / 0x40 % 0x40), UInt8.ofNat (0x80 + n % 0x40)]

def encodeChars (cs : List Char) : Bytes := cs.flatMap encodeChar

def encode (s : String) : Bytes := encodeChars s.toList

/-- What a scan finds at one place: a character, a sequence that no character
begins with (its length says how much is wrong), or a character that the end
of the input cuts off. -/
inductive Piece where
  | char (c : Char)
  | broken (length : Nat)
  | unfinished
deriving DecidableEq, Repr

def isTail (b : UInt8) : Bool := 0x80 ≤ b && b ≤ 0xBF

/-- The second bytes that may follow the lead byte of a three-byte character:
no overlong form and no surrogate. -/
def isSecondOfThree (a b : UInt8) : Bool :=
  if a = 0xE0 then 0xA0 ≤ b && b ≤ 0xBF
  else if a = 0xED then 0x80 ≤ b && b ≤ 0x9F
  else isTail b

/-- The second bytes that may follow the lead byte of a four-byte character:
no overlong form and nothing above U+10FFFF. -/
def isSecondOfFour (a b : UInt8) : Bool :=
  if a = 0xF0 then 0x90 ≤ b && b ≤ 0xBF
  else if a = 0xF4 then 0x80 ≤ b && b ≤ 0x8F
  else isTail b

def join2 (a b : UInt8) : Char :=
  Char.ofNat (a.toNat % 0x20 * 0x40 + b.toNat % 0x40)

def join3 (a b c : UInt8) : Char :=
  Char.ofNat (a.toNat % 0x10 * 0x1000 + b.toNat % 0x40 * 0x40 + c.toNat % 0x40)

def join4 (a b c d : UInt8) : Char :=
  Char.ofNat (a.toNat % 0x08 * 0x40000 + b.toNat % 0x40 * 0x1000 + c.toNat % 0x40 * 0x40 +
    d.toNat % 0x40)

/-- The bytes of a character that has begun and is not complete. -/
inductive Pending where
  | none
  | one (a : UInt8)
  | two (a b : UInt8)
  | three (a b c : UInt8)
deriving DecidableEq, Repr

def start (b : UInt8) : List Piece × Pending :=
  if b < 0x80 then ([.char (Char.ofNat b.toNat)], .none)
  else if 0xC2 ≤ b ∧ b ≤ 0xF4 then ([], .one b)
  else ([.broken 1], .none)

/-- A byte that does not continue the `n` bytes before it: they are a fault,
and the byte itself begins anew. -/
def refuse (n : Nat) (b : UInt8) : List Piece × Pending :=
  (.broken n :: (start b).1, (start b).2)

/-- One byte: what it completes, and what is pending after it. -/
def step : Pending → UInt8 → List Piece × Pending
  | .none, b => start b
  | .one a, b =>
    if a ≤ 0xDF then if isTail b then ([.char (join2 a b)], .none) else refuse 1 b
    else if a ≤ 0xEF then if isSecondOfThree a b then ([], .two a b) else refuse 1 b
    else if isSecondOfFour a b then ([], .two a b) else refuse 1 b
  | .two a b, c =>
    if isTail c then if a ≤ 0xEF then ([.char (join3 a b c)], .none) else ([], .three a b c)
    else refuse 2 c
  | .three a b c, d => if isTail d then ([.char (join4 a b c d)], .none) else refuse 3 d

/-- The pieces of the bytes that follow the pending ones. -/
def scanFrom : Pending → Bytes → List Piece
  | .none, [] => []
  | _, [] => [.unfinished]
  | p, b :: r => (step p b).1 ++ scanFrom (step p b).2 r

/-- Cuts bytes into characters and faults.  A fault takes the longest start of
a character that is there, and at least one byte. -/
def scan (bs : Bytes) : List Piece := scanFrom .none bs

/-- Where bytes stop being UTF-8: the index of the fault, and the length of the
wrong sequence unless the input just ends too early. -/
structure Fault where
  index : Nat
  length : Option Nat
deriving DecidableEq, Repr

def Fault.message (f : Fault) : String :=
  match f.length with
  | some n => s!"invalid utf-8 sequence of {n} bytes from index {f.index}"
  | none => s!"incomplete utf-8 byte sequence from index {f.index}"

/-- The characters of a scan that starts at byte `index`, or its first fault. -/
def collect (index : Nat) : List Piece → Except Fault (List Char)
  | [] => .ok []
  | .char c :: ps => (collect (index + (encodeChar c).length) ps).map (c :: ·)
  | .broken n :: _ => .error ⟨index, some n⟩
  | .unfinished :: _ => .error ⟨index, none⟩

/-- The characters that the bytes hold, when they are UTF-8 to the end. -/
def decode (bs : Bytes) : Except Fault (List Char) := collect 0 (scan bs)

/-- The text that the bytes hold, when they are UTF-8 to the end. -/
def decodeText? (bs : Bytes) : Option String := (decode bs).toOption.map String.ofList

/-- The character that stands for a piece when faults are replaced. -/
def Piece.lossy : Piece → Char
  | .char c => c
  | .broken _ => '\uFFFD'
  | .unfinished => '\uFFFD'

/-- The characters that the bytes hold, with U+FFFD in place of every fault. -/
def decodeLossy (bs : Bytes) : List Char := (scan bs).map Piece.lossy

end Utf8

end AgentHooks
