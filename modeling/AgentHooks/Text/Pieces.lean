/-
Cutting a sequence at a separator, bytes into physical lines, and a text at a
place.

A cut keeps every piece, also the empty ones; lines keep their line feed, so
that joining them gives the bytes back.  A place is a number of bytes, and no
text can be cut at one that is inside of a character.
-/

namespace AgentHooks.Text

/-- The pieces between the elements that satisfy `sep`; there is always one
more piece than separators. -/
def cut {α : Type} (sep : α → Bool) : List α → List (List α)
  | [] => [[]]
  | x :: xs =>
    if sep x then [] :: cut sep xs
    else
      match cut sep xs with
      | [] => [[x]]
      | p :: ps => (x :: p) :: ps

/-- The pieces of a text between the characters `sep`. -/
def cutText (sep : Char) (s : String) : List String :=
  (cut (· == sep) s.toList).map String.ofList

/-- The start of a sequence up to the last element that satisfies `sep`. -/
def upToLast {α : Type} (sep : α → Bool) (xs : List α) : List α :=
  (xs.reverse.dropWhile fun x => !sep x).reverse

/-- A place where no text can be cut. -/
structure CutFault where
  place : Nat
deriving DecidableEq, Repr

def CutFault.message (f : CutFault) : String := s!"byte {f.place} is inside of a character"

/-- The characters that take a number of bytes, and those after them, if they
take as many exactly. -/
def splitAtByte? : (place : Nat) → List Char → Option (List Char × List Char)
  | 0, cs => some ([], cs)
  | _ + 1, [] => none
  | n + 1, c :: cs =>
    if c.utf8Size ≤ n + 1 then
      (splitAtByte? (n + 1 - c.utf8Size) cs).map fun (start, rest) => (c :: start, rest)
    else none

def cutAtByte (place : Nat) (cs : List Char) : Except CutFault (List Char × List Char) :=
  match splitAtByte? place cs with
  | some halves => .ok halves
  | none => .error ⟨place⟩

def lineFeed : UInt8 := 0x0A

/-- The physical lines of some bytes: up to and including each line feed, and
what is left after the last one if it is not empty. -/
def physicalLines : List UInt8 → List (List UInt8)
  | [] => []
  | b :: r =>
    if b = lineFeed then [b] :: physicalLines r
    else
      match physicalLines r with
      | [] => [[b]]
      | l :: ls => (b :: l) :: ls

end AgentHooks.Text
