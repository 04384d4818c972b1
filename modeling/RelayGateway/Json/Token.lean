namespace RelayGateway.Json

-- A piece of a written string: a byte of text, or a 16-bit unit given by its hexadecimal
-- digits.
inductive Piece where
  | byte (value : UInt8)
  | unit (value : UInt16)
  deriving DecidableEq, Repr

abbrev Text := List Piece

structure Numeral where
  negative : Bool
  whole : List Nat
  fraction : Option (List Nat)
  exponent : Option (Bool × List Nat)
  deriving DecidableEq, Repr

inductive Token where
  | openArray
  | closeArray
  | openObject
  | closeObject
  | comma
  | colon
  | null
  | bool (value : Bool)
  | number (written : Numeral)
  | string (written : Text)
  deriving DecidableEq, Repr

def ascii (c : Char) : UInt8 := c.toNat.toUInt8

def isBlank (b : UInt8) : Bool :=
  b == 0x20 || b == 0x09 || b == 0x0A || b == 0x0D

def isDigit (b : UInt8) : Bool := ascii '0' ≤ b && b ≤ ascii '9'

def digitValue (b : UInt8) : Nat := b.toNat - 48

def hexValue? (b : UInt8) : Option Nat :=
  if isDigit b then some (digitValue b)
  else if ascii 'a' ≤ b && b ≤ ascii 'f' then some (b.toNat - 87)
  else if ascii 'A' ≤ b && b ≤ ascii 'F' then some (b.toNat - 55)
  else none

namespace Numeral

def digits? (letters : List UInt8) : Option (List Nat × List UInt8) :=
  match letters.takeWhile isDigit with
  | [] => none
  | ds => some (ds.map digitValue, letters.dropWhile isDigit)

-- The digits before the point: no zero stands in front of others.
def whole? (letters : List UInt8) : Option (List Nat × List UInt8) := do
  let (ds, rest) ← digits? letters
  if ds.head? = some 0 ∧ 1 < ds.length then none else some (ds, rest)

def fraction? : List UInt8 → Option (Option (List Nat) × List UInt8)
  | [] => some (none, [])
  | b :: rest =>
    if b = ascii '.' then do
      let (ds, rest) ← digits? rest
      return (some ds, rest)
    else some (none, b :: rest)

def exponentSign : List UInt8 → Bool × List UInt8
  | [] => (false, [])
  | b :: rest =>
    if b = ascii '-' then (true, rest)
    else if b = ascii '+' then (false, rest)
    else (false, b :: rest)

def exponent? : List UInt8 → Option (Option (Bool × List Nat) × List UInt8)
  | [] => some (none, [])
  | b :: rest =>
    if b = ascii 'e' ∨ b = ascii 'E' then do
      let (negative, rest) := exponentSign rest
      let (ds, rest) ← digits? rest
      return (some (negative, ds), rest)
    else some (none, b :: rest)

def ofLetters? (letters : List UInt8) : Option Numeral := do
  let (negative, rest) :=
    match letters with
    | b :: rest => if b = ascii '-' then (true, rest) else (false, letters)
    | [] => (false, [])
  let (whole, rest) ← whole? rest
  let (fraction, rest) ← fraction? rest
  let (exponent, rest) ← exponent? rest
  if rest.isEmpty then some ⟨negative, whole, fraction, exponent⟩ else none

end Numeral

namespace Token

def ofPunctuation? (b : UInt8) : Option Token :=
  if b = ascii '[' then some openArray
  else if b = ascii ']' then some closeArray
  else if b = ascii '{' then some openObject
  else if b = ascii '}' then some closeObject
  else if b = ascii ',' then some comma
  else if b = ascii ':' then some colon
  else none

def letters (word : String) : List UInt8 := word.toList.map ascii

def ofLetters? (word : List UInt8) : Option Token :=
  if word = letters "null" then some null
  else if word = letters "true" then some (bool true)
  else if word = letters "false" then some (bool false)
  else (Numeral.ofLetters? word).map number

end Token

-- What the scanner is within. What it has of a word or a string is held last part first.
inductive Mode where
  | plain
  | word (letters : List UInt8)
  | quoted (pieces : Text)
  | escape (pieces : Text)
  | hex (pieces : Text) (count value : Nat)
  deriving DecidableEq, Repr

-- Strings and numbers are kept as they are written: whether they are well-formed or within range
-- matters only to a reader that keeps their values.
structure Scanner where
  mode : Mode := .plain
  found : List Token := []
  deriving DecidableEq, Repr

namespace Scanner

def emit (s : Scanner) (t : Token) : Scanner := ⟨.plain, t :: s.found⟩

def endWord (s : Scanner) : Option Scanner :=
  match s.mode with
  | .word letters => (Token.ofLetters? letters.reverse).map s.emit
  | _ => some s

def escaped? (b : UInt8) : Option UInt8 :=
  if b = ascii '"' ∨ b = ascii '\\' ∨ b = ascii '/' then some b
  else if b = ascii 'b' then some 0x08
  else if b = ascii 'f' then some 0x0C
  else if b = ascii 'n' then some 0x0A
  else if b = ascii 'r' then some 0x0D
  else if b = ascii 't' then some 0x09
  else none

def step (s : Scanner) (b : UInt8) : Option Scanner :=
  match s.mode with
  | .quoted pieces =>
    if b = ascii '"' then some (s.emit (.string pieces.reverse))
    else if b = ascii '\\' then some { s with mode := .escape pieces }
    else if b < 0x20 then none
    else some { s with mode := .quoted (.byte b :: pieces) }
  | .escape pieces =>
    if b = ascii 'u' then some { s with mode := .hex pieces 0 0 }
    else (escaped? b).map fun meant => { s with mode := .quoted (.byte meant :: pieces) }
  | .hex pieces count value =>
    (hexValue? b).map fun digit =>
      let value := 16 * value + digit
      if count = 3 then { s with mode := .quoted (.unit value.toUInt16 :: pieces) }
      else { s with mode := .hex pieces (count + 1) value }
  | .plain | .word _ =>
    if isBlank b then s.endWord.map fun s => { s with mode := .plain }
    else if b = ascii '"' then s.endWord.map fun s => { s with mode := .quoted [] }
    else match Token.ofPunctuation? b with
      | some t => s.endWord.map (·.emit t)
      | none =>
        match s.mode with
        | .word letters => some { s with mode := .word (b :: letters) }
        | _ => some { s with mode := .word [b] }

def finish (s : Scanner) : Option (List Token) := do
  let s ← s.endWord
  match s.mode with
  | .plain => some s.found.reverse
  | _ => none

end Scanner

def tokens? (bytes : List UInt8) : Option (List Token) := do
  let s ← bytes.foldlM Scanner.step {}
  s.finish

end RelayGateway.Json
