import RelayGateway.Basic

namespace RelayGateway.Link.Endpoint

def digit? (base : Nat) (c : Char) : Option Nat :=
  let value :=
    if '0' ≤ c ∧ c ≤ '9' then c.toNat - 48
    else if 'a' ≤ c ∧ c ≤ 'f' then c.toNat - 87
    else if 'A' ≤ c ∧ c ≤ 'F' then c.toNat - 55
    else base
  if value < base then some value else none

def number? (base limit : Nat) (text : List Char) : Option Nat := do
  let digits ← text.mapM (digit? base)
  let value := digits.foldl (fun n d => base * n + d) 0
  if digits.isEmpty || limit < value then none else some value

-- A part of a dotted address: decimal, octal after a zero, hexadecimal after `0x`.
def part? (limit : Nat) : List Char → Option Nat
  | '0' :: 'x' :: rest => number? 16 limit rest
  | '0' :: 'X' :: rest => number? 16 limit rest
  | '0' :: rest => number? 8 limit ('0' :: rest)
  | text => number? 10 limit text

def fields (separator : Char) (text : List Char) : List (List Char) :=
  (text.splitOnP (· == separator))

-- A dotted address of up to four parts, of which the last holds all bytes that are left.
def isDotted (text : List Char) : Bool :=
  let parts := fields '.' text
  let last := 256 ^ (5 - parts.length) - 1
  1 ≤ parts.length && parts.length ≤ 4 &&
    (parts.dropLast.all fun part => (part? 255 part).isSome) &&
    ((parts.getLast?.bind (part? last)).isSome)

-- A part of a dotted address within a longer one: up to three digits without a leading zero.
def isPlainPart (text : List Char) : Bool :=
  (number? 10 255 text).isSome && (text.length == 1 || text.head? != some '0') && text.length ≤ 3

def isPlainDotted (text : List Char) : Bool :=
  let parts := fields '.' text
  parts.length == 4 && parts.all isPlainPart

def isGroup (text : List Char) : Bool :=
  text.length ≤ 4 && (number? 16 0xFFFF text).isSome

-- How many groups a list of groups takes up, if it is well-formed. A dotted address may stand
-- in its last place and takes up two.
def groupCount? (dottedTail : Bool) (text : List Char) : Option Nat :=
  if text.isEmpty then some 0
  else
    let groups := fields ':' text
    if groups.all isGroup then some groups.length
    else if dottedTail && groups.dropLast.all isGroup &&
        (groups.getLast?.map isPlainDotted).getD false then
      some (groups.length + 1)
    else none

def atGap : List Char → Option (List Char × List Char)
  | ':' :: ':' :: rest => some ([], rest)
  | c :: rest => (atGap rest).map fun (before, after) => (c :: before, after)
  | [] => none

-- An address of eight groups, some of which may be left out at a double colon.
def isGrouped (text : List Char) : Bool :=
  match atGap text with
  | none => groupCount? true text == some 8
  | some (before, after) =>
    match groupCount? false before, groupCount? true after with
    | some front, some back => front + back ≤ 7
    | _, _ => false

-- A grouped address that may name its zone by number.
def isZoned (text : List Char) : Bool :=
  let address := text.takeWhile (· != '%')
  let zone := text.dropWhile (· != '%')
  isGrouped address && (zone.isEmpty || (number? 10 (2 ^ 32 - 1) (zone.drop 1)).isSome)

def isPort (text : List Char) : Bool := (number? 10 65535 text).isSome

def isBracketed : List Char → Bool
  | '[' :: rest =>
    match rest.dropWhile (· != ']') with
    | ']' :: ':' :: port => isZoned (rest.takeWhile (· != ']')) && isPort port
    | _ => false
  | _ => false

def isHostAndPort (text : List Char) : Bool :=
  let port := (text.reverse.takeWhile (· != ':')).reverse
  let host := text.take (text.length - port.length - 1)
  let digits := if port.head? = some '+' then port.drop 1 else port
  port.length < text.length && isPort digits && (isDotted host || isZoned host)

def isNumeric (endpoint : String) : Bool :=
  isBracketed endpoint.toList || isHostAndPort endpoint.toList

def available (endpoints : List String) : List String := endpoints.filter isNumeric

def unresolvedMessage (endpoint : String) : String := s!"cannot resolve {endpoint}"

end RelayGateway.Link.Endpoint
