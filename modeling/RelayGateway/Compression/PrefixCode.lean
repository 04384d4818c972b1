import RelayGateway.Basic

namespace RelayGateway.Compression

abbrev Bits := List Bool

-- The low `count` bits of a number, the lowest first.
def lowBits (count n : Nat) : Bits := (List.range count).map n.testBit

def highBits (count n : Nat) : Bits := (lowBits count n).reverse

def bitsOfBytes (bytes : List UInt8) : Bits := bytes.flatMap fun b => lowBits 8 b.toNat

def takeNumber? : (count : Nat) → Bits → Option (Nat × Bits)
  | 0, bits => some (0, bits)
  | _ + 1, [] => none
  | count + 1, b :: rest => do
    let (high, rest) ← takeNumber? count rest
    return (b.toNat + 2 * high, rest)

inductive CodeTree where
  | empty
  | symbol (value : Nat)
  | node (zero one : CodeTree)
  deriving Repr

namespace CodeTree

def branch (bit : Bool) : CodeTree → CodeTree
  | node zero one => if bit then one else zero
  | _ => empty

def insert (value : Nat) : Bits → CodeTree → CodeTree
  | [], _ => symbol value
  | false :: rest, t => node (insert value rest (t.branch false)) (t.branch true)
  | true :: rest, t => node (t.branch false) (insert value rest (t.branch true))

def decode? : CodeTree → Bits → Option (Nat × Bits)
  | symbol value, bits => some (value, bits)
  | empty, _ => none
  | node _ _, [] => none
  | node zero one, bit :: rest => if bit then one.decode? rest else zero.decode? rest

end CodeTree

def maxWord : Nat := 15

def symbolsOfLength (lengths : List Nat) (length : Nat) : List Nat :=
  (lengths.zipIdx.filter (·.1 == length)).map (·.2)

-- Shorter words come first, and words of one length follow each other in the order of their
-- symbols.
def codeWords (lengths : List Nat) : List (Bits × Nat) :=
  let step (state : Nat × List (List (Bits × Nat))) (length : Nat) :=
    let (code, words) := state
    let symbols := symbolsOfLength lengths length
    let first := 2 * code
    let these := symbols.zipIdx.map fun (symbol, i) => (highBits length (first + i), symbol)
    (first + symbols.length, these :: words)
  ((List.range' 1 maxWord).foldl step (0, [])).2.reverse.flatten

-- Whether the words fill all the room there is: each word of length `n` takes up one part in
-- `2 ^ n` of it.
def isComplete (lengths : List Nat) : Bool :=
  let taken := (lengths.filter (· ≠ 0)).foldl (fun taken length => taken + 2 ^ (maxWord - length)) 0
  taken == 2 ^ maxWord

-- The code of given word lengths, where zero is for symbols without a word. A code has to be
-- complete, except that one with a single word or none may be `sparse`.
def CodeTree.ofLengths? (sparse : Bool) (lengths : List Nat) : Option CodeTree :=
  if isComplete lengths || (sparse && (lengths.filter (· ≠ 0)).length ≤ 1) then
    some ((codeWords lengths).foldl (fun tree (word, value) => tree.insert value word) .empty)
  else none

end RelayGateway.Compression
