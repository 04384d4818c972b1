import RelayGateway.Json.Token

namespace RelayGateway.Json

inductive Tree where
  | null
  | bool (value : Bool)
  | number (written : Numeral)
  | string (written : Text)
  | array (items : List Tree)
  | object (members : List (Text × Tree))

-- What encloses a value: the containers around it, innermost first, each with the values in
-- front of it, last one first.
inductive Context where
  | top
  | item (before : List Tree) (outer : Context)
  | member (before : List (Text × Tree)) (key : Text) (outer : Context)

inductive Machine where
  -- A value, or the end of the array that has just been opened.
  | value (context : Context) (mayClose : Bool)
  -- A key, or the end of the object that has just been opened.
  | key (before : List (Text × Tree)) (outer : Context) (mayClose : Bool)
  | colon (before : List (Text × Tree)) (key : Text) (outer : Context)
  | after (value : Tree) (context : Context)

namespace Machine

def step : Machine → Token → Option Machine
  | .value context mayClose, token =>
    match token with
    | .null => some (.after .null context)
    | .bool b => some (.after (.bool b) context)
    | .number n => some (.after (.number n) context)
    | .string s => some (.after (.string s) context)
    | .openArray => some (.value (.item [] context) true)
    | .openObject => some (.key [] context true)
    | .closeArray =>
      match mayClose, context with
      | true, .item _ outer => some (.after (.array []) outer)
      | _, _ => none
    | _ => none
  | .key before outer mayClose, token =>
    match token with
    | .string k => some (.colon before k outer)
    | .closeObject => if mayClose then some (.after (.object []) outer) else none
    | _ => none
  | .colon before k outer, token =>
    match token with
    | .colon => some (.value (.member before k outer) false)
    | _ => none
  | .after v context, token =>
    match context, token with
    | .item before outer, .comma => some (.value (.item (v :: before) outer) false)
    | .item before outer, .closeArray => some (.after (.array (v :: before).reverse) outer)
    | .member before k outer, .comma => some (.key ((k, v) :: before) outer false)
    | .member before k outer, .closeObject =>
      some (.after (.object ((k, v) :: before).reverse) outer)
    | _, _ => none

def start : Machine := .value .top false

def result? : Machine → Option Tree
  | .after v .top => some v
  | _ => none

end Machine

def Tree.ofTokens? (tokens : List Token) : Option Tree := do
  let m ← tokens.foldlM Machine.step Machine.start
  m.result?

def Tree.parse? (bytes : List UInt8) : Option Tree := do
  Tree.ofTokens? (← tokens? bytes)

end RelayGateway.Json
