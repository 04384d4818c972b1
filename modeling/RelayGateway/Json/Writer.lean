import RelayGateway.Json.Value
import RelayGateway.Floating.Text

namespace RelayGateway.Json

def controlEscape (c : Char) : String :=
  let digit (n : Nat) : Char := Char.ofNat (if n < 10 then 48 + n else 87 + n)
  String.ofList ['\\', 'u', '0', '0', digit (c.toNat / 16), digit (c.toNat % 16)]

-- A character within a string. Only quotes, backslashes and control characters are escaped.
def writeChar (c : Char) : String :=
  if c = '"' then "\\\""
  else if c = '\\' then "\\\\"
  else if c = '\x08' then "\\b"
  else if c = '\t' then "\\t"
  else if c = '\n' then "\\n"
  else if c = '\x0c' then "\\f"
  else if c = '\r' then "\\r"
  else if c.toNat < 0x20 then controlEscape c
  else String.singleton c

def writeString (s : String) : String :=
  "\"" ++ String.join (s.toList.map writeChar) ++ "\""

def Number.write : Number → String
  | natural n => toString n
  | negative n => toString n
  | binary x => x.documentText?.getD "null"

mutual

def Value.write : Value → String
  | .null => "null"
  | .bool b => if b then "true" else "false"
  | .number n => n.write
  | .string s => writeString s
  | .array items => "[" ++ writeItems items ++ "]"
  | .object members => "\x7b" ++ writeMembers members ++ "\x7d"

def Value.writeItems : List Value → String
  | [] => ""
  | [item] => item.write
  | item :: rest => item.write ++ "," ++ writeItems rest

def Value.writeMembers : List (String × Value) → String
  | [] => ""
  | [(key, item)] => writeString key ++ ":" ++ item.write
  | (key, item) :: rest => writeString key ++ ":" ++ item.write ++ "," ++ writeMembers rest

end

end RelayGateway.Json
