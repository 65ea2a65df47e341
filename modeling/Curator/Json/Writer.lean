import Curator.Json.Basic
import Curator.Decimal.Layout
/-!
Writing JSON text without spaces. Text stays as it is except for what a string must escape.
-/

set_option autoImplicit false

namespace Curator

def Number.text : Number → String
  | .int value => toString value
  | .double value => Decimal.write Decimal.jsonLayout value

namespace Json

def hexChar (digit : Nat) : Char := Nat.digitChar digit

def escape (c : Char) : List Char :=
  if c = '"' then ['\\', '"']
  else if c = '\\' then ['\\', '\\']
  else if c = '\x08' then ['\\', 'b']
  else if c = '\x0c' then ['\\', 'f']
  else if c = '\n' then ['\\', 'n']
  else if c = '\r' then ['\\', 'r']
  else if c = '\t' then ['\\', 't']
  else if c.toNat < 0x20 then
    ['\\', 'u', '0', '0', hexChar (c.toNat / 16), hexChar (c.toNat % 16)]
  else [c]

def quoted (text : String) : String :=
  "\"" ++ String.ofList (text.toList.flatMap escape) ++ "\""

mutual
def write : Json → String
  | .null => "null"
  | .bool true => "true"
  | .bool false => "false"
  | .number value => value.text
  | .string text => quoted text
  | .array items => "[" ++ String.intercalate "," (writeItems items) ++ "]"
  | .object members => "\x7b" ++ String.intercalate "," (writeMembers members) ++ "\x7d"

def writeItems : List Json → List String
  | [] => []
  | item :: rest => write item :: writeItems rest

def writeMembers : List (String × Json) → List String
  | [] => []
  | (name, value) :: rest => (quoted name ++ ":" ++ write value) :: writeMembers rest
end

def describe : Json → String
  | .null => "null"
  | .bool _ => "bool"
  | .number value => "number " ++ value.text
  | .string _ => "string"
  | .array _ => "array"
  | .object _ => "object"

def key? : Json → Option String
  | .string text => some text
  | .number value => some value.text
  | .bool true => some "true"
  | .bool false => some "false"
  | _ => none

end Json

end Curator
