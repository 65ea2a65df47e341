import Curator.Json.Basic
/-!
Documents: trees that records can be read from, whatever notation they were written in. A notation
says how it spells texts, numbers, lists and records, and which value stands for "nothing here".
The functions below read members of records on top of that.
-/

set_option autoImplicit false

namespace Curator

class Document (α : Type) where
  text? : α → Option String
  choice? : α → Option String
  flag? : α → Option Bool
  natural? : α → Option Nat
  real? : α → Option Float
  items? : α → Option (List α)
  -- The members of a record that bear one of the given names; none when such a name occurs twice
  -- or the tree is no record.
  members? : List String → α → Option (List (String × α))
  row? : α → Option Row
  isAbsent? : α → Option Bool

namespace Document

variable {α β : Type} [Document α]

def list? (item? : α → Option β) (tree : α) : Option (List β) :=
  (items? tree).bind fun items => items.mapM item?

def optional? (value? : α → Option β) (tree : α) : Option (Option β) := do
  if ← isAbsent? tree then return none
  return some (← value? tree)

def required? (value? : α → Option β) (name : String) (members : List (String × α)) : Option β :=
  (members.lookup name).bind value?

def memberOr? (fallback : β) (value? : α → Option β) (name : String)
    (members : List (String × α)) : Option β :=
  match members.lookup name with
  | some tree => value? tree
  | none => some fallback

def listOr? (item? : α → Option β) (name : String) (members : List (String × α)) :
    Option (List β) :=
  memberOr? [] (list? item?) name members

def optionalOr? (value? : α → Option β) (name : String) (members : List (String × α)) :
    Option (Option β) :=
  memberOr? none (optional? value?) name members

end Document

namespace Json

-- A record may also be a list of its members' values in the order of their names, of which the
-- last ones may be missing.
def recordMembers? (names : List String) : Json → Option (List (String × Json))
  | .object members =>
      let known := members.filter fun member => names.contains member.1
      if (known.map Prod.fst).Nodup then some known else none
  | .array items => if items.length ≤ names.length then some (names.zip items) else none
  | _ => none

instance : Document Json where
  text? := string?
  choice?
    | .string name => some name
    | .object [(name, .null)] => some name
    | _ => none
  flag? := bool?
  natural? := nat64?
  real? := float?
  items? := array?
  members? := recordMembers?
  row? := object?
  isAbsent? tree := some tree.isNull

end Json

end Curator
