import Curator.Json.Reader
/-!
Reading a record from text. The members that are wanted are read; the others are skipped, and what
they hold is checked against the grammar alone: it may nest at any depth, its numbers may be of any
size, and an escape may name half a character.
-/

set_option autoImplicit false

namespace Curator.Json

def skipChars? : List Char → Option (List Char)
  | [] => none
  | '"' :: rest => some rest
  | '\\' :: 'u' :: a :: b :: c :: d :: rest =>
      if (unit? a b c d).isSome then skipChars? rest else none
  | '\\' :: c :: rest => if (escaped? c).isSome then skipChars? rest else none
  | c :: rest => if c.toNat < 0x20 then none else skipChars? rest

def skipName? (text : List Char) : Option (List Char) :=
  match skipSpace text with
  | '"' :: rest => (skipChars? rest).bind fun after =>
      match skipSpace after with
      | ':' :: body => some body
      | _ => none
  | _ => none

def skipScalar? (text : List Char) : Option (List Char) :=
  match text with
  | '"' :: rest => skipChars? rest
  | c :: _ =>
      if c = '-' ∨ (digit? c).isSome then (readNumeral? text).map Prod.snd
      else (keyword? text).map Prod.snd
  | [] => none

mutual
def skipValue? : Nat → List Char → Option (List Char)
  | 0, _ => none
  | fuel + 1, text =>
      match skipSpace text with
      | '[' :: rest => match skipSpace rest with
          | ']' :: after => some after
          | body => skipItems? fuel body
      | '{' :: rest => match skipSpace rest with
          | '}' :: after => some after
          | body => skipMembers? fuel body
      | body => skipScalar? body

def skipItems? : Nat → List Char → Option (List Char)
  | 0, _ => none
  | fuel + 1, text =>
      match (skipValue? fuel text).map skipSpace with
      | some (']' :: after) => some after
      | some (',' :: more) => skipItems? fuel more
      | _ => none

def skipMembers? : Nat → List Char → Option (List Char)
  | 0, _ => none
  | fuel + 1, text =>
      match ((skipName? text).bind (skipValue? fuel)).map skipSpace with
      | some ('}' :: after) => some after
      | some (',' :: more) => skipMembers? fuel more
      | _ => none
end

def readWanted? (wanted : List String) (depth : Nat) :
    Nat → List Char → Option (List (String × Json) × List Char)
  | 0, _ => none
  | fuel + 1, text =>
      match skipSpace text with
      | '"' :: rest => do
          let (chars, afterName) ← readChars? rest
          let name := String.ofList chars
          match skipSpace afterName with
          | ':' :: body =>
              let (members, afterValue) ← if name ∈ wanted then
                  (readValue? depth fuel body).map fun (value, after) => ([(name, value)], after)
                else (skipValue? fuel body).map fun after => ([], after)
              match skipSpace afterValue with
              | '}' :: after => some (members, after)
              | ',' :: more =>
                  (readWanted? wanted depth fuel more).map fun (others, after) =>
                    (members ++ others, after)
              | _ => none
          | _ => none
      | _ => none

def readRecord? (wanted : List String) (text : String) : Option Json :=
  let chars := text.toList
  match skipSpace chars with
  | '{' :: rest => match skipSpace rest with
      | '}' :: after => if (skipSpace after).isEmpty then some (.object []) else none
      | body => match readWanted? wanted (maxDepth - 1) (2 * chars.length + 2) body with
          | some (members, after) =>
              if (skipSpace after).isEmpty then some (.object members) else none
          | none => none
  | _ => read? text

end Curator.Json
