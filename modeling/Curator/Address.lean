import Curator.Failure
/-!
Addresses of models: resource identifiers with a scheme, an authority and a path, or an authority
or a path alone. The check goes through the text once and names the first thing that is wrong.
-/

set_option autoImplicit false

namespace Curator.Address

def isSchemeChar (c : Char) : Bool := c.isAlphanum || "+-.~".contains c

def isPlain (c : Char) : Bool := c.isAlphanum || "!$&'()*+,-.;=_~".contains c

def endsAuthority (c : Char) : Bool := c = '/' || c = '?' || c = '#'

def maxLength : Nat := 65534

def maxSchemeLength : Nat := 64

def afterScheme (text : List Char) : Except AddressFault (Option (List Char)) :=
  if text.length ≤ 3 then .ok none
  else match text.dropWhile isSchemeChar with
    | ':' :: '/' :: '/' :: rest =>
        if maxSchemeLength < (text.takeWhile isSchemeChar).length then .error .schemeTooLong
        else .ok (some rest)
    | _ => .ok none

structure Authority where
  colons : Nat
  opened : Bool
  closed : Bool
  escaped : Bool
  afterUser : Bool
deriving DecidableEq, Repr

namespace Authority

def start : Authority := ⟨0, false, false, false, false⟩

def step (seen : Authority) (c : Char) : Except AddressFault Authority :=
  let plain := { seen with afterUser := false }
  if c = ':' then
    if 8 ≤ seen.colons then .error .invalidAuthority
    else .ok { plain with colons := seen.colons + 1 }
  else if c = '[' then
    if seen.escaped || seen.opened then .error .invalidAuthority
    else .ok { plain with opened := true }
  else if c = ']' then
    if !seen.opened || seen.closed then .error .invalidAuthority
    else .ok { plain with closed := true, colons := 0, escaped := false }
  else if c = '@' then .ok { seen with colons := 0, escaped := false, afterUser := true }
  else if c = '%' then .ok { plain with escaped := true }
  else if isPlain c then .ok plain
  else .error .invalidCharacter

def isComplete (seen : Authority) : Bool :=
  seen.opened == seen.closed && seen.colons ≤ 1 && !seen.afterUser && !seen.escaped

def check (text : List Char) : Except AddressFault Unit := do
  let seen ← text.foldlM step start
  if seen.isComplete then return () else throw .invalidAuthority

end Authority

def inRange (low high : Nat) (c : Char) : Bool := low ≤ c.toNat && c.toNat ≤ high

-- What a path or a query may be written in: a target on the wire may show any character beyond
-- ASCII, an address that is kept may not.
inductive Alphabet where
  | ascii
  | unicode
deriving DecidableEq, Repr

def Alphabet.hasBeyondAscii (alphabet : Alphabet) (c : Char) : Bool :=
  alphabet = .unicode && 0x80 ≤ c.toNat

def inPath (alphabet : Alphabet) (c : Char) : Bool :=
  c = '!' || inRange 0x24 0x3b c || c = '=' || inRange 0x40 0x5f c || inRange 0x61 0x7e c
    || c = '"' || alphabet.hasBeyondAscii c

def inQuery (alphabet : Alphabet) (c : Char) : Bool :=
  c = '!' || inRange 0x24 0x3b c || c = '=' || inRange 0x3f 0x7e c || alphabet.hasBeyondAscii c

def checkPath (alphabet : Alphabet) (text : List Char) : Except AddressFault Unit :=
  let shown := text.takeWhile (· ≠ '#')
  let query := (shown.dropWhile (· ≠ '?')).drop 1
  if (shown.takeWhile (· ≠ '?')).all (inPath alphabet) && query.all (inQuery alphabet) then .ok ()
  else .error .invalidCharacter

def checkWhole (alphabet : Alphabet) (text : List Char) : Except AddressFault Unit := do
  match ← afterScheme text with
  | none =>
      Authority.check (text.takeWhile (!endsAuthority ·))
      if text.any endsAuthority then throw .invalidFormat
  | some rest =>
      let authority := rest.takeWhile (!endsAuthority ·)
      Authority.check authority
      if authority.isEmpty then throw .invalidFormat
      checkPath alphabet (rest.dropWhile (!endsAuthority ·))

def check (alphabet : Alphabet) (address : String) : Except AddressFault Unit :=
  if maxLength < address.utf8ByteSize then .error .tooLong
  else match address.toList with
    | [] => .error .emptyText
    | ['/'] => .ok ()
    | ['*'] => .ok ()
    | [c] =>
        if endsAuthority c then .error .invalidCharacter else Authority.check [c]
    | '/' :: rest => checkPath alphabet ('/' :: rest)
    | text => checkWhole alphabet text

end Curator.Address
