/-!
Percent escapes: a percent sign and two hexadecimal digits stand for one byte. Any other percent
sign stands for itself.
-/

set_option autoImplicit false

namespace Curator.Text.Percent

def nibble? (byte : UInt8) : Option UInt8 :=
  if 0x30 ≤ byte && byte ≤ 0x39 then some (byte - 0x30)
  else if 0x41 ≤ byte && byte ≤ 0x46 then some (byte - 0x37)
  else if 0x61 ≤ byte && byte ≤ 0x66 then some (byte - 0x57)
  else none

def escaped? (high low : UInt8) : Option UInt8 :=
  match nibble? high, nibble? low with
  | some high, some low => some (high * 16 + low)
  | _, _ => none

def decodeBytes : List UInt8 → List UInt8
  | 0x25 :: high :: low :: rest =>
      match escaped? high low with
      | some byte => byte :: decodeBytes rest
      | none => 0x25 :: decodeBytes (high :: low :: rest)
  | byte :: rest => byte :: decodeBytes rest
  | [] => []

def decode? (text : String) : Option String :=
  String.fromUTF8? ⟨(decodeBytes text.toUTF8.toList).toArray⟩

end Curator.Text.Percent
