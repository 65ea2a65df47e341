/-!
White space as Unicode's `White_Space` property lists it, and the text that is left when it is
taken off both ends. A text is blank when nothing is left.
-/

set_option autoImplicit false

namespace Curator.Text

def isBlank (c : Char) : Bool :=
  let n := c.toNat
  (0x09 ≤ n && n ≤ 0x0D) || n == 0x20 || n == 0x85 || n == 0xA0 || n == 0x1680
    || (0x2000 ≤ n && n ≤ 0x200A) || n == 0x2028 || n == 0x2029 || n == 0x202F || n == 0x205F
    || n == 0x3000

def trim (text : List Char) : List Char :=
  ((text.dropWhile isBlank).reverse.dropWhile isBlank).reverse

def allBlank (text : String) : Bool := text.toList.all isBlank

theorem length_trim_le (text : List Char) : (trim text).length ≤ text.length := by
  unfold trim
  have outer := (List.dropWhile_sublist (l := (text.dropWhile isBlank).reverse) isBlank).length_le
  have inner := (List.dropWhile_sublist (l := text) isBlank).length_le
  simp only [List.length_reverse] at outer ⊢
  omega

end Curator.Text
