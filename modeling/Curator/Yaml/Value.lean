import Curator.Document
import Curator.Yaml.Tree
/-!
What YAML scalars mean. A text member takes any scalar as it is written; numbers, truth values and
nothing are recognised in plain scalars only. The values of a row are typed by their looks.
-/

set_option autoImplicit false

namespace Curator.Yaml

/-! ## Plain scalars -/

def isNullText (text : String) : Bool :=
  text = "null" || text = "Null" || text = "NULL" || text = "~"

def boolOf? (text : String) : Option Bool :=
  if text = "true" || text = "True" || text = "TRUE" then some true
  else if text = "false" || text = "False" || text = "FALSE" then some false
  else none

def digitIn? (radix : Nat) (c : Char) : Option Nat := (hexDigit? c).filter (· < radix)

def naturalIn? (radix : Nat) (digits : List Char) : Option Nat :=
  if digits.isEmpty then none
  else digits.foldlM (fun total c => (digitIn? radix c).map (total * radix + ·)) 0

def radixOf? : List Char → Option (Nat × List Char)
  | '0' :: 'x' :: rest => some (16, rest)
  | '0' :: 'o' :: rest => some (8, rest)
  | '0' :: 'b' :: rest => some (2, rest)
  | _ => none

def isPaddedDigits (text : List Char) : Bool :=
  match text with
  | '0' :: c :: rest => (c :: rest).all Char.isDigit
  | _ => false

def magnitude? (body : List Char) : Option Nat :=
  match radixOf? body with
  | some (radix, digits) => naturalIn? radix digits
  | none => if isPaddedDigits body then none else naturalIn? 10 body

def integerOf? (text : List Char) : Option Int :=
  match text with
  | '-' :: body => (magnitude? body).map fun magnitude => -(magnitude : Int)
  | '+' :: body => (magnitude? body).map Int.ofNat
  | body => (magnitude? body).map Int.ofNat

def naturalOf? (text : List Char) : Option Nat :=
  match text with
  | '-' :: _ => none
  | '+' :: body => magnitude? body
  | body => magnitude? body

def nearest (digits : Nat) (power : Int) : Float :=
  if digits = 0 then 0.0
  else
    let leading := ((Nat.toDigits 10 digits).length : Int) + power
    if 310 < leading then 1.0 / 0.0
    else if leading < -330 then 0.0
    else if 0 ≤ power then Float.ofScientific digits false power.toNat
    else Float.ofScientific digits true (-power).toNat

def digitsOf (text : List Char) : Nat :=
  text.foldl (fun total c => total * 10 + (c.toNat - '0'.toNat)) 0

def powerOf? : List Char → Option Int
  | [] => some 0
  | c :: rest =>
      if c = 'e' ∨ c = 'E' then
        let (negative, digits) := match rest with
          | '-' :: digits => (true, digits)
          | '+' :: digits => (false, digits)
          | digits => (false, digits)
        if digits.isEmpty || !digits.all Char.isDigit then none
        else some (if negative then -(digitsOf digits : Int) else digitsOf digits)
      else none

def decimalOf? (text : List Char) : Option Float :=
  let (negative, body) := match text with
    | '-' :: body => (true, body)
    | '+' :: body => (false, body)
    | body => (false, body)
  let whole := body.takeWhile Char.isDigit
  let (fraction, tail) := match body.dropWhile Char.isDigit with
    | '.' :: rest => (rest.takeWhile Char.isDigit, rest.dropWhile Char.isDigit)
    | rest => ([], rest)
  if whole.isEmpty && fraction.isEmpty then none
  else (powerOf? tail).map fun power =>
    let value := nearest (digitsOf (whole ++ fraction)) (power - fraction.length)
    if negative then -value else value

def floatOf? (text : String) : Option Float :=
  let chars := text.toList
  let unsigned := match chars with
    | '+' :: rest => rest
    | rest => rest
  if [".inf", ".Inf", ".INF"].contains (String.ofList unsigned) then some (1.0 / 0.0)
  else if ["-.inf", "-.Inf", "-.INF"].contains text then some (-1.0 / 0.0)
  else if [".nan", ".NaN", ".NAN"].contains text then some (0.0 / 0.0)
  else if chars.head? = some '+' && (unsigned.head?.any fun c => c = '+' || c = '-') then none
  else (decimalOf? unsigned).filter Float.isFinite

def unsigned (text : List Char) : List Char :=
  match text with
  | '-' :: rest | '+' :: rest => rest
  | rest => rest

-- The value of a plain scalar in a row; none for an integer beyond 64 bits. Integers beyond 128
-- bits count as doubles.
def plainValue? (text : String) : Option Json :=
  if text.isEmpty || isNullText text then some .null
  else match boolOf? text with
    | some truth => some (.bool truth)
    | none =>
        let chars := text.toList
        match (integerOf? chars).filter fun value => -Int.pow 2 127 ≤ value && value < Int.pow 2 128 with
        | some value =>
            if Number.minInt64 ≤ value && value ≤ Number.maxNat64 then
              some (.number (.int value))
            else none
        | none =>
            if isPaddedDigits (unsigned chars) then some (.string text)
            else match floatOf? text with
              | some value => some (.ofFloat value)
              | none => some (.string text)

def standardTag (name : String) : String := "tag:yaml.org,2002:" ++ name

def isOwnTag (tag : String) : Bool := tag.startsWith "!"

-- The value of a scalar in a row: what its tag says it is, else by its looks if it is plain,
-- else its text. A tag of one's own stands for nothing a row can hold.
def scalarValue? (tag : Option String) (text : String) (style : Style) : Option Json :=
  match tag with
  | some tag =>
      if tag = standardTag "bool" then (boolOf? text).map .bool
      else if tag = standardTag "int" then
        (integerOf? text.toList).bind fun value =>
          if Number.minInt64 ≤ value && value ≤ Number.maxNat64 then some (.number (.int value))
          else none
      else if tag = standardTag "float" then (floatOf? text).map .ofFloat
      else if tag = standardTag "null" then if isNullText text then some .null else none
      else if isOwnTag tag then none
      else some (.string text)
  | none => if style = .plain then plainValue? text else some (.string text)

/-! ## Trees -/

namespace Tree

def looksText? (tag : String) : Tree → Option String
  | .scalar _ text .plain => some text
  | .scalar (some given) text .literal => if given = standardTag tag then some text else none
  | _ => none

def choice? : Tree → Option String
  | .scalar (some tag) text style =>
      if isOwnTag tag then
        if style = .plain && (text.isEmpty || isNullText text) then
          some (String.ofList (tag.toList.drop 1))
        else none
      else some text
  | .scalar none text _ => some text
  | _ => none

def flag? (tree : Tree) : Option Bool := (tree.looksText? "bool").bind boolOf?

def natural? (tree : Tree) : Option Nat :=
  ((tree.looksText? "int").bind fun text => naturalOf? text.toList).filter
    fun value => (value : Int) ≤ Number.maxNat64

def real? (tree : Tree) : Option Float := (tree.looksText? "float").bind floatOf?

def isEmptyPlain : Tree → Bool
  | .nothing => true
  | .scalar _ text style => text.isEmpty && style = .plain
  | _ => false

def items? : Tree → Option (List Tree)
  | .sequence _ items => some items
  | tree => if tree.isEmptyPlain then some [] else none

def pairs? : Tree → Option (List (Tree × Tree))
  | .mapping _ members => some members
  | tree => if tree.isEmptyPlain then some [] else none

def members? (names : List String) (tree : Tree) : Option (List (String × Tree)) := do
  let named ← (← tree.pairs?).mapM fun (key, value) => (key.text?).map (·, value)
  let known := named.filter fun member => names.contains member.1
  if (known.map Prod.fst).Nodup then some known else none

mutual
def value? : Tree → Option Json
  | .nothing => some .null
  | .scalar tag text style => scalarValue? tag text style
  | .sequence tag items => if tag.any isOwnTag then none else (values? items).map .array
  | .mapping tag members =>
      if tag.any isOwnTag then none
      else (memberValues? members).map fun members => .object (Row.ofMembers members)

def values? : List Tree → Option (List Json)
  | [] => some []
  | item :: rest => do return (← value? item) :: (← values? rest)

def memberValues? : List (Tree × Tree) → Option (List (String × Json))
  | [] => some []
  | (key, value) :: rest => do
      return (← key.text?, ← value? value) :: (← memberValues? rest)
end

def row? (tree : Tree) : Option Row := do
  return Row.ofMembers (← memberValues? (← tree.pairs?))

def isAbsent? : Tree → Option Bool
  | .nothing => some true
  | .scalar (some tag) text .plain =>
      if tag = standardTag "null" then if isNullText text then some true else none
      else some false
  | .scalar none text .plain => some (text.isEmpty || isNullText text)
  | _ => some false

instance : Document Tree where
  text? := text?
  choice? := choice?
  flag? := flag?
  natural? := natural?
  real? := real?
  items? := items?
  members? := members?
  row? := row?
  isAbsent? := isAbsent?

end Tree

end Curator.Yaml
