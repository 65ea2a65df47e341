import Curator.Failure
import Curator.Flow.Basic
import Curator.Hash.Blake3
/-!
Splitting traffic over the arms of a layer. A key is hashed to a draw between 0 and 1; the shares
of the arms, scaled to sum to 1, are laid end to end, and the arm whose part holds the draw is
taken. The arithmetic is written over any numbers that shares can be computed in.
-/

set_option autoImplicit false

namespace Curator

class Share (α : Type) extends Zero α, Add α, Div α, LT α where
  isLess : DecidableLT α
  isFinite : α → Bool
  draw : Nat → α

instance Share.decidableLT {α : Type} [Share α] : DecidableLT α := Share.isLess

instance : Share Float where
  zero := 0.0
  isLess := inferInstance
  isFinite := Float.isFinite
  draw numerator := Float.ofNat numerator / 9007199254740992.0

namespace Split

variable {α : Type} [Share α]

inductive WeightFault where
  | illegal
  | zeroTotal
deriving DecidableEq, Repr

def usable (weight : α) : Bool := Share.isFinite weight && !decide (weight < 0)

def total (weights : List α) : α := weights.foldl (· + ·) 0

def normalize (weights : List α) : Except WeightFault (List α) :=
  if !weights.all usable then .error .illegal
  else if 0 < total weights then .ok (weights.map (· / total weights))
  else .error .zeroTotal

-- The first arm whose part, laid after `reached`, holds the draw. Rounding can leave the end of
-- the last part a hair below 1, in which case the last arm that has a part is taken.
def pick (draw : α) : α → Option String → List (String × α) → Option String
  | _, last, [] => last
  | reached, last, (name, share) :: rest =>
      if 0 < share then
        if draw < reached + share then some name
        else pick draw (reached + share) (some name) rest
      else pick draw reached last rest

def assign (draw : α) (arms : List (String × α)) : Except WeightFault (Option String) := do
  let shares ← normalize (arms.map Prod.snd)
  return pick draw 0 none ((arms.map Prod.fst).zip shares)

def hashed (layer : String) (salted : Bool) (key : String) : List UInt8 :=
  (if salted then layer ++ "/" ++ key else key).toUTF8.toList

def numerator (layer : String) (salted : Bool) (key : String) : Nat :=
  (Blake3.leading (hashed layer salted key) >>> 11).toNat

def weightError (layer : Option String) (weights : List Float) : WeightFault → SplitError
  | .illegal => .illegalWeights layer weights
  | .zeroTotal => .zeroTotal layer

end Split

namespace Layer

def assign (layer : Layer) (key : String) : Except SplitError String :=
  let draw : Float := Share.draw (Split.numerator layer.name layer.salted key)
  match Split.assign draw (layer.arms.map fun arm => (arm.name, arm.ratio)) with
  | .error fault => .error (Split.weightError (some layer.name) (layer.arms.map Arm.ratio) fault)
  | .ok none => .error (.noArms layer.name)
  | .ok (some experiment) => .ok experiment

end Layer

end Curator
