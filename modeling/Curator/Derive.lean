import Curator.Failure
import Curator.Flow.Basic
/-!
Derived columns. An action computes a value from other values of its row; a whole-number column is
summed exactly when every term is whole and is rounded otherwise, and a total that does not fit is
an error, never a wrapped or clamped value.
-/

set_option autoImplicit false

namespace Curator

abbrev Term := Number × Float

inductive Total where
  | inexact
  | overflow
  | exact (total : Int)
deriving DecidableEq, Repr

namespace Action

def floatBound : Nat := Nat.pow 2 63

def wholeWeight? (weight : Float) : Option Int :=
  if weight.isFinite then
    (Binary.ofFloat weight).whole?.filter fun whole => whole.natAbs < floatBound
  else none

-- Adds term after term. The first term that is not whole or does not fit decides.
def exactTotal : Int → List Term → Total
  | total, [] => .exact total
  | total, (amount, weight) :: rest =>
      match amount.int64?, wholeWeight? weight with
      | some amount, some weight =>
          if Number.inInt64 (amount * weight) && Number.inInt64 (total + amount * weight) then
            exactTotal (total + amount * weight) rest
          else .overflow
      | _, _ => .inexact

-- Doubles are summed from negative zero on, so that the sum of no terms is `-0.0`.
def floatTotal (terms : List Term) : Float :=
  terms.foldl (fun total term => total + term.1.toFloat * term.2) (-0.0)

def rounded? (value : Float) : Option Int :=
  if value.isFinite then some (Binary.ofFloat value).round |>.filter Number.inInt64 else none

def wholeTotal? (terms : List Term) : Option Int :=
  match exactTotal 0 terms with
  | .exact total => some total
  | .overflow => none
  | .inexact => rounded? (floatTotal terms)

def combine (column : Column) (terms : List Term) : Except ActionError Json :=
  match column.type with
  | .int64 => match wholeTotal? terms with
      | some total => .ok (.number (.int total))
      | none => .error (.exceedsInt64 column.name)
  | .int32 => match wholeTotal? terms with
      | some total =>
          if Number.inInt32 total then .ok (.number (.int total))
          else .error (.exceedsInt32 column.name total)
      | none => .error (.exceedsInt64 column.name)
  | _ => .ok (.ofFloat (floatTotal terms))

def numberOperand? (row : Row) (operand : String) : Option Number :=
  (Row.value? row operand).bind Json.number?

def terms (row : Row) (weighted : List (String × Float)) : List Term :=
  weighted.filterMap fun (operand, weight) => (numberOperand? row operand).map (·, weight)

def apply (action : Action) (row : Row) : Except ActionError Json :=
  match action.formula with
  | .copy => .ok ((action.operands.head?.bind (Row.value? row)).getD .null)
  | .sum => combine action.column (terms row (action.operands.map (·, 1.0)))
  | .weightedSum => combine action.column (terms row (action.operands.zip action.weights))
  | .concat =>
      let parts := action.operands.filterMap fun operand =>
        (Row.value? row operand).bind Json.key?
      .ok (.string (String.intercalate (action.separator.getD "_") parts))

def applyAll : List Action → Row → Except ActionError Row
  | [], row => .ok row
  | action :: rest, row => do
      let value ← action.apply row
      applyAll rest (Row.insert action.column.name value row)

def declare (column : Column) : List Column → List Column
  | [] => [column]
  | other :: rest => if other.name = column.name then column :: rest else other :: declare column rest

end Action

namespace Table

-- Of several rows that fail any may be reported; the first one is taken here.
def applyToRows (actions : List Action) : List Row → Except ActionError (List Row)
  | [] => .ok []
  | row :: rest => do return (← Action.applyAll actions row) :: (← applyToRows actions rest)

def derive (name : String) (actions : List Action) (table : Table) : Except Failure Table :=
  if actions.isEmpty then .ok table
  else
    let columns := actions.foldl (fun columns action => Action.declare action.column columns)
      table.columns
    match applyToRows actions table.rows with
    | .error error => .error (.executionFailed name (.action error))
    | .ok rows => (ofRows name columns rows).mapError (.schema name)

end Table

end Curator
