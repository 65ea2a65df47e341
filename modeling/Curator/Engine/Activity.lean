import Curator.Engine.Machine
/-!
Activities: plans that are being carried out. An activity has settled, has not begun, sleeps until a
time, or joins the activities of its errands. A task in progress has an entry, with the time by
which it has to be done.
-/

set_option autoImplicit false

namespace Curator

structure Entry where
  task : String
  deadline : Nat
  memoized : Bool
deriving DecidableEq, Repr, Inhabited

inductive Activity where
  | settled (outcome : Outcome)
  | pending (errand : Errand)
  | sleeping (entry : Option Entry) (time : Nat) (rest : Plan)
  | joining (entry : Option Entry) (parts : List Activity) (next : List Table → Plan)

namespace Activity

instance : Inhabited Activity := ⟨.settled (.ok [])⟩

def entry? : Activity → Option Entry
  | settled _ | pending _ => none
  | sleeping entry _ _ => entry
  | joining entry _ _ => entry

def vacate (entry : Option Entry) (machine : Machine) : Machine :=
  match entry with
  | some ⟨task, _, true⟩ => machine.mark task .vacant
  | _ => machine

mutual
def drop : Activity → Machine → Machine
  | settled _, machine | pending _, machine => machine
  | sleeping entry _ _, machine => vacate entry machine
  | joining entry parts _, machine => vacate entry (dropAll parts machine)

def dropAll : List Activity → Machine → Machine
  | [], machine => machine
  | first :: rest, machine => dropAll rest (drop first machine)
end

def earlier : Option Nat → Option Nat → Option Nat
  | some first, some second => some (min first second)
  | none, second => second
  | first, none => first

mutual
-- When an activity can go on: at once if it has not begun and is not waiting for a table,
-- otherwise at the end of a sleep or at a deadline.
def wakeTime (machine : Machine) : Activity → Option Nat
  | settled _ => none
  | pending (.fetch task) => if machine.memo.isBusy task then none else some machine.clock
  | pending _ => some machine.clock
  | sleeping entry time _ => earlier (some time) (entry.map Entry.deadline)
  | joining entry parts _ => earlier (wakeTimeOfAny machine parts) (entry.map Entry.deadline)

def wakeTimeOfAny (machine : Machine) : List Activity → Option Nat
  | [] => none
  | first :: rest => earlier (wakeTime machine first) (wakeTimeOfAny machine rest)
end

inductive Standing where
  | open
  | failed (failure : Failure)
  | complete (tables : List Table)

-- Up to this number, parts are told apart by nothing but their order, and the first failure that
-- is seen settles the join. More parts are settled strictly from the front: a failure counts
-- once everything before it has succeeded.
def widest : Nat := 30

def standing (patient : Bool) : List Activity → Standing
  | [] => .complete []
  | settled (.ok tables) :: rest =>
      match standing patient rest with
      | .complete others => .complete (tables ++ others)
      | other => other
  | settled (.error failure) :: _ => .failed failure
  | _ :: rest =>
      if patient then .open
      else match standing patient rest with
        | .failed failure => .failed failure
        | _ => .open

end Activity

end Curator
