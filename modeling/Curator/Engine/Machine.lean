import Curator.Engine.Memo
import Curator.Registry
/-!
What changes while requests are served: the clock, the calls made to backends, the memo of the
request, and how many turns have been given. What does not change is the host.
-/

set_option autoImplicit false

namespace Curator

-- How long a backend takes over a query, and what it answers. The number says how many queries
-- the same backend had before.
abbrev Backends := (query : Query) → Nat → Nat × query.Answer

/-- Which turns are taken. Whoever misses a turn is as it was and has another one later; after
finitely many turns nobody misses one any more. -/
structure Schedule where
  takes : Nat → Bool
  unsettled : Nat
  takes_of_le : ∀ turn, unsettled ≤ turn → takes turn = true

def Schedule.eager : Schedule := ⟨fun _ => true, 0, fun _ _ => rfl⟩

structure Host where
  registry : Registry
  backends : Backends
  timeout : Nat
  schedule : Schedule

structure Machine where
  clock : Nat
  calls : List Query
  memo : Memo
  turns : Nat
deriving Inhabited

namespace Machine

def start : Machine := ⟨0, [], [], 0⟩

def withMemo (machine : Machine) (memo : Memo) : Machine := { machine with memo }

def mark (machine : Machine) (name : String) (slot : Slot) : Machine :=
  { machine with memo := machine.memo.put name slot }

def reserve (machine : Machine) (errand : Errand) (slot : Slot) : Machine :=
  if errand.isFetch then machine.mark errand.task slot else machine

def callsTo (machine : Machine) (backend : Backend) : Nat :=
  machine.calls.countP (·.backend = backend)

def record (machine : Machine) (query : Query) : Machine :=
  { machine with calls := machine.calls ++ [query] }

def advanceTo (machine : Machine) (time : Nat) : Machine :=
  { machine with clock := max machine.clock time }

def turn (machine : Machine) (schedule : Schedule) : Bool × Machine :=
  (schedule.takes machine.turns, { machine with turns := machine.turns + 1 })

end Machine

end Curator
