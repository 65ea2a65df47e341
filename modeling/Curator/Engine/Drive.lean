import Curator.Engine.Poll
/-!
Driving a plan to its end: pass after pass, an activity is polled, and between two passes the clock
moves to the time when somebody can go on. Every pass takes at least one step of the work unless a
turn is missed in it, so that the size of the work and the turns that may be missed bound the
number of passes.
-/

set_option autoImplicit false

namespace Curator

namespace Host

-- How deep errands nest: each task at most once, below the plan, above a name that is no task.
def depth (host : Host) : Nat := host.registry.graph.size + 2

def breadth (host : Host) : Nat :=
  (host.registry.graph.tasks.map fun task => task.dependencies.length).foldl max 0

-- At least as many steps as a plan with so many errands of its own can take.
def work (host : Host) (errands : Nat) : Nat :=
  (errands + 1) * Nat.pow (host.breadth + 5) (host.registry.graph.size + 2)

def passes (host : Host) (errands : Nat) : Nat :=
  host.work errands + host.schedule.unsettled + 1

end Host

namespace Activity

def drive (host : Host) (request : Request) : Nat → Activity → Machine → Option Outcome × Machine
  | 0, _, machine => (none, machine)
  | fuel + 1, activity, machine =>
      let (activity, machine) := poll host request host.depth activity machine
      match activity with
      | settled outcome => (some outcome, machine)
      | waiting => match waiting.wakeTime machine with
          | none => (none, machine)
          | some time => drive host request fuel waiting (machine.advanceTo time)

end Activity

def Host.perform (host : Host) (request : Request) (errands : Nat) (plan : Plan)
    (machine : Machine) : Outcome × Machine :=
  let (outcome, machine) :=
    Activity.drive host request (host.passes errands) (.sleeping none machine.clock plan) machine
  (outcome.getD (.error .unfinished), machine)

end Curator
