import Curator.Engine.Activity
/-!
Polling: an activity goes on as far as it can without waiting. The parts of a join are polled in
their order; a task in progress is polled first and then held against its deadline.
-/

set_option autoImplicit false

namespace Curator

namespace Activity

def close (entry : Option Entry) (outcome : Outcome) (machine : Machine) : Activity × Machine :=
  match entry, outcome with
  | some ⟨task, _, true⟩, .ok [table] => (.settled outcome, machine.mark task (.filled table))
  | _, _ => (.settled outcome, vacate entry machine)

def pollInTurn (schedule : Schedule) (poll : Activity → Machine → Activity × Machine)
    (activity : Activity) (machine : Machine) : Activity × Machine :=
  let (taken, machine) := machine.turn schedule
  if taken then poll activity machine else (activity, machine)

-- Polls parts until one of them settles the join by its failure. `clear` says that everything
-- before has succeeded.
def pollParts (schedule : Schedule) (poll : Activity → Machine → Activity × Machine)
    (patient : Bool) : Bool → List Activity → Machine → List Activity × Machine
  | _, [], machine => ([], machine)
  | clear, first :: rest, machine =>
      let (first, machine) := pollInTurn schedule poll first machine
      match first with
      | settled (.error failure) =>
          if patient && !clear then
            let (rest, machine) := pollParts schedule poll patient false rest machine
            (settled (.error failure) :: rest, machine)
          else (settled (.error failure) :: rest, machine)
      | settled (.ok tables) =>
          let (rest, machine) := pollParts schedule poll patient clear rest machine
          (settled (.ok tables) :: rest, machine)
      | waiting =>
          let (rest, machine) := pollParts schedule poll patient false rest machine
          (waiting :: rest, machine)

def pollJoin (schedule : Schedule) (poll : Activity → Machine → Activity × Machine)
    (entry : Option Entry) (parts : List Activity) (next : List Table → Plan)
    (proceed : List Table → Machine → Activity × Machine) (machine : Machine) :
    Activity × Machine :=
  let patient := decide (widest < parts.length)
  let (parts, machine) := pollParts schedule poll patient true parts machine
  match standing patient parts with
  | .open => (.joining entry parts next, machine)
  | .failed failure => close entry (.error failure) (dropAll parts machine)
  | .complete tables => proceed tables machine

def follow (host : Host) (poll : Activity → Machine → Activity × Machine) (entry : Option Entry) :
    Plan → Machine → Activity × Machine
  | .done outcome, machine => close entry outcome machine
  | .wait delay rest, machine =>
      if delay = 0 then follow host poll entry rest machine
      else (.sleeping entry (machine.clock + delay) rest, machine)
  | .ask query next, machine =>
      let (delay, answer) := host.backends query (machine.callsTo query.backend)
      if delay = 0 then follow host poll entry (next answer) (machine.record query)
      else (.sleeping entry (machine.clock + delay) (next answer), machine.record query)
  | .send errands next, machine =>
      pollJoin host.schedule poll entry (errands.map .pending) next
        (fun tables machine => follow host poll entry (next tables) machine) machine

def expire (timeout : Nat) (activity : Activity) (machine : Machine) : Activity × Machine :=
  match activity.entry? with
  | none => (activity, machine)
  | some entry =>
      if entry.deadline ≤ machine.clock then
        (.settled (.error (.timedOut entry.task timeout)), activity.drop machine)
      else (activity, machine)

def engage (host : Host) (request : Request) (poll : Activity → Machine → Activity × Machine)
    (errand : Errand) (machine : Machine) : Activity × Machine :=
  match host.registry.worker? errand.task with
  | none => (.settled (.error (.taskNotFound errand.task)), machine.reserve errand .vacant)
  | some worker =>
      follow host poll (some ⟨errand.task, machine.clock + host.timeout, errand.isFetch⟩)
        (errand.plan request worker) (machine.reserve errand .busy)

def start (host : Host) (request : Request) (poll : Activity → Machine → Activity × Machine)
    (errand : Errand) (machine : Machine) : Activity × Machine :=
  match errand with
  | .fetch task => match machine.memo.slot? task with
      | some (.filled table) => (.settled (.ok [table]), machine)
      | some .busy => (.pending errand, machine)
      | _ => engage host request poll errand machine
  | _ => engage host request poll errand machine

def poll (host : Host) (request : Request) : Nat → Activity → Machine → Activity × Machine
  | 0, activity, machine => (activity, machine)
  | depth + 1, activity, machine =>
      let below := poll host request depth
      let polled := match activity with
        | settled outcome => (settled outcome, machine)
        | pending errand => start host request below errand machine
        | sleeping entry time rest =>
            if time ≤ machine.clock then follow host below entry rest machine
            else (sleeping entry time rest, machine)
        | joining entry parts next =>
            pollJoin host.schedule below entry parts next
              (fun tables machine => follow host below entry (next tables) machine) machine
      expire host.timeout polled.1 polled.2

end Activity

end Curator
