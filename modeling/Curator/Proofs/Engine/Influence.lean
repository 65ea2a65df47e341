import Curator.Proofs.Engine.Lockstep
/-!
What nobody sends for and nobody asks has no influence. Two hosts that agree on everything a promise
allows, on machines that agree on it, take the same steps for whatever keeps the promise, and the
machines go on agreeing.
-/

set_option autoImplicit false

namespace Curator

structure Host.Agrees (promise : Promise) (host other : Host) : Prop where
  timeout : other.timeout = host.timeout
  schedule : other.schedule = host.schedule
  size : other.registry.graph.size = host.registry.graph.size
  breadth : other.breadth = host.breadth
  workers : ∀ errand, promise.sends errand →
    other.registry.worker? errand.task = host.registry.worker? errand.task
  backends : ∀ query, promise.asks query → other.backends query = host.backends query

structure Machine.Agrees (promise : Promise) (machine other : Machine) : Prop where
  clock : other.clock = machine.clock
  turns : other.turns = machine.turns
  calls : ∀ query, promise.asks query → other.callsTo query.backend = machine.callsTo query.backend
  slots : ∀ task, promise.sends (.fetch task) → other.memo.slot? task = machine.memo.slot? task

namespace Machine

variable {promise : Promise} {machine other : Machine} (agrees : machine.Agrees promise other)
include agrees

theorem Agrees.mark (name : String) (slot : Slot) :
    (machine.mark name slot).Agrees promise (other.mark name slot) where
  clock := agrees.clock
  turns := agrees.turns
  calls := agrees.calls
  slots task sends := by rw [slot?_mark, slot?_mark, agrees.slots task sends]

theorem Agrees.record (query : Query) : (machine.record query).Agrees promise (other.record query) where
  clock := agrees.clock
  turns := agrees.turns
  calls asked asks := by rw [callsTo_record, callsTo_record, agrees.calls asked asks]
  slots := agrees.slots

theorem Agrees.advanceTo (time : Nat) :
    (machine.advanceTo time).Agrees promise (other.advanceTo time) where
  clock := by rw [Machine.advanceTo, Machine.advanceTo, agrees.clock]
  turns := agrees.turns
  calls := agrees.calls
  slots := agrees.slots

theorem Agrees.turn (schedule : Schedule) :
    (machine.turn schedule).2.Agrees promise (other.turn schedule).2 where
  clock := agrees.clock
  turns := congrArg (· + 1) agrees.turns
  calls := agrees.calls
  slots := agrees.slots

end Machine

theorem Host.Agrees.lockstep {promise : Promise} {host other : Host} {request : Request}
    (alike : host.Agrees promise other) (kept : promise.Kept host request) :
    Lockstep promise (fun name => promise.sends (.fetch name)) (Machine.Agrees promise) host other request
      request where
  timeout := alike.timeout
  schedule := alike.schedule
  size := alike.size
  breadth := alike.breadth
  clock := Machine.Agrees.clock
  turns := Machine.Agrees.turns
  advances time agrees := agrees.advanceTo time
  passes schedule agrees := agrees.turn schedule
  marks name slot _ agrees := agrees.mark name slot
  asks query asks agrees :=
    ⟨by rw [alike.backends query asks, agrees.calls query asks], agrees.record query⟩
  starts {machine machine'} errand sends agrees := by
    have fetched (fetches : errand.isFetch = true) : promise.sends (.fetch errand.task) := by
      cases errand with
      | run | process => cases fetches
      | fetch task => exact sends
    exact .inl
      { holds := fetched
        slots := fun fetches => agrees.slots errand.task (fetched fetches)
        plans := by rw [alike.workers errand sends]
        keeps := fun worker found => kept.carried errand worker sends found }

theorem Host.perform_alike {promise : Promise} {host other : Host} {request : Request}
    (alike : host.Agrees promise other) (kept : promise.Kept host request) (errands : Nat) {plan : Plan}
    (keeps : plan.Keeps promise) {machine machine' : Machine} (agrees : machine.Agrees promise machine') :
    (other.perform request errands plan machine').1 = (host.perform request errands plan machine).1 ∧
      (host.perform request errands plan machine).2.Agrees promise
        (other.perform request errands plan machine').2 :=
  (alike.lockstep kept).perform errands keeps agrees

end Curator
