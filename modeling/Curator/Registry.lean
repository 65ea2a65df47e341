import Curator.Address
import Curator.Engine.Work
import Curator.Graph
/-!
The registry: for each configured task the worker that carries it out. A source is carried out from
its own rows unless a backend was offered for it; without either it stays out of the registry, and
its data can only come with a request.
-/

set_option autoImplicit false

namespace Curator

structure Replacement where
  name : String
  kind : Kind
  echoes : Bool
  outputs : List Table
  reason : Option String
  delay : Nat
deriving Repr, Inhabited

namespace Replacement

def outcome (replacement : Replacement) (input : List Table) : Outcome :=
  match replacement.reason with
  | some reason => .error (.executionFailed replacement.name (.replacement reason))
  | none => .ok ((if replacement.echoes then input else []) ++ replacement.outputs)

end Replacement

inductive Worker where
  | inline (source : Source) (rows : List Row)
  | configured (task : Task)
  | replaced (replacement : Replacement)
deriving Repr, Inhabited

namespace Worker

def name : Worker → String
  | inline source _ => source.name
  | configured task => task.name
  | replaced replacement => replacement.name

def kind : Worker → Kind
  | inline _ _ => .dataService
  | configured task => task.kind
  | replaced replacement => replacement.kind

def execute (request : Request) (input : List Table) : Worker → Plan
  | inline source rows => source.plan (some rows) request
  | configured task => task.plan request input
  | replaced replacement => .wait replacement.delay (.done (replacement.outcome input))

def process (request : Request) (worker : Worker) : Plan :=
  (worker.execute request []).andThen fun tables => .ofTable (Outcome.single worker.name tables)

end Worker

def Errand.plan (request : Request) (worker : Worker) : Errand → Plan
  | .run _ input => worker.execute request input
  | .process _ | .fetch _ => worker.process request

structure Offer where
  sources : List String
  models : List String
  replacements : List Replacement
deriving Repr, Inhabited

namespace Offer

def empty : Offer := ⟨[], [], []⟩

def latest : List Replacement → List Replacement
  | [] => []
  | first :: rest =>
      if rest.any (·.name = first.name) then latest rest else first :: latest rest

def replacement? (offer : Offer) (task : String) : Option Replacement :=
  (latest offer.replacements).find? (·.name = task)

end Offer

structure Registry where
  graph : Graph
  workers : List (String × Worker)
deriving Repr, Inhabited

namespace Registry

def checkReplacement (graph : Graph) (replacement : Replacement) : Except RegistryFault Unit :=
  match graph.lookup replacement.name with
  | none => .error (.unconfigured replacement.name)
  | some task =>
      if task.kind = replacement.kind then .ok ()
      else .error (.kindMismatch replacement.name task.kind.name replacement.kind.name)

def checkRanking (graph : Graph) (offer : Offer) (experiment : Experiment) :
    Except RegistryFault Unit :=
  match experiment.ranking with
  | none => .ok ()
  | some ranking =>
      if ranking.model ∈ offer.models then .ok ()
      else match graph.model? ranking.model with
        | none => .error (.unknownModel experiment.name ranking.model)
        | some model =>
            (Address.check .ascii model.address).mapError (.badAddress experiment.name model.address)

-- The worker of a task; none for a source whose data must come with the request.
def worker (graph : Graph) (offer : Offer) (task : Task) : Except RegistryFault (Option Worker) :=
  match offer.replacement? task.name with
  | some replacement => .ok (some (.replaced replacement))
  | none => match task with
      | .source definition =>
          if definition.name ∈ offer.sources then .ok (some (.configured task))
          else .ok (definition.rows.map (.inline definition))
      | .experiment definition => do
          checkRanking graph offer definition
          return some (.configured task)
      | task => .ok (some (.configured task))

def workersOf (graph : Graph) (offer : Offer) :
    List Task → Except RegistryFault (List (String × Worker))
  | [] => .ok []
  | task :: rest => do
      let first ← worker graph offer task
      let others ← workersOf graph offer rest
      return match first with
        | some worker => (task.name, worker) :: others
        | none => others

def build (graph : Graph) (offer : Offer) : Except RegistryFault Registry := do
  (Offer.latest offer.replacements).forM (checkReplacement graph)
  return ⟨graph, ← workersOf graph offer graph.tasks⟩

def worker? (registry : Registry) (name : String) : Option Worker := registry.workers.lookup name

def workerOf? (registry : Registry) (kind : Kind) (name : String) : Option Worker :=
  (registry.worker? name).filter (·.kind = kind)

def has (registry : Registry) (name : String) : Bool := (registry.worker? name).isSome

def namesOf (registry : Registry) (kind : Kind) : List String :=
  (registry.graph.namesOf kind).filter registry.has

def size (registry : Registry) : Nat := registry.workers.length

def isEmpty (registry : Registry) : Bool := registry.workers.isEmpty

end Registry

end Curator
