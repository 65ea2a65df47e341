import Curator.Address
import Curator.Engine.Machine
import Curator.Scoring
/-!
Scoring by model servers. A client sends the features of rows to a server and gets one score per row
back. What lies between the two is a network: it knows which addresses answer, and what.
-/

set_option autoImplicit false

namespace Curator

structure ScoreRequest where
  model : String
  subject : String
  rows : List (List (String × Float))
deriving Repr, Inhabited

namespace ScoreRequest

def unsignedZero (value : Float) : Float := if value == 0.0 then 0.0 else value

def ofRows (model : String) (subject : Option String) (features : List String) (rows : List Row) :
    ScoreRequest where
  model := model
  subject := subject.getD ""
  rows := rows.map fun row => (Row.featureVector row features).map fun (name, value) =>
    (name, unsignedZero value)

end ScoreRequest

structure Network where
  isUp : String → Bool
  exchange : String → ScoreRequest → Except String (List Float)

def Network.silent : Network := ⟨fun _ => false, fun _ _ => .error "unavailable"⟩

structure ModelClient where
  address : String
deriving DecidableEq, Repr, Inhabited

namespace ModelClient

def ofAddress (address : String) : Except ModelFault ModelClient :=
  match Address.check .ascii address with
  | .ok () => .ok ⟨address⟩
  | .error fault => .error (.badAddress address fault)

def connect (network : Network) (address : String) : Except ModelFault ModelClient := do
  let client ← ofAddress address
  if network.isUp address then return client
  else throw (.unreachable address)

def score (network : Network) (client : ModelClient) (request : ScoreRequest) :
    Except ModelFault (List Float) :=
  match network.exchange client.address request with
  | .error status => .error (.refused status)
  | .ok scores =>
      if scores.length = request.rows.length then .ok scores else .error .miscounted

end ModelClient

def Network.backends (network : Network) (graph : Graph) : Backends
  | .rows _ _ _, _ => (0, .error [])
  | .scores model subject features rows, _ =>
      let scored := do
        let client ← ModelClient.ofAddress (((graph.model? model).map Model.address).getD "")
        client.score network (.ofRows model subject features rows)
      (0, scored.mapError fun fault => [fault.message])

end Curator
