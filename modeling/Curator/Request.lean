import Curator.Json.Writer
/-!
Requests: the parameters a caller sends and the subject the request is about. The subject is the
scalar under `id` unless one is bound from outside, and a bound subject hides the parameter.
-/

set_option autoImplicit false

namespace Curator

structure Request where
  params : Row
  subject : Option String
deriving Repr, Inhabited

namespace Request

def empty : Request := ⟨[], none⟩

def ofParams (params : Row) : Request := ⟨params, (Row.value? params "id").bind Json.key?⟩

def ofJson : Json → Request
  | .object params => ofParams params
  | _ => empty

def withSubject (subject : String) (request : Request) : Request :=
  { request with subject := some subject }

def param? (request : Request) (name : String) : Option Json := Row.value? request.params name

-- The text of a scalar parameter; under `id` the subject.
def text? (request : Request) (name : String) : Option String :=
  if name = "id" then request.subject else (request.param? name).bind Json.key?

-- What a layer splits requests by: the subject, else the parameter `bucketKey`.
def splitKey (request : Request) : String :=
  (request.subject.orElse fun _ => request.text? "bucketKey").getD ""

def isVerbose (request : Request) : Bool :=
  ((request.param? "debug").bind Json.bool?).getD false

end Request

end Curator
