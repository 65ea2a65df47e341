import Curator.Json.Reader
import Curator.Operation
import Curator.Text.Percent
/-!
The operations over HTTP. A failing operation is reported in its envelope under status 200; other
statuses are left for calls that name no operation at all.
-/

set_option autoImplicit false

namespace Curator.Http

structure Call where
  method : String
  target : String
  body : List UInt8
deriving Repr, Inhabited

namespace Call

def isMethodChar (c : Char) : Bool := c.isAlphanum || "!#$%&'*+-.^_\x60|~".toList.contains c

def ofParts? (method target : String) (body : List UInt8) : Option Call :=
  let legal := !method.isEmpty && method.toList.all isMethodChar
  if legal && (Address.check .unicode target matches .ok _) then some ⟨method, target, body⟩ else none

end Call

inductive Content where
  | json (value : Json)
  | text (text : String)
deriving Repr, Inhabited

structure Response where
  status : Nat
  content : Content
deriving Repr, Inhabited

namespace Response

def ok (value : Json) : Response := ⟨200, .json value⟩
def empty (status : Nat) : Response := ⟨status, .text ""⟩

def undecodable (parameter : String) : Response :=
  ⟨400, .text s!"Invalid URL: Invalid UTF-8 in \x60{parameter}\x60"⟩

end Response

inductive Route where
  | health
  | invoke (name : String)
  | recommend (name : String)
  | recommendFor (name id : String)
deriving DecidableEq, Repr

def path (target : String) : String :=
  let text := target.toList
  let relative := match text with
    | '/' :: _ => text
    | _ => match Address.afterScheme text with
        | .ok (some rest) => match rest.dropWhile (!Address.endsAuthority ·) with
            | '/' :: after => '/' :: after
            | after => '/' :: after
        | _ => if text = ['*'] then text else []
  String.ofList (relative.takeWhile fun c => c ≠ '?' && c ≠ '#')

-- The last part of a path is never empty. Parts are matched as they are written.
def Route.ofPath? (path : String) : Option Route :=
  match path.splitOn "/" with
  | ["", "health"] => some .health
  | ["", "service", "get", name] => if name.isEmpty then none else some (.invoke name)
  | ["", "service", "recommend", name] => if name.isEmpty then none else some (.recommend name)
  | ["", "service", "recommend", name, id] =>
      if id.isEmpty then none else some (.recommendFor name id)
  | _ => none

def isBlankByte (byte : UInt8) : Bool :=
  byte == 0x20 || byte == 0x09 || byte == 0x0a || byte == 0x0c || byte == 0x0d

def params? (body : List UInt8) : Option Row :=
  if body.all isBlankByte then some []
  else (String.fromUTF8? ⟨body.toArray⟩).bind fun text => (Json.parse? text).bind Json.object?

def bodyRefused : Envelope := .failure "request body must be a JSON object"

def parameter (name text : String) : Except Response String :=
  match Text.Percent.decode? text with
  | some value => .ok value
  | none => .error (.undecodable name)

def requiredParams (body : List UInt8) : Except Response Row :=
  match params? body with
  | some params => .ok params
  | none => .error (.ok bodyRefused.toJson)

-- The operation that a route and a body call for, or the response to a call that fails before.
-- For a subject the parameters are optional, and a body without any is as good as none.
def operation (body : List UInt8) : Route → Except Response (Option Operation)
  | .health => .ok none
  | .invoke name => do
      return some (.invoke (← parameter "name" name) (← requiredParams body))
  | .recommend name => do
      return some (.recommend (← parameter "name" name) (← requiredParams body))
  | .recommendFor name id => do
      let scene ← parameter "name" name
      let subject ← parameter "id" id
      return some (.recommendFor scene subject ((params? body).getD []))

def health (registry : Registry) : Json :=
  .object [("status", .string "ok"), ("tasks", .ofNat registry.size)]

def Route.admits (route : Route) (method : String) : Bool :=
  match route with
  | .health => method = "GET" || method = "HEAD"
  | _ => method = "POST"

def respond (host : Host) (call : Call) (machine : Machine) : Response × Machine :=
  match Route.ofPath? (path call.target) with
  | none => (.empty 404, machine)
  | some route =>
      if !route.admits call.method then (.empty 405, machine)
      else match operation call.body route with
        | .error response => (response, machine)
        | .ok none =>
            if call.method = "HEAD" then (.empty 200, machine)
            else (.ok (health host.registry), machine)
        | .ok (some operation) =>
            let (envelope, machine) := host.answer operation machine
            (.ok envelope.toJson, machine)

end Curator.Http
