import Curator.Document
import Curator.Envelope
import Curator.Json.Record
/-!
Reading an envelope from JSON text. The code is a 32-bit integer, the message a string; rows and
subject may be missing.
-/

set_option autoImplicit false

namespace Curator.Envelope

open Document

def code? (value : Json) : Option Int := value.int64?.filter Number.inInt32

def memberNames : List String := ["code", "msg", "data", "id"]

def decode? (value : Json) : Option Envelope := do
  let members ← members? memberNames value
  return {
    code := ← required? code? "code" members
    message := ← required? text? "msg" members
    rows := ← listOr? row? "data" members
    subject := ← optionalOr? text? "id" members }

-- A member of the envelope written twice is an error; inside a row the last one counts.
def parse? (text : String) : Option Envelope :=
  ((Json.readRecord? memberNames text).bind decode?).map fun envelope =>
    { envelope with rows := envelope.rows.map (Row.ofMembers ∘ Json.mergedMembers) }

end Curator.Envelope
