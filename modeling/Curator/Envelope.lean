import Curator.Json.Basic
import Curator.Text.Blank
/-!
The envelope around every answer: a code, a message, rows and perhaps the subject they are for.
-/

set_option autoImplicit false

namespace Curator

structure Envelope where
  code : Int
  message : String
  rows : List Row
  subject : Option String
deriving Repr, Inhabited

namespace Envelope

def success (rows : List Row) : Envelope := ⟨0, "success", rows, none⟩

def successFor (subject : String) (rows : List Row) : Envelope :=
  ⟨0, "success", rows, some subject⟩

def failure (message : String) : Envelope :=
  ⟨-1, if Text.allBlank message then "unknown error" else message, [], none⟩

def isSuccess (envelope : Envelope) : Bool := envelope.code = 0

def toJson (envelope : Envelope) : Json :=
  .object <|
    [("code", .number (.int envelope.code)), ("msg", .string envelope.message),
      ("data", .array (envelope.rows.map .object))]
    ++ match envelope.subject with
      | some subject => [("id", .string subject)]
      | none => []

end Envelope

end Curator
