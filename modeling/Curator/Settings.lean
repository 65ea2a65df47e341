import Curator.Text.Blank
import Curator.Yaml.Value
/-!
The service's settings, read from YAML text. Every member may be left out, and so may all of them.
-/

set_option autoImplicit false

namespace Curator

structure Settings where
  host : String
  port : Nat
  -- How long a task may take, in milliseconds.
  timeout : Nat
  flow : String
deriving DecidableEq, Repr, Inhabited

namespace Settings

def standard : Settings := ⟨"127.0.0.1", 8080, 3000, "config/taskflow.yaml"⟩

def bindAddress (settings : Settings) : String := s!"{settings.host}:{settings.port}"

def maxPort : Nat := 65535

def port? {α : Type} [Document α] (tree : α) : Option Nat :=
  (Document.natural? tree).filter (· ≤ maxPort)

def shape : Shape :=
  .record [("host", .whole), ("port", .whole), ("taskTimeoutMs", .whole), ("taskFlow", .whole)]

open Document in
def decode? {α : Type} [Document α] (tree : α) : Option Settings := do
  let members ← members? shape.names tree
  return {
    host := ← memberOr? standard.host text? "host" members
    port := ← memberOr? standard.port port? "port" members
    timeout := ← memberOr? standard.timeout natural? "taskTimeoutMs" members
    flow := ← memberOr? standard.flow text? "taskFlow" members }

def parse? (text : String) : Option Settings :=
  if Text.allBlank text then some standard else (Yaml.Tree.parse? shape text).bind decode?

end Settings

end Curator
