import Curator.CommandLine.Usage
/-!
The commands of the program and how arguments spell them.
-/

set_option autoImplicit false

namespace Curator.CommandLine

inductive Command where
  | serve (port : Option Nat)
  | get (task params : String)
  | recommend (task : String) (first : List String) (params : String)
  | recommendFor (scene subject params : String)
  | list
  | dependencies (task : String)
  | bucket (layer subject : String)
  | benchmark (scene : String) (requests users : Nat)
deriving DecidableEq, Repr

structure Invocation where
  settings : Option String
  flow : Option String
  command : Command
deriving DecidableEq, Repr

def program : String := "recflow"

def about : String := "Run and inspect recommendation task flows"

def settingsSwitch : Switch :=
  ⟨"config", some 'c', "CONFIG", "Server config file (YAML)", .path, none, false⟩

def flowSwitch : Switch :=
  ⟨"task-flow", some 't', "TASK_FLOW", "Task-flow file, overrides the config", .path, none, false⟩

def paramsSwitch : Switch :=
  ⟨"params", none, "PARAMS", "Request parameters as a JSON object", .text, some "\x7b\x7d", false⟩

def countSwitch (long placeholder help fallback : String) (value : Value) : Switch :=
  ⟨long, none, placeholder, help, value, some fallback, false⟩

def front : Usage := ⟨program, about, [], [settingsSwitch, flowSwitch]⟩

def maxPort : Nat := Nat.pow 2 16 - 1
def maxWord : Nat := Nat.pow 2 32 - 1
def maxSize : Nat := Nat.pow 2 64 - 1

def usages : List Usage := [
  ⟨"serve", "Serve the task flow over HTTP", [],
    [⟨"port", none, "PORT", "Port to listen on, overrides the config", .natural maxPort true,
      none, false⟩]⟩,
  ⟨"get", "Run a single task", ["TASK"], [paramsSwitch]⟩,
  ⟨"recommend", "Run pre-tasks, then a target task on their output", ["TASK"],
    [⟨"pre-tasks", none, "PRE_TASKS", "Comma-separated pre-task names", .text, none, true⟩,
      paramsSwitch]⟩,
  ⟨"scene", "Recommend for one subject in a scene", ["SCENE", "ID"], [paramsSwitch]⟩,
  ⟨"list", "List configured tasks by kind", [], []⟩,
  ⟨"deps", "Show the dependencies of a task", ["TASK"], []⟩,
  ⟨"bucket", "Show which experiment of a layer a subject lands in", ["LAYER", "ID"], []⟩,
  ⟨"benchmark", "Run a benchmark against a scene", ["SCENE"],
    [countSwitch "requests" "REQUESTS" "Number of requests to make" "100" (.natural maxSize false),
      countSwitch "concurrent" "CONCURRENT" "Number of concurrent requests" "10"
        (.natural maxSize false),
      countSwitch "users" "USERS" "Random subject ids are drawn from 1..=users" "10000"
        (.natural maxWord true)]⟩]

def helpUsage : Usage :=
  ⟨"help", "Print this message or the help of the given subcommand(s)", [], []⟩

def overview : List String :=
  [about, "", s!"Usage: {program} [OPTIONS] <COMMAND>"]
    ++ Usage.paragraph "Commands:"
      (Usage.columns ((usages ++ [helpUsage]).map fun usage => (usage.name, usage.help)))
    ++ Usage.paragraph "Options:"
      (Usage.columns (front.switches.map Usage.switchEntry ++ [Usage.helpEntry]))

def helpOnHelp : List String :=
  [helpUsage.help, "", s!"Usage: {program} {helpUsage.name} [COMMAND]..."]
    ++ Usage.paragraph "Arguments:"
      (Usage.columns [("[COMMAND]...", "Print help for the subcommand(s)")])

def count (arguments : Arguments) (long : String) (fallback : Nat) : Nat :=
  ((arguments.value? long).bind (natural? maxSize true)).getD fallback

def params (arguments : Arguments) : String := (arguments.value? "params").getD "\x7b\x7d"

def Command.ofArguments? (name : String) (arguments : Arguments) : Option Command :=
  match name, arguments.operands with
  | "serve", [] => some (.serve ((arguments.value? "port").bind (natural? maxPort true)))
  | "get", [task] => some (.get task (params arguments))
  | "recommend", [task] => some (.recommend task (arguments.valuesOf "pre-tasks") (params arguments))
  | "scene", [scene, subject] => some (.recommendFor scene subject (params arguments))
  | "list", [] => some .list
  | "deps", [task] => some (.dependencies task)
  | "bucket", [layer, subject] => some (.bucket layer subject)
  | "benchmark", [scene] =>
      some (.benchmark scene (count arguments "requests" 100) (count arguments "users" 10000))
  | _, _ => none

inductive Reading where
  | invocation (invocation : Invocation)
  | help (lines : List String)
  | refused
deriving DecidableEq, Repr

namespace Reading

def helpOn : List String → Reading
  | [] => .help overview
  | ["help"] => .help helpOnHelp
  | [name] => match usages.find? (·.name = name) with
      | some usage => .help (usage.helpLines program)
      | none => .refused
  | _ => .refused

def ofCommand (settings flow : Option String) (name : String) (given : List String) : Reading :=
  match usages.find? (·.name = name) with
  | none => if name = helpUsage.name then helpOn given else .refused
  | some usage => match usage.read given with
      | .error .refused => .refused
      | .error .helpWanted => .help (usage.helpLines program)
      | .ok arguments => match Command.ofArguments? name arguments with
          | some command => .invocation ⟨settings, flow, command⟩
          | none => .refused

def ofArguments (given : List String) : Reading :=
  match front.readFront given .none with
  | .error .refused => .refused
  | .error .helpWanted => .help overview
  | .ok (_, none) => .refused
  | .ok (arguments, some (name, rest)) =>
      ofCommand (arguments.value? settingsSwitch.long) (arguments.value? flowSwitch.long) name rest

end Reading

end Curator.CommandLine
