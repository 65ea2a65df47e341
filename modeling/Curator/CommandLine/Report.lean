import Curator.CommandLine.Command
import Curator.Flow.Decode
import Curator.Graph.Bucket
import Curator.Http
import Curator.Scoring.Client
import Curator.Settings
/-!
What a command prints. Files are given by their texts and random draws by a sequence, so that a
report depends on nothing else; the places for measured times are left open.
-/

set_option autoImplicit false

namespace Curator

namespace CommandLine

abbrev Files := String → Option String

inductive Measure where
  | loading
  | total
  | average
  | percentile (percent : Nat)
  | throughput
deriving DecidableEq, Repr

inductive Line where
  | text (text : String)
  | measured (label : String) (measure : Measure)
deriving DecidableEq, Repr

structure Report where
  lines : List Line
  problem : Option String
deriving DecidableEq, Repr

namespace Report

def ok (lines : List Line) : Report := ⟨lines, none⟩
def fail (problem : String) : Report := ⟨[], some problem⟩
def after (lines : List Line) (report : Report) : Report :=
  { report with lines := lines ++ report.lines }

end Report

/-! ## Loading -/

def loadSettings (files : Files) : Option String → Except String Settings
  | none => .ok .standard
  | some path => match files path with
      | none => .error s!"Failed to read server config {path}"
      | some text => match Settings.parse? text with
          | none => .error s!"Failed to parse server config {path}"
          | some settings => .ok settings

def loadGraph (files : Files) (settings : Settings) : Except String Graph :=
  let graph := do
    let flow ← Flow.parse? (← files settings.flow)
    (Graph.ofFlow flow).toOption
  match graph with
  | some graph => .ok graph
  | none => .error s!"Failed to load task flow {settings.flow}"

def loadHost (files : Files) (network : Network) (settings : Settings) : Except String Host := do
  let graph ← loadGraph files settings
  match Registry.build graph .empty with
  | .error _ => .error "Failed to build task registry"
  | .ok registry => .ok {
      registry
      backends := network.backends graph
      timeout := settings.timeout
      schedule := .eager }

def parseParams (text : String) : Except String Row :=
  match Json.parse? text with
  | none => .error "Failed to parse --params"
  | some (.object params) => .ok params
  | some other => .error s!"--params must be a JSON object, got {other.write}"

/-! ## Printing -/

def numbered : Nat → List Row → List Line
  | _, [] => []
  | number, row :: rest =>
      .text s!"{number}. {(Json.object row).write}" :: numbered (number + 1) rest

def envelopeLines (envelope : Envelope) : List Line :=
  if !envelope.isSuccess then [.text s!"✗ {envelope.message}"]
  else
    let subject := match envelope.subject with
      | some subject => s!" for {subject}"
      | none => ""
    .text s!"{envelope.rows.length} records{subject}:" :: numbered 1 envelope.rows

def kindLines (graph : Graph) (kind : Kind) : List Line :=
  match graph.namesOf kind with
  | [] => []
  | names => .text s!"{kind.name} ({names.length})" :: names.map fun name => .text s!"  • {name}"

def joined (names : List String) : String :=
  if names.isEmpty then "(none)" else String.intercalate ", " names

def dependencyReport (graph : Graph) (name : String) : Report :=
  match graph.lookup name with
  | none => .fail s!"Task {name} is not configured"
  | some task =>
      let front := [
        .text s!"{name} [{task.kind.name}]", .text s!"• Direct: {joined task.dependencies}"]
      match resolve graph.tasks name with
      | .error error => ⟨front, some error.message⟩
      | .ok sources =>
          let missing := (sources.filter graph.isUnsupplied).map fun source =>
            Line.text s!"  ! {source} must be supplied by the caller"
          .ok (front ++ [.text s!"• Leaf sources: {joined sources}"] ++ missing)

def bucketReport (graph : Graph) (layer subject : String) : Report :=
  match graph.bucket? layer subject with
  | none => .fail s!"{layer} is not a configured layer"
  | some (.error error) => .fail (Failure.invalidSplit error).message
  | some (.ok experiment) =>
      .ok [.text s!"Subject {subject} in layer {layer} → {experiment}"]

/-! ## Commands -/

def loaded (host : Host) (settings : Settings) : List Line :=
  [.measured s!"✓ Loaded {host.registry.size} tasks from {settings.flow}" .loading]

def answerReport (host : Host) (params : String) (operation : Row → Operation) : Report :=
  match parseParams params with
  | .error problem => .fail problem
  | .ok params => .ok (envelopeLines (host.answer (operation params) .start).1)

def withPreceding (first : List String) (params : Row) : Row :=
  if first.isEmpty then params
  else Row.insert Job.precedingParam (.array (first.map .string)) params

def succeeds (host : Host) (scene : String) (users draw : Nat) : Bool :=
  let subject := toString (draw % max users 1 + 1)
  (host.answer (.recommendFor scene subject []) .start).1.isSuccess

def benchmarkLines (requests failed : Nat) : List Line := [
  .text "Benchmark results:", .text s!"Requests: {requests} ({failed} failed)",
  .measured "Total time" .total, .measured "Average latency" .average,
  .measured "P50 latency" (.percentile 50), .measured "P95 latency" (.percentile 95),
  .measured "P99 latency" (.percentile 99), .measured "Throughput" .throughput]

def benchmarkReport (host : Host) (scene : String) (draws : Nat → Nat) (requests users : Nat) :
    Report :=
  if requests = 0 then .fail "--requests must be at least 1"
  else
    let failed := (List.range requests).countP fun request =>
      !succeeds host scene users (draws request)
    .ok (benchmarkLines requests failed)

def bindProblem (settings : Settings) (port : Option Nat) : String :=
  let address := Settings.bindAddress { settings with port := port.getD settings.port }
  s!"Failed to bind {address}"

def Command.withHost (draws : Nat → Nat) (settings : Settings) (host : Host) : Command → Report
  | .get task params => answerReport host params (.invoke task)
  | .recommend task first params =>
      answerReport host params fun params => .recommend task (withPreceding first params)
  | .recommendFor scene subject params => answerReport host params (.recommendFor scene subject)
  | .benchmark scene requests users => benchmarkReport host scene draws requests users
  | .serve port => .fail (bindProblem settings port)
  | _ => .ok []

def Command.withGraph? : Command → Option (Graph → Report)
  | .list => some fun graph => .ok (Kind.all.flatMap (kindLines graph))
  | .dependencies task => some fun graph => dependencyReport graph task
  | .bucket layer subject => some fun graph => bucketReport graph layer subject
  | _ => none

def Command.report (files : Files) (network : Network) (draws : Nat → Nat) (settings : Settings)
    (command : Command) : Report :=
  match command.withGraph? with
  | some report => match loadGraph files settings with
      | .error problem => .fail problem
      | .ok graph => report graph
  | none => match loadHost files network settings with
      | .error problem => .fail problem
      | .ok host => (command.withHost draws settings host).after (loaded host settings)

def Invocation.report (files : Files) (network : Network) (draws : Nat → Nat)
    (invocation : Invocation) : Report :=
  match loadSettings files invocation.settings with
  | .error problem => .fail problem
  | .ok settings =>
      invocation.command.report files network draws
        { settings with flow := invocation.flow.getD settings.flow }

end CommandLine

end Curator
