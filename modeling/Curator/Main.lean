import Curator.CommandLine.Report
/-!
The program: reads the files that the arguments name, measures times and prints reports.
-/

set_option autoImplicit false

namespace Curator.CommandLine

-- Measured times, in nanoseconds.
structure Timings where
  loading : Nat
  total : Nat
  requests : List Nat

def nanosPerSecond : Nat := 1000000000

def Timings.figure (timings : Timings) : Measure → String
  | .loading => s!" in {timings.loading / 1000}µs"
  | .total => s!": {timings.total / 1000}µs"
  | .average => s!": {timings.total / max timings.requests.length 1 / 1000}µs"
  | .percentile percent =>
      let count := timings.requests.length
      let place := min (count * percent / 100) (count - 1)
      s!": {timings.requests.getD place 0 / 1000}µs"
  | .throughput =>
      let rate := timings.requests.length * nanosPerSecond / max timings.total 1
      s!": {rate} requests/second"

def Line.render (timings : Timings) : Line → String
  | .text whole => whole
  | .measured label measure => label ++ timings.figure measure

def timed {α : Type} (compute : Unit → α) : IO (α × Nat) := do
  let begun ← IO.monoNanosNow
  let outcome ← IO.lazyPure compute
  let ended ← IO.monoNanosNow
  return (outcome, ended - begun)

def readText? (path : String) : IO (Option String) := do
  try
    return some (← IO.FS.readFile path)
  catch _ =>
    return none

def printReport (timings : Timings) (report : Report) : IO UInt32 := do
  for line in report.lines do
    IO.println (line.render timings)
  match report.problem with
  | none => return 0
  | some problem =>
      IO.eprintln s!"Error: {problem}"
      return 1

def benchmark (host : Host) (scene : String) (requests users : Nat) : IO (List Nat × Nat) := do
  let mut times : List Nat := []
  let mut failed := 0
  for _ in [0:requests] do
    let draw ← IO.rand 0 maxWord
    let (ok, time) ← timed fun _ => succeeds host scene users draw
    times := time :: times
    unless ok do failed := failed + 1
  return (times.mergeSort, failed)

def run (invocation : Invocation) : IO UInt32 := do
  let given ← match invocation.settings with
    | none => pure none
    | some path => do pure ((← readText? path).map (path, ·))
  let settingsFiles : Files := fun path => (given.filter (·.1 = path)).map Prod.snd
  match loadSettings settingsFiles invocation.settings with
  | .error problem => printReport ⟨0, 0, []⟩ (.fail problem)
  | .ok settings =>
      let settings := { settings with flow := invocation.flow.getD settings.flow }
      let text ← readText? settings.flow
      let files : Files := fun path => if path = settings.flow then text else none
      let (host, loading) ← timed fun _ => loadHost files .silent settings
      match host, invocation.command with
      | .ok host, .benchmark scene requests users =>
          let (times, failed) ← benchmark host scene requests users
          let report := if requests = 0 then benchmarkReport host scene id 0 users
            else .ok (benchmarkLines requests failed)
          printReport ⟨loading, times.foldl (· + ·) 0, times⟩ (report.after (loaded host settings))
      | _, command => printReport ⟨loading, 0, []⟩ (command.report files .silent id settings)

end Curator.CommandLine

open Curator.CommandLine in
def main (arguments : List String) : IO UInt32 := do
  match Reading.ofArguments arguments with
  | .invocation invocation => run invocation
  | .help lines =>
      for line in lines do
        IO.println line
      return 0
  | .refused =>
      IO.eprintln "error: invalid arguments"
      return 2
