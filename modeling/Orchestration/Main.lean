import Orchestration.CommandLine.Program
import Std.Time.DateTime.Timestamp

namespace Orchestration.CommandLine

def readFiles (paths : List String) : IO (List (String × String)) :=
  paths.filterMapM fun (path : String) => do
    try return some (path, ← IO.FS.readFile path)
    catch _ => return none

def randomNumber : IO Nat := do
  let bytes ← IO.getRandomBytes 16
  return bytes.foldl (fun n b => 256 * n + b.toNat) 0

def currentTime : IO Timestamp := do
  let now ← Std.Time.Timestamp.now
  return (Timestamp.ofNanos? now.toNanosecondsSinceUnixEpoch.val).getD .epoch

def surroundings (paths : List String) : IO Surroundings := do
  let files ← readFiles paths
  let start ← currentTime
  let workflow ← randomNumber
  let run ← randomNumber
  let step ← randomNumber
  let lease ← randomNumber
  return {
    file? := (files.lookup ·)
    clock := fun ms => start.after (millis ms)
    workflowId := .ofRandom workflow
    runId := .ofRandom run
    stepId := fun n => .ofRandom (step + n)
    leaseId := fun n => .ofRandom (lease + n) }

end Orchestration.CommandLine

open Orchestration CommandLine

def main (words : List String) : IO UInt32 := do
  let invocation := Invocation.ofWords (← IO.getEnv "AOR_CONFIG") words
  let paths := match invocation with
    | .ok i => i.paths
    | .error _ => []
  let o := outcome (← surroundings paths) invocation
  IO.print o.output
  IO.eprint o.complaint
  return o.exitCode
