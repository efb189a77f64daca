import Orchestration.Flaw
import Orchestration.Run.Status
import Orchestration.Time.Timestamp
import Orchestration.Workflow.Node

namespace Orchestration

structure Scheduling where
  /-- How long a lease lasts on a node without a timeout of its own. -/
  leaseTtlSecs : UInt64
  sweepIntervalMs : UInt64
  /-- The wait before the first retry; it doubles with each further one. Zero retries at once. -/
  retryBaseDelayMs : UInt64
  retryMaxDelayMs : UInt64
  failurePolicy : FailurePolicy
deriving DecidableEq

namespace Scheduling

instance : Inhabited Scheduling := ⟨⟨1800, 1000, 0, 60000, .failFast⟩⟩

/-- In nanoseconds. -/
def leaseTtl (c : Scheduling) : Nat := seconds c.leaseTtlSecs.toNat

def sweepInterval (c : Scheduling) : Nat := millis c.sweepIntervalMs.toNat

def ttl (c : Scheduling) (node : Node) : Nat :=
  match node.timeoutSecs with
  | some secs => seconds secs.toNat
  | none => c.leaseTtl

/-- The milliseconds to wait after attempt `attempt` failed. Products beyond 64 bits stop at the
greatest number that they hold. -/
def retryDelayMs (c : Scheduling) (attempt : UInt32) : Nat :=
  if c.retryBaseDelayMs = 0 then 0
  else
    let factor := if attempt.toNat < 64 then Nat.pow 2 attempt.toNat else 18446744073709551615
    min (min (c.retryBaseDelayMs.toNat * factor) 18446744073709551615) c.retryMaxDelayMs.toNat

def flaw? (c : Scheduling) : Option SettingsFlaw :=
  if c.leaseTtlSecs = 0 then some .zeroLeaseTtl
  else if c.sweepIntervalMs = 0 then some .zeroSweepInterval
  else if c.leaseTtl ≤ c.sweepInterval then some .sweepNotShorter
  else none

def timeoutFlaw? (c : Scheduling) (node : Node) : Option Flaw :=
  match node.timeoutSecs with
  | none => none
  | some secs =>
    if secs = 0 then some (.zeroTimeout node.id)
    else if seconds secs.toNat ≤ c.sweepInterval then
      some (.timeoutNotLonger node.id secs c.sweepIntervalMs)
    else none

def timeoutsFlaw? (c : Scheduling) (nodes : List Node) : Option Flaw :=
  nodes.findSome? c.timeoutFlaw?

end Scheduling

end Orchestration
