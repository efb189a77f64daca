import Orchestration.Cents
import Orchestration.Text.Decimal

namespace Orchestration

open Text

inductive SettingsFlaw where
  | zeroLeaseTtl
  | zeroSweepInterval
  | sweepNotShorter
  | noWorkers
  | zeroHeartbeat
  | heartbeatNotShorter
deriving DecidableEq

namespace SettingsFlaw

def message : SettingsFlaw → String
  | .zeroLeaseTtl => "default_lease_ttl_secs must be greater than zero"
  | .zeroSweepInterval => "sweep_interval_ms must be greater than zero"
  | .sweepNotShorter => "sweep_interval_ms must be shorter than the default lease TTL"
  | .noWorkers => "worker.workers must be at least 1"
  | .zeroHeartbeat => "worker.heartbeat_interval_ms must be greater than zero"
  | .heartbeatNotShorter =>
    "worker.heartbeat_interval_ms must be shorter than the default lease TTL"

end SettingsFlaw

inductive Flaw where
  | emptyName
  | emptyWorkflow
  | duplicateNode (id : String)
  | unknownDependency (node missing : String)
  | selfDependency (node : String)
  /-- The nodes on a cycle or behind one, in declaration order. -/
  | cycle (nodes : List String)
  | negativeCost (node : String) (cost : Cents)
  | zeroTimeout (node : String)
  | timeoutNotLonger (node : String) (timeoutSecs sweepIntervalMs : UInt64)
  | negativeBudget (budget : Cents)
  | settings (flaw : SettingsFlaw)
deriving DecidableEq

namespace Flaw

def message : Flaw → String
  | .emptyName => "workflow name must not be empty"
  | .emptyWorkflow => "workflow must contain at least one node"
  | .duplicateNode id => "duplicate node ID: '" ++ id ++ "'"
  | .unknownDependency node missing =>
    "node '" ++ node ++ "' depends on unknown node '" ++ missing ++ "'"
  | .selfDependency node => "node '" ++ node ++ "' depends on itself"
  | .cycle nodes => "workflow graph contains a cycle through: " ++ ", ".intercalate nodes
  | .negativeCost node cost =>
    "node '" ++ node ++ "' has a negative estimated cost (" ++ decimal cost.value ++ " cents)"
  | .zeroTimeout node => "node '" ++ node ++ "' has a zero timeout"
  | .timeoutNotLonger node timeoutSecs sweepIntervalMs =>
    "node '" ++ node ++ "' times out after " ++ natural timeoutSecs.toNat ++
      "s, which is not longer than the " ++ natural sweepIntervalMs.toNat ++ "ms sweep interval"
  | .negativeBudget budget =>
    "budget must not be negative (" ++ decimal budget.value ++ " cents)"
  | .settings flaw => "invalid configuration: " ++ flaw.message

end Flaw

end Orchestration
