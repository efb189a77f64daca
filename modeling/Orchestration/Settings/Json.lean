import Orchestration.Run.Json
import Orchestration.Settings.Basic

namespace Orchestration

namespace Scheduling

def schema : List Field :=
  [⟨"default_lease_ttl_secs", [], true⟩, ⟨"sweep_interval_ms", [], true⟩,
    ⟨"retry_base_delay_ms", [], true⟩, ⟨"retry_max_delay_ms", [], true⟩,
    ⟨"default_failure_policy", [], true⟩]

def toJson (c : Scheduling) : Json :=
  .object [
    ("default_lease_ttl_secs", .ofUInt64 c.leaseTtlSecs),
    ("sweep_interval_ms", .ofUInt64 c.sweepIntervalMs),
    ("retry_base_delay_ms", .ofUInt64 c.retryBaseDelayMs),
    ("retry_max_delay_ms", .ofUInt64 c.retryMaxDelayMs),
    ("default_failure_policy", c.failurePolicy.toJson)]

def decode : Decoder Scheduling := fun room j => do
  let f ← Fields.read schema room j
  let base : Scheduling := default
  let leaseTtlSecs ← f.orElse "default_lease_ttl_secs" .uint64 base.leaseTtlSecs
  let sweepIntervalMs ← f.orElse "sweep_interval_ms" .uint64 base.sweepIntervalMs
  let retryBaseDelayMs ← f.orElse "retry_base_delay_ms" .uint64 base.retryBaseDelayMs
  let retryMaxDelayMs ← f.orElse "retry_max_delay_ms" .uint64 base.retryMaxDelayMs
  let failurePolicy ← f.orElse "default_failure_policy" FailurePolicy.decode base.failurePolicy
  some ⟨leaseTtlSecs, sweepIntervalMs, retryBaseDelayMs, retryMaxDelayMs, failurePolicy⟩

end Scheduling

namespace Pool

def schema : List Field :=
  [⟨"poll_interval_ms", [], true⟩, ⟨"heartbeat_interval_ms", [], true⟩, ⟨"workers", [], true⟩]

def toJson (p : Pool) : Json :=
  .object [
    ("poll_interval_ms", .ofUInt64 p.pollIntervalMs),
    ("heartbeat_interval_ms", .ofUInt64 p.heartbeatIntervalMs),
    ("workers", .ofUInt64 p.workers)]

def decode : Decoder Pool := fun room j => do
  let f ← Fields.read schema room j
  let base : Pool := default
  let pollIntervalMs ← f.orElse "poll_interval_ms" .uint64 base.pollIntervalMs
  let heartbeatIntervalMs ← f.orElse "heartbeat_interval_ms" .uint64 base.heartbeatIntervalMs
  let workers ← f.orElse "workers" .uint64 base.workers
  some ⟨pollIntervalMs, heartbeatIntervalMs, workers⟩

end Pool

namespace Settings

def schema : List Field := [⟨"orchestrator", [], true⟩, ⟨"worker", [], true⟩]

def toJson (s : Settings) : Json :=
  .object [("orchestrator", s.scheduling.toJson), ("worker", s.pool.toJson)]

def decode : Decoder Settings := fun room j => do
  let f ← Fields.read schema room j
  let scheduling ← f.orElse "orchestrator" Scheduling.decode default
  let pool ← f.orElse "worker" Pool.decode default
  some ⟨scheduling, pool⟩

end Settings

end Orchestration
