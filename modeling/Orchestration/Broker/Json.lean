import Orchestration.Broker
import Orchestration.Run.Json

namespace Orchestration

namespace Step

def summary (s : Step) : Json :=
  .object [
    ("status", s.status.toJson),
    ("attempt", .ofUInt32 s.attempt),
    ("lease", .ofOption Lease.toJson s.lease),
    ("cost", .ofCents s.cost),
    ("error", .ofOption .string s.error),
    ("started_at", .ofOption .ofTimestamp s.startedAt),
    ("ended_at", .ofOption .ofTimestamp s.endedAt),
    ("retry_at", .ofOption .ofTimestamp s.retryAt)]

end Step

namespace RunView

def summary (v : RunView) : Json :=
  .object [
    ("id", .ofUuid v.run.id),
    ("status", v.run.status.toJson),
    ("cost", .ofCents v.run.cost),
    ("error", .ofOption .string v.run.error),
    ("started_at", .ofOption .ofTimestamp v.run.startedAt),
    ("ended_at", .ofOption .ofTimestamp v.run.endedAt),
    ("steps", .array (v.steps.map Step.summary))]

end RunView

namespace Receipt

def toJson : Receipt → Json
  | .applied status ready =>
    .object [("outcome", .string "applied"), ("status", status.toJson), ("ready", .ofUuids ready)]
  | .duplicate status => .object [("outcome", .string "duplicate"), ("status", status.toJson)]
  | .stale status => .object [("outcome", .string "stale"), ("status", status.toJson)]

end Receipt

namespace Renewal

def toJson : Renewal → Json
  | .renewed lease => .object [("outcome", .string "renewed"), ("lease", lease.toJson)]
  | .abandoned status =>
    .object [("outcome", .string "abandoned"), ("run_status", status.toJson)]

end Renewal

namespace SweepReport

def toJson (r : SweepReport) : Json :=
  .object [
    ("runs_swept", .ofNat r.runsSwept),
    ("expired_leases", .ofNat r.expiredLeases),
    ("promoted_retries", .ofNat r.promotedRetries),
    ("requeued", .ofNat r.requeued)]

end SweepReport

end Orchestration
