import Orchestration.Executor
import Orchestration.Service

namespace Orchestration

structure Job where
  step : Uuid
  lease : Uuid
  kind : Kind
  task : Task
  delayMs : Nat
  result : Except ExecutionError Product

namespace Job

def ofAssignment (tools : Toolbox) (a : Assignment) : Job :=
  let task : Task := ⟨a.config, a.step.input, a.step.nodeId, a.step.attempt⟩
  let executor := tools.executor a.kind
  ⟨a.step.id, a.lease.id, a.kind, task, executor.delayMs task, executor.execute task⟩

def report (j : Job) : Report :=
  match j.result with
  | .ok product => .succeeded j.lease product.output product.cost
  | .error error =>
    let failed := Report.failed j.lease error.message 0
    if error.isRetryable then failed else failed.fatal

end Job

namespace Worker

def drops : Refusal → Bool
  | .leaseLost _ _ | .runStopped _ _ => true
  | _ => false

/-- The end of a job: the report is delivered. A report that comes too late is no error. -/
def finish (s : Service) (j : Job) (now : Timestamp) : Except Refusal Unit × Service :=
  let (result, s) := s.complete j.step j.report now
  (result.map fun _ => (), s)

/-- One round of a worker while the clock stands still: the job it did, if a step was ready. -/
def runOnce (s : Service) (tools : Toolbox) (worker : String) (leaseId : Uuid)
    (now : Timestamp) : Except Refusal (Option Job) × Service :=
  match s.poll worker leaseId now with
  | (.error why, s) => (.error why, s)
  | (.ok none, s) => (.ok none, s)
  | (.ok (some a), s) =>
    let job := Job.ofAssignment tools a
    match s.heartbeat worker job.step now with
    | (.error why, s) => (if drops why then .ok (some job) else .error why, s)
    | (.ok _, s) =>
      let (result, s) := finish s job now
      (result.map fun _ => some job, s)

/-- Rounds until no step is ready, at most `fuel` of them: the jobs done, and why it stopped early
if it did. The ids of the leases are `leaseId 0`, `leaseId 1`, …. -/
def drain (tools : Toolbox) (worker : String) (leaseId : Nat → Uuid) (now : Timestamp) :
    Nat → Service → List Job × Option Refusal × Service
  | 0, s => ([], none, s)
  | fuel + 1, s =>
    match runOnce s tools worker (leaseId 0) now with
    | (.error why, s) => ([], some why, s)
    | (.ok none, s) => ([], none, s)
    | (.ok (some job), s) =>
      let (jobs, why, s) := drain tools worker (fun n => leaseId (n + 1)) now fuel s
      (job :: jobs, why, s)

end Worker

end Orchestration
