import Orchestration.Settings.Basic
import Orchestration.Toml.Writer

namespace Orchestration

namespace Toml

def uint64? : Toml → Option UInt64
  | .integer n => if 0 ≤ n ∧ n < 18446744073709551616 then some (UInt64.ofNat n.toNat) else none
  | _ => none

/-- What a value says about the fields `names` of a record. A table says it by name and an array by
position; a moment says nothing about any. -/
def fields? (names : List String) : Toml → Option Entries
  | .table _ entries => some entries
  | .array items => some (names.zip items)
  | .tables items => some (names.zip (items.map (.table .header)))
  | .moment => some []
  | _ => none

namespace Entries

def fieldOr (es : Entries) (name : String) (read : Toml → Option α) (otherwise : α) : Option α :=
  match es.lookup name with
  | none => some otherwise
  | some v => read v

end Entries

end Toml

namespace FailurePolicy

/-- The name of a policy, or a table with the name as its one key and nothing below it. -/
def ofToml? : Toml → Option FailurePolicy
  | .string s => ofName? s
  | .table _ [(s, .table _ [])] => ofName? s
  | .table _ [(s, .array [])] => ofName? s
  | _ => none

def word (p : FailurePolicy) : Toml.Word := ⟨p.name, by cases p <;> decide⟩

end FailurePolicy

namespace Scheduling

def names : List String :=
  ["default_lease_ttl_secs", "sweep_interval_ms", "retry_base_delay_ms", "retry_max_delay_ms",
    "default_failure_policy"]

def ofToml? (v : Toml) : Option Scheduling := do
  let es ← v.fields? names
  let base : Scheduling := default
  let leaseTtlSecs ← es.fieldOr "default_lease_ttl_secs" Toml.uint64? base.leaseTtlSecs
  let sweepIntervalMs ← es.fieldOr "sweep_interval_ms" Toml.uint64? base.sweepIntervalMs
  let retryBaseDelayMs ← es.fieldOr "retry_base_delay_ms" Toml.uint64? base.retryBaseDelayMs
  let retryMaxDelayMs ← es.fieldOr "retry_max_delay_ms" Toml.uint64? base.retryMaxDelayMs
  let failurePolicy ←
    es.fieldOr "default_failure_policy" FailurePolicy.ofToml? base.failurePolicy
  some ⟨leaseTtlSecs, sweepIntervalMs, retryBaseDelayMs, retryMaxDelayMs, failurePolicy⟩

def toSection (c : Scheduling) : Toml.Section where
  name := ⟨"orchestrator", by decide⟩
  data := [
    (⟨"default_lease_ttl_secs", by decide⟩, .number c.leaseTtlSecs),
    (⟨"sweep_interval_ms", by decide⟩, .number c.sweepIntervalMs),
    (⟨"retry_base_delay_ms", by decide⟩, .number c.retryBaseDelayMs),
    (⟨"retry_max_delay_ms", by decide⟩, .number c.retryMaxDelayMs),
    (⟨"default_failure_policy", by decide⟩, .word c.failurePolicy.word)]
  distinct := by
    show names.Nodup
    decide

end Scheduling

namespace Pool

def names : List String := ["poll_interval_ms", "heartbeat_interval_ms", "workers"]

def ofToml? (v : Toml) : Option Pool := do
  let es ← v.fields? names
  let base : Pool := default
  let pollIntervalMs ← es.fieldOr "poll_interval_ms" Toml.uint64? base.pollIntervalMs
  let heartbeatIntervalMs ←
    es.fieldOr "heartbeat_interval_ms" Toml.uint64? base.heartbeatIntervalMs
  let workers ← es.fieldOr "workers" Toml.uint64? base.workers
  some ⟨pollIntervalMs, heartbeatIntervalMs, workers⟩

def toSection (p : Pool) : Toml.Section where
  name := ⟨"worker", by decide⟩
  data := [
    (⟨"poll_interval_ms", by decide⟩, .number p.pollIntervalMs),
    (⟨"heartbeat_interval_ms", by decide⟩, .number p.heartbeatIntervalMs),
    (⟨"workers", by decide⟩, .number p.workers)]
  distinct := by
    show names.Nodup
    decide

end Pool

inductive SettingsError where
  | unreadable
  | malformed
  | flawed (flaw : SettingsFlaw)
deriving DecidableEq

namespace Settings

def ofToml? (v : Toml) : Option Settings := do
  let es ← v.fields? ["orchestrator", "worker"]
  let scheduling ← es.fieldOr "orchestrator" Scheduling.ofToml? default
  let pool ← es.fieldOr "worker" Pool.ofToml? default
  some ⟨scheduling, pool⟩

def checked (s : Settings) : Except SettingsError Settings :=
  match s.flaw? with
  | some flaw => .error (.flawed flaw)
  | none => .ok s

def load (path : Option String) (file? : String → Option String) :
    Except SettingsError Settings :=
  match path with
  | none => checked default
  | some path =>
    match file? path with
    | none => .error .unreadable
    | some text =>
      match (Toml.ofText? text).bind ofToml? with
      | none => .error .malformed
      | some s => s.checked

def toSheet (s : Settings) : Toml.Sheet where
  sections := [s.scheduling.toSection, s.pool.toSection]
  distinct := by
    show ["orchestrator", "worker"].Nodup
    decide

def toToml? (s : Settings) : Option String := s.toSheet.write?

end Settings

end Orchestration
