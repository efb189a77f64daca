import Orchestration.Settings.Scheduling

namespace Orchestration

structure Pool where
  pollIntervalMs : UInt64
  heartbeatIntervalMs : UInt64
  workers : UInt64
deriving DecidableEq

instance : Inhabited Pool := ⟨⟨200, 10000, 4⟩⟩

structure Settings where
  scheduling : Scheduling
  pool : Pool
deriving DecidableEq, Inhabited

namespace Settings

def flaw? (s : Settings) : Option SettingsFlaw :=
  match s.scheduling.flaw? with
  | some flaw => some flaw
  | none =>
    if s.pool.workers = 0 then some .noWorkers
    else if s.pool.heartbeatIntervalMs = 0 then some .zeroHeartbeat
    else if s.scheduling.leaseTtl ≤ millis s.pool.heartbeatIntervalMs.toNat then
      some .heartbeatNotShorter
    else none

end Settings

end Orchestration
