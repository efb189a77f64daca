import Orchestration.Proofs.Run.Valid
import Orchestration.Proofs.Settings.Scheduling
import Orchestration.Proofs.Timestamp

namespace Orchestration

/-- How delays move times. Time is counted without leap seconds. In one of them the count stands a second
back, and only there may a later time lead to an earlier one. A clock comes to none by moving forward. -/
structure Timestamp.Delays : Prop where
  counted : ∀ (now : Timestamp) (delay : Nat),
    (now.after delay).nanos = min (now.nanos + delay) latest.nanos
  leap : ∀ (now : Timestamp) (delay : Nat), (now.after delay).leap = true ↔ now.Lingers delay
  countedMono : ∀ (now now' : Timestamp) (delay delay' : Nat), now.nanos ≤ now'.nanos →
    delay ≤ delay' → (now.after delay).nanos ≤ (now'.after delay').nanos
  forward : ∀ (now : Timestamp) (delay : Nat), now ≤ latest → now ≤ now.after delay
  monoDelay : ∀ (now : Timestamp) (delay delay' : Nat), now ≤ latest → delay ≤ delay' →
    now.after delay ≤ now.after delay'
  mono : ∀ (now now' : Timestamp) (delay delay' : Nat), now ≤ now' → now'.leap = false →
    delay ≤ delay' → now.after delay ≤ now'.after delay'
  clock : ∀ (now : Timestamp) (delay : Nat), now.leap = false → (now.advance delay).leap = false

theorem Timestamp.Delays.all : Delays where
  counted := nanos_after
  leap _ _ := leap_after
  countedMono _ _ _ _ := nanos_after_mono
  forward _ delay within := le_after within delay
  monoDelay _ _ _ := after_mono_delay
  mono _ _ _ _ := after_mono
  clock _ := advance_regular

def Step.deadline? (s : Step) : Option Timestamp := s.lease.map (·.expiresAt)

theorem Change.deadline {node : Node} {r r' : RunRecord} {s t : Step} {e : Event} {c : Scheduling}
    {deadline : Timestamp} (change : Change node r s e r' t) (under : e.Under c)
    (held : t.deadline? = some deadline) :
    s.deadline? = some deadline ∨ deadline = e.now.after (c.ttl node) := by
  cases change with
  | lease | renew =>
    obtain rfl := under
    exact .inr (Option.some.inj held).symm
  | reject | promote => exact .inl held
  | retry | reclaim =>
    rw [Step.deadline?, Step.again_lease] at held
    cases held
  | _ => cases held

namespace Run

variable {p : Plan} {s : Run p} {c : Scheduling} {e : Event} {l : Lease}

end Run

end Orchestration
