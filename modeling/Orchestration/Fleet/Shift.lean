import Orchestration.Worker

namespace Orchestration

structure Alarm where
  time : Nat
  turn : Nat

namespace Alarm

def precedes (a b : Alarm) : Bool := a.time < b.time || (a.time == b.time && a.turn < b.turn)

def first (a b : Alarm) : Alarm := if b.precedes a then b else a

end Alarm

inductive Stage where
  /-- It took a ticket from the queue, and asks for the step. -/
  | asking (ticket : Ticket)
  | starting (job : Job)
  | renewing (job : Job) (finish : Alarm)
  | renewed (job : Job) (finish : Alarm)
  | working (job : Job) (heartbeat finish : Alarm)
  | reporting (job : Job)
  /-- `result` tells whether there was a step. -/
  | ended (result : Except Refusal Bool)

namespace Stage

def alarm? : Stage → Option Alarm
  | .working _ heartbeat finish => some (heartbeat.first finish)
  | _ => none

def finish? : Stage → Option Nat
  | .renewing _ finish | .renewed _ finish | .working _ _ finish => some finish.time
  | _ => none

/-- The look-ups before the next act: one for the ledger and one for a run, one for the run that a
step belongs to. An executor that answers at once leaves time for a heartbeat in one case of two. -/
def cost : Stage → Nat
  | .asking _ => 2
  | .starting job => if job.delayMs = 0 then 2 else 1
  | .renewing _ _ | .reporting _ => 3
  | .renewed _ _ | .working _ _ _ | .ended _ => 0

end Stage

inductive Patrol where
  | listing
  | checking (run : Uuid) (rest : List Uuid)
  | sweeping (run : Uuid) (rest : List Uuid)
  | ended

namespace Patrol

def ofRuns : List Uuid → Patrol
  | [] => .ended
  | run :: rest => .checking run rest

def cost : Patrol → Nat
  | .listing => 1
  | .checking _ _ | .sweeping _ _ => 2
  | .ended => 0

end Patrol

inductive Duty where
  | idle (worker : String) (wake : Alarm)
  | round (worker : String) (stage : Stage)
  | asleep (interval : Nat) (wake : Alarm)
  | sweep (interval : Nat) (patrol : Patrol)

namespace Duty

def alarm? : Duty → Option Alarm
  | .idle _ wake | .asleep _ wake => some wake
  | .round _ stage => stage.alarm?
  | .sweep _ _ => none

def finish? : Duty → Option Nat
  | .round _ stage => stage.finish?
  | _ => none

def cost : Duty → Nat
  | .idle _ _ | .asleep _ _ => 0
  | .round _ stage => stage.cost
  | .sweep _ patrol => patrol.cost

def isFree : Duty → Bool
  | .idle _ _ | .round _ (.ended _) | .asleep _ _ | .sweep _ .ended => true
  | _ => false

end Duty

structure Shift where
  duty : Duty
  /-- Whether it ends as soon as it is free. -/
  leaving : Bool
  /-- The look-ups that it may make in its turn. -/
  stamina : Nat
  /-- The look-ups made for the next act. -/
  paid : Nat

namespace Shift

/-- The look-ups that a turn may take. Whoever needs more lets the others go first. -/
def fullStamina : Nat := 128

def begin (duty : Duty) : Shift := ⟨duty, false, fullStamina, 0⟩

def isOver (s : Shift) : Bool := s.leaving && s.duty.isFree

def alarm? (s : Shift) : Option Alarm := if s.isOver then none else s.duty.alarm?

def isWaiting (s : Shift) (now : Nat) : Bool := s.isOver || s.duty.alarm?.any (now < ·.time)

/-- The shift after the look-ups for its next act, if its stamina suffices for them. What is done
when an alarm rings takes none. -/
def pay? (s : Shift) : Option Shift :=
  let owed := s.duty.cost - s.paid
  if s.duty.alarm?.isSome then some s
  else if s.stamina = 0 || s.stamina < owed then none
  else some { s with stamina := s.stamina - owed, paid := 0 }

def rest (s : Shift) : Shift := { s with stamina := fullStamina, paid := s.paid + s.stamina }

def wake (s : Shift) : Shift := { s with stamina := fullStamina - 1 }

end Shift

end Orchestration
