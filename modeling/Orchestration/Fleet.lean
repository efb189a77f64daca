import Orchestration.Fleet.Shift
import Orchestration.Settings.Basic

namespace Orchestration

structure Site where
  tools : Toolbox
  pool : Pool
  leaseId : Nat → Uuid
  clock : Nat → Timestamp

namespace Site

def pollInterval (s : Site) : Nat := max 1 s.pool.pollIntervalMs.toNat

def heartbeatInterval (s : Site) : Nat := max 1 s.pool.heartbeatIntervalMs.toNat

end Site

structure Fleet where
  service : Service
  now : Nat
  shifts : List Shift
  /-- The places of the shifts whose turns are due now, in order. -/
  waiting : List Nat
  turns : Nat
  jobs : List Job
  leases : Nat
  /-- The look-ups that the caller may make before the others have their turns. -/
  stamina : Nat

namespace Fleet

def ofService (service : Service) : Fleet := ⟨service, 0, [], [], 0, [], 0, Shift.fullStamina⟩

def withBroker (f : Fleet) (broker : Broker) : Fleet :=
  { f with service := { f.service with broker } }

def alarm (f : Fleet) (pause : Nat) : Alarm := ⟨f.now + pause, f.turns⟩

/-- A further shift, whose turn comes after those that are due now. -/
def add (f : Fleet) (duty : Duty) : Fleet :=
  { f with shifts := f.shifts ++ [.begin duty], waiting := f.waiting ++ [f.shifts.length] }

def withWorker (f : Fleet) (name : String) : Fleet := f.add (.idle name (f.alarm 0))

def withSweeper (f : Fleet) (interval : Nat) : Fleet := f.add (.sweep (max 1 interval) .ended)

def seek (f : Fleet) : Stage × Fleet :=
  match f.service.broker.queue.pop? with
  | none => (.ended (.ok false), f)
  | some (ticket, queue) => (.asking ticket, f.withBroker { f.service.broker with queue })

def beginJob (f : Fleet) (job : Job) : Fleet :=
  { f with jobs := f.jobs ++ [job], leases := f.leases + 1 }

def advance (f : Fleet) (site : Site) (worker : String) : Stage → Stage × Fleet
  | .asking ticket =>
    match f.service.broker.offer ticket worker (site.leaseId f.leases) (site.clock f.now) with
    | .done (.ok (some a)) broker =>
      let job := Job.ofAssignment site.tools a
      (.starting job, (f.withBroker broker).beginJob job)
    | .done (.ok none) broker => (.ended (.ok false), f.withBroker broker)
    | .done (.error why) broker => (.ended (.error why), f.withBroker broker)
    | .again broker => (f.withBroker broker).seek
  | .starting job =>
    (if job.delayMs = 0 then .reporting job else .renewing job (f.alarm job.delayMs), f)
  | .renewing job finish =>
    match f.service.heartbeat worker job.step (site.clock f.now) with
    | (.ok _, service) => (.renewed job finish, { f with service })
    | (.error why, service) =>
      (.ended (if Worker.drops why then .ok true else .error why), { f with service })
  | .renewed job finish => (.working job (f.alarm site.heartbeatInterval) finish, f)
  | .working job _ finish =>
    (if finish.time ≤ f.now then .reporting job else .renewing job finish, f)
  | .reporting job =>
    let (result, service) := Worker.finish f.service job (site.clock f.now)
    (.ended (result.map fun _ => true), { f with service })
  | .ended result => (.ended result, f)

def proceed (f : Fleet) (site : Site) : Patrol → Patrol × Fleet
  | .listing => (.ofRuns f.service.broker.ledger.ids, f)
  | .checking run rest =>
    let isOverdue := f.service.broker.isOverdue run (site.clock f.now)
    (if isOverdue then .sweeping run rest else .ofRuns rest, f)
  | .sweeping run rest =>
    match f.service.broker.sweepRun (site.clock f.now) run ⟨0, 0, 0, 0⟩ with
    | (.ok _, broker) => (.ofRuns rest, f.withBroker broker)
    | (.error _, broker) => (.ended, f.withBroker broker)
  | .ended => (.ended, f)

def step (f : Fleet) (site : Site) : Duty → Duty × Fleet
  | .idle worker _ =>
    let (stage, f) := f.seek
    (.round worker stage, f)
  | .round worker (.ended _) => (.idle worker (f.alarm site.pollInterval), f)
  | .round worker stage =>
    match f.advance site worker stage with
    | (.ended (.ok true), f) => (.idle worker (f.alarm 0), f)
    | (stage, f) => (.round worker stage, f)
  | .asleep interval _ => (.sweep interval .listing, f)
  | .sweep interval .ended => (.asleep interval (f.alarm interval), f)
  | .sweep interval patrol =>
    let (patrol, f) := f.proceed site patrol
    (.sweep interval patrol, f)

def act (site : Site) : Nat → Shift → Fleet → Shift × Fleet
  | 0, shift, f => (shift, f)
  | fuel + 1, shift, f =>
    if shift.isWaiting f.now then (shift, f)
    else match shift.pay? with
      | none => (shift, f)
      | some shift =>
        let (duty, f) := f.step site shift.duty
        act site fuel { shift with duty } f

/-- The turn of the shift at `i`. At most three acts in a row take no look-up. -/
def turn (f : Fleet) (site : Site) (i : Nat) : Fleet :=
  match f.shifts[i]? with
  | none => f
  | some shift =>
    let (shift, f) := act site (4 * shift.stamina + 4) shift { f with turns := f.turns + 1 }
    if shift.isWaiting f.now then { f with shifts := f.shifts.set i shift }
    else { f with shifts := f.shifts.set i shift.rest, waiting := i :: f.waiting }

/-- All whose turns are due have one. Of those that are not done then, the last one comes first
the next time. -/
def pass (f : Fleet) (site : Site) : Fleet :=
  f.waiting.foldl (fun f i => f.turn site i) { f with waiting := [] }

def nextTime? (f : Fleet) : Option Nat :=
  (f.shifts.filterMap fun shift => shift.alarm?.map (·.time)).min?

def ringing (f : Fleet) : List (Alarm × Nat) :=
  let due := f.shifts.zipIdx.filterMap fun (shift, i) => shift.alarm?.map (·, i)
  let due := due.filter fun (alarm, i) => alarm.time ≤ f.now && !f.waiting.contains i
  due.mergeSort fun a b => !b.1.precedes a.1

def ring (f : Fleet) : Fleet :=
  let places := f.ringing.map (·.2)
  let shifts := f.shifts.mapIdx fun i shift => if places.contains i then shift.wake else shift
  { f with shifts, waiting := f.waiting ++ places }

def reach (f : Fleet) (time : Nat) : Fleet := { f with now := max f.now time }.ring

def runWithin (site : Site) (limit : Nat) (done : Fleet → Bool) : Nat → Fleet → Fleet
  | 0, f => f
  | fuel + 1, f =>
    if done f then f
    else if !f.waiting.isEmpty then runWithin site limit done fuel (f.pass site)
    else match f.nextTime? with
      | none => f
      | some time => if time < limit then runWithin site limit done fuel (f.reach time) else f

def grants (f : Fleet) : Nat :=
  f.service.broker.ledger.records.foldr (fun entry n =>
    entry.2.plan.workflow.nodes.foldr (fun node n => node.retryLimit.toNat + 1 + n) n) 0

def tickets (f : Fleet) : Nat := f.service.broker.queue.size + f.grants

/-- Lets everything happen before `limit`, until the fleet is `done`. At one time a sweeper makes
some look-ups for each run; what else takes look-ups uses up a ticket. -/
def run (f : Fleet) (site : Site) (limit : Nat) (done : Fleet → Bool) : Fleet :=
  let sweeps := f.shifts.length * (f.service.broker.ledger.size + 1)
  runWithin site limit done ((limit - f.now + 1) * (sweeps + 2) + 16 * f.tickets) f

/-- The caller lets time pass. What is due just at the end is left for later. -/
def wait (f : Fleet) (site : Site) (duration : Nat) : Fleet :=
  if duration = 0 then f
  else
    let time := f.now + duration
    let f := (f.run site time fun _ => false).reach time
    { f with stamina := Shift.fullStamina - 1 }

def lastIsOver (f : Fleet) : Bool := f.shifts.getLast?.all Shift.isOver

/-- Ends the shift that began last, while the others go on. A round or a sweep under way is finished
first. -/
def close (f : Fleet) (site : Site) : Fleet :=
  match f.shifts.getLast? with
  | none => f
  | some last =>
    let f := { f with shifts := f.shifts.dropLast ++ [{ last with leaving := true }] }
    let f := (f.pass site).run site (f.now + 1) lastIsOver
    let f := match f.shifts.getLast?.bind (·.duty.finish?) with
      | none => f
      | some time => f.run site (time + 1) lastIsOver
    { f with
      shifts := f.shifts.dropLast
      waiting := f.waiting.filter (· + 1 < f.shifts.length)
      stamina := Shift.fullStamina - 1 }

end Fleet

end Orchestration
