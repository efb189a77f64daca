import Orchestration.Uuid

namespace Orchestration

structure Ticket where
  run : Uuid
  step : Uuid
deriving DecidableEq

structure Queue where
  tickets : List Ticket
deriving DecidableEq

namespace Queue

def empty : Queue := ⟨[]⟩

def size (q : Queue) : Nat := q.tickets.length

def isEmpty (q : Queue) : Bool := q.tickets.isEmpty

def push (q : Queue) (run : Uuid) (steps : List Uuid) : Queue :=
  ⟨q.tickets ++ steps.map (⟨run, ·⟩)⟩

def pushFront (q : Queue) (ticket : Ticket) : Queue := ⟨ticket :: q.tickets⟩

def pop? (q : Queue) : Option (Ticket × Queue) :=
  match q.tickets with
  | [] => none
  | ticket :: rest => some (ticket, ⟨rest⟩)

end Queue

end Orchestration
