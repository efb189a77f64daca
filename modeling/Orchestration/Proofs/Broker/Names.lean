import Orchestration.Broker
import Orchestration.Proofs.Ledger

namespace Orchestration

namespace Ledger

variable {α : Type}

def names (l : Ledger α) : List Uuid := l.keys ++ l.aliases.map (·.1)

variable {l l' : Ledger α} {id : Uuid} {a : α} {aliases : List Uuid}

theorem transition_ids {ε β : Type} (l : Ledger α) (id : Uuid) (missing : LedgerError → ε)
    (change : α → Except ε β × α) :
    (l.transition id missing change).2.keys = l.keys ∧
      (l.transition id missing change).2.ids = l.ids ∧
      (l.transition id missing change).2.aliases = l.aliases := by
  unfold transition
  split
  · exact ⟨rfl, rfl, rfl⟩
  · split
    · exact ⟨keys_set .., rfl, rfl⟩
    · exact ⟨rfl, rfl, rfl⟩

theorem mem_names_of_insert (inserted : l.insert id a aliases = (.ok (), l')) {name : Uuid}
    (member : name ∈ l'.names) : name ∈ l.names ∨ name ∈ id :: aliases := by
  have inserts := inserts_of_insert inserted
  unfold names at *
  rw [inserts.keys] at member
  simp only [List.mem_append, mem_aliases_iff, inserts.resolve?, List.mem_cons, List.not_mem_nil,
    or_false] at *
  rcases member with (old | new) | bound
  · exact .inl (.inl old)
  · exact .inr (.inl new)
  · split at bound
    · exact .inr (.inr ‹_›)
    · exact .inl (.inr bound)

theorem foldl_bind_of_new (distinct : aliases.Nodup) (new : ∀ name ∈ aliases, l.resolve? name = none)
    (id : Uuid) :
    (aliases.foldl (bind id) l).aliases = l.aliases ++ aliases.map (·, id) := by
  induction aliases generalizing l with
  | nil => exact (List.append_nil _).symm
  | cons first aliases ih =>
    obtain ⟨absent, distinct⟩ := List.nodup_cons.mp distinct
    have bound : (l.bind id first).aliases = l.aliases ++ [(first, id)] :=
      put_of_new (new first (List.mem_cons_self ..)) id
    rw [List.foldl_cons, ih distinct, bound, List.append_assoc]
    · rfl
    · intro name member
      have other : name ≠ first := fun same => absent (same ▸ member)
      unfold resolve?
      rw [bound, List.lookup_append, lookup_cons_eq, if_neg other]
      have free := new name (List.mem_cons_of_mem _ member)
      unfold resolve? at free
      rw [free]
      rfl

theorem insert_of_new (a : α) (distinct : aliases.Nodup)
    (new : ∀ name ∈ id :: aliases, name ∉ l.names) :
    l.insert id a aliases =
      (.ok (), ⟨l.records ++ [(id, a)], l.aliases ++ aliases.map (·, id), l.order ++ [id]⟩) := by
  have unknown (name : Uuid) (member : name ∈ id :: aliases) :
      ¬ (l.find? name).isSome ∧ ¬ (l.resolve? name).isSome := by
    rw [← mem_keys_iff, ← mem_aliases_iff]
    exact not_or.mp fun known => new name member (List.mem_append.mpr known)
  rcases l.insert_cases id a aliases with ⟨taken, -⟩ | ⟨⟨records, bound, order⟩, inserted, inserts⟩
  · rcases taken with taken | ⟨name, member, taken⟩
    · exact absurd taken (unknown id (List.mem_cons_self ..)).1
    · exact absurd taken (unknown name (List.mem_cons_of_mem _ member)).2
  · have aliases := inserts.aliases
    rw [foldl_bind_of_new distinct inserts.unbound] at aliases
    obtain rfl : records = _ := inserts.records
    obtain rfl : bound = _ := aliases
    obtain rfl : order = _ := inserts.ids
    exact inserted

end Ledger

namespace Broker

structure Knows (b b' : Broker) : Prop where
  keys : b'.ledger.keys = b.ledger.keys
  ids : b'.ledger.ids = b.ledger.ids
  aliases : b'.ledger.aliases = b.ledger.aliases
  settings : b'.settings = b.settings

variable {b b' b'' : Broker} {worker : String} {lease : Uuid} {now : Timestamp}

namespace Knows

theorem refl (b : Broker) : b.Knows b := ⟨rfl, rfl, rfl, rfl⟩

theorem trans (first : b.Knows b') (second : b'.Knows b'') : b.Knows b'' where
  keys := second.keys.trans first.keys
  ids := second.ids.trans first.ids
  aliases := second.aliases.trans first.aliases
  settings := second.settings.trans first.settings

theorem names (knows : b.Knows b') : b'.ledger.names = b.ledger.names := by
  rw [Ledger.names, knows.keys, knows.aliases]
  rfl

theorem consistent (knows : b.Knows b') (consistent : b.ledger.Consistent) : b'.ledger.Consistent := by
  constructor
  · rw [knows.keys]
    exact consistent.distinct
  · rw [knows.keys, knows.ids]
    exact consistent.listed

end Knows

theorem onRun_knows {β : Type} (b : Broker) (id : Uuid)
    (change : {p : Plan} → Run p → Except Refusal β × Run p) : b.Knows (b.onRun id change).2 := by
  obtain ⟨keys, ids, aliases⟩ :=
    b.ledger.transition_ids id Refusal.ofLedger fun r => r.update change
  exact ⟨keys, ids, aliases, rfl⟩

theorem enqueue_knows (b : Broker) (run : Uuid) (steps : List Uuid) : b.Knows (b.enqueue run steps) :=
  ⟨rfl, rfl, rfl, rfl⟩

def Turn.broker : Turn → Broker
  | .done _ b => b
  | .again b => b

theorem offer_knows (b : Broker) (ticket : Ticket) (worker : String) (lease : Uuid) (now : Timestamp) :
    b.Knows (b.offer ticket worker lease now).broker := by
  have run := b.onRun_knows ticket.run fun run => run.grant ticket.step worker lease now b.settings
  unfold offer
  dsimp only
  split
  · exact run
  · exact run.trans (enqueue_knows ..)
  · exact run
  · exact run.trans ⟨rfl, rfl, rfl, rfl⟩

theorem turn_knows (b : Broker) (worker : String) (lease : Uuid) (now : Timestamp) :
    b.Knows (b.turn worker lease now).broker := by
  unfold turn
  split
  · exact .refl b
  · rename_i ticket queue _
    have taken : b.Knows { b with queue } := ⟨rfl, rfl, rfl, rfl⟩
    exact taken.trans (offer_knows ..)

theorem pollWithin_knows {fuel : Nat} {result : Except Refusal (Option Assignment)}
    (polled : pollWithin worker lease now fuel b = some (result, b')) : b.Knows b' := by
  induction fuel generalizing b with
  | zero => cases polled
  | succ fuel ih =>
    have turned := b.turn_knows worker lease now
    unfold pollWithin at polled
    split at polled
    · rename_i ended
      rw [ended] at turned
      cases polled
      exact turned
    · rename_i goesOn
      rw [goesOn] at turned
      exact turned.trans (ih polled)

theorem poll_knows (b : Broker) (worker : String) (lease : Uuid) (now : Timestamp) :
    b.Knows (b.poll worker lease now).2 := by
  unfold poll
  cases polled : pollWithin worker lease now (b.queue.size + b.pendingCount + 1) b with
  | none => exact .refl b
  | some answer => exact pollWithin_knows polled

theorem heartbeat_knows (b : Broker) (worker : String) (step : Uuid) (now : Timestamp) :
    b.Knows (b.heartbeat worker step now).2 := by
  unfold heartbeat
  split
  · exact .refl b
  · rename_i run _
    have renewed := b.onRun_knows run fun r => r.renew step worker now b.settings
    split <;> simp_all

theorem complete_knows (b : Broker) (step : Uuid) (report : Report) (now : Timestamp) :
    b.Knows (b.complete step report now).2 := by
  unfold complete
  split
  · exact .refl b
  · rename_i run _
    have accepted := b.onRun_knows run fun r => r.accept step report now b.settings
    split
    · rename_i answered
      rw [answered] at accepted
      exact accepted.trans (enqueue_knows ..)
    · rename_i answered
      rw [answered] at accepted
      exact accepted

theorem sweepRun_knows (now : Timestamp) (id : Uuid) (report : SweepReport) (b : Broker) :
    b.Knows (sweepRun now id report b).2 := by
  unfold sweepRun
  split
  · exact .refl b
  · split
    · exact .refl b
    · have swept {visit : {p : Plan} → Run p → Except Refusal Sweep × Run p}
          {answer : Except Refusal Sweep} {b' : Broker}
          (visited : b.onRun id visit = (answer, b')) : b.Knows b' := by
        have knows := b.onRun_knows id visit
        rw [visited] at knows
        exact knows
      split
      · rename_i refused
        exact swept refused
      · rename_i done
        exact (swept done).trans (enqueue_knows ..)

theorem sweepRuns_knows (now : Timestamp) (ids : List Uuid) (report : SweepReport) (b : Broker) :
    b.Knows (sweepRuns now ids report b).2 := by
  induction ids generalizing report b with
  | nil => exact .refl b
  | cons id ids ih =>
    have swept := sweepRun_knows now id report b
    unfold sweepRuns
    split
    · rename_i done
      rw [done] at swept
      exact swept.trans (ih ..)
    · rename_i refused
      rw [refused] at swept
      exact swept

end Broker

end Orchestration
