import Mathlib.Algebra.Group.Nat.Defs
import Orchestration.Settings.Scheduling

namespace Orchestration.Scheduling

theorem ttl_pos {c : Scheduling} {node : Node} (lasting : c.leaseTtlSecs ≠ 0)
    (timed : node.timeoutSecs ≠ some 0) : 0 < c.ttl node := by
  have positive {secs : UInt64} (nonzero : secs ≠ 0) : 0 < seconds secs.toNat := by
    have : secs.toNat ≠ 0 := fun zero => nonzero (UInt64.toNat_inj.mp zero)
    unfold seconds
    omega
  unfold ttl
  split
  · rename_i secs given
    exact positive fun zero => timed (by rw [given, zero])
  · exact positive lasting

theorem le_ttl {c : Scheduling} {node : Node} (positive : 0 < c.ttl node) : 1000000000 ≤ c.ttl node := by
  unfold ttl leaseTtl seconds at *
  split at positive <;> omega

theorem lasting_of_flaw? {c : Scheduling} (accepted : c.flaw? = none) : c.leaseTtlSecs ≠ 0 := by
  unfold flaw? at accepted
  split at accepted
  · cases accepted
  · assumption

end Orchestration.Scheduling
