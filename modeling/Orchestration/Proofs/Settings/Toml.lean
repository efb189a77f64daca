import Orchestration.CommandLine.Program
import Orchestration.Proofs.Toml.Writer

namespace Orchestration

theorem Toml.uint64?_toNat (n : UInt64) : uint64? (.integer n.toNat) = some n := by
  have small := n.toNat_lt
  unfold uint64?
  dsimp only
  rw [if_pos (by omega), Int.toNat_natCast, UInt64.ofNat_toNat]

theorem Toml.fields?_table (names : List String) (origin : Origin) (es : Entries) :
    fields? names (.table origin es) = some es := rfl

theorem Toml.Entries.fieldOr_eq {α : Type} {es : Toml.Entries} (name : String)
    {read : Toml → Option α} {v : Toml} {a : α} (found : es.lookup name = some v)
    (reads : read v = some a) (otherwise : α) : es.fieldOr name read otherwise = some a := by
  unfold fieldOr
  rw [found]
  exact reads

namespace FailurePolicy

theorem ofToml?_name (p : FailurePolicy) : ofToml? (.string p.name) = some p := by
  cases p <;> rfl

end FailurePolicy

namespace Scheduling

theorem ofToml?_toSection (c : Scheduling) :
    ofToml? (.table .header (Toml.entriesOf c.toSection.data)) = some c := by
  have leaseTtlSecs := Toml.uint64?_toNat c.leaseTtlSecs
  have sweepIntervalMs := Toml.uint64?_toNat c.sweepIntervalMs
  have retryBaseDelayMs := Toml.uint64?_toNat c.retryBaseDelayMs
  have retryMaxDelayMs := Toml.uint64?_toNat c.retryMaxDelayMs
  have failurePolicy := c.failurePolicy.ofToml?_name
  unfold ofToml?
  rw [Toml.fields?_table, Option.bind_eq_bind, Option.bind_some]
  dsimp only
  rw [Toml.Entries.fieldOr_eq "default_lease_ttl_secs" rfl leaseTtlSecs,
    Toml.Entries.fieldOr_eq "sweep_interval_ms" rfl sweepIntervalMs,
    Toml.Entries.fieldOr_eq "retry_base_delay_ms" rfl retryBaseDelayMs,
    Toml.Entries.fieldOr_eq "retry_max_delay_ms" rfl retryMaxDelayMs,
    Toml.Entries.fieldOr_eq "default_failure_policy" rfl failurePolicy]
  rfl

end Scheduling

namespace Pool

theorem ofToml?_toSection (p : Pool) :
    ofToml? (.table .header (Toml.entriesOf p.toSection.data)) = some p := by
  have pollIntervalMs := Toml.uint64?_toNat p.pollIntervalMs
  have heartbeatIntervalMs := Toml.uint64?_toNat p.heartbeatIntervalMs
  have workers := Toml.uint64?_toNat p.workers
  unfold ofToml?
  rw [Toml.fields?_table, Option.bind_eq_bind, Option.bind_some]
  dsimp only
  rw [Toml.Entries.fieldOr_eq "poll_interval_ms" rfl pollIntervalMs,
    Toml.Entries.fieldOr_eq "heartbeat_interval_ms" rfl heartbeatIntervalMs,
    Toml.Entries.fieldOr_eq "workers" rfl workers]
  rfl

end Pool

namespace Settings

def numbers (s : Settings) : List UInt64 :=
  [s.scheduling.leaseTtlSecs, s.scheduling.sweepIntervalMs, s.scheduling.retryBaseDelayMs,
    s.scheduling.retryMaxDelayMs, s.pool.pollIntervalMs, s.pool.heartbeatIntervalMs, s.pool.workers]

theorem toSheet_numbers (s : Settings) : s.toSheet.numbers = s.numbers := rfl

theorem ofToml?_toSheet (s : Settings) : ofToml? s.toSheet.value = some s := by
  have scheduling := s.scheduling.ofToml?_toSection
  have pool := s.pool.ofToml?_toSection
  unfold ofToml? Toml.Sheet.value
  rw [Toml.fields?_table, Option.bind_eq_bind, Option.bind_some]
  rw [Toml.Entries.fieldOr_eq "orchestrator" rfl scheduling,
    Toml.Entries.fieldOr_eq "worker" rfl pool]
  rfl

theorem load_of_text {s : Settings} (valid : s.flaw? = none) {text : String}
    (read : Toml.ofText? text = some s.toSheet.value) {path : String}
    {file? : String → Option String} (file : file? path = some text) :
    load (some path) file? = .ok s := by
  have checked : s.checked = .ok s := by
    unfold checked
    rw [valid]
  unfold load
  dsimp only
  rw [file]
  dsimp only
  rw [read, Option.bind_some, s.ofToml?_toSheet]
  exact checked

/-- Settings without a flaw can be shown if 63 bits hold each of their numbers. What is shown then is
loaded as what it was, from any file with that text. -/
theorem load_shown {s : Settings} (valid : s.flaw? = none) :
    ((∃ text, s.toToml? = some text) ↔ ∀ n ∈ s.numbers, n.toNat < 2 ^ 63) ∧
      ∀ text, s.toToml? = some text → CommandLine.showSettings s = .ok text ∧
        ∀ path file?, file? path = some text → load (some path) file? = .ok s := by
  constructor
  · rw [← s.toSheet_numbers, ← s.toSheet.write?_isSome_iff, Option.isSome_iff_exists]
    rfl
  · intro text shown
    have read : Toml.ofText? text = some s.toSheet.value := Toml.Sheet.ofText?_write? shown
    constructor
    · unfold CommandLine.showSettings
      rw [shown]
    · exact fun path file? file => load_of_text valid read file

theorem load_shown_default :
    (default : Settings).flaw? = none ∧ ∃ text, (default : Settings).toToml? = some text ∧
      load (some "settings.toml") (fun _ => some text) = .ok default := by
  have valid : (default : Settings).flaw? = none := by decide
  obtain ⟨⟨-, shown⟩, loads⟩ := load_shown valid
  have fit : (default : Settings).numbers.all (·.toNat < 2 ^ 63) = true := by decide
  obtain ⟨text, shown⟩ := shown (by simpa only [List.all_eq_true, decide_eq_true_eq] using fit)
  exact ⟨valid, text, shown, (loads text shown).2 _ _ rfl⟩

/-- The largest number is one too many. -/
example :
    let s (n : UInt64) : Settings := { (default : Settings) with pool := ⟨200, 10000, n⟩ }
    (s 9223372036854775807).toToml?.isSome ∧ (s 9223372036854775808).toToml? = none := by
  decide +kernel

end Settings

end Orchestration
