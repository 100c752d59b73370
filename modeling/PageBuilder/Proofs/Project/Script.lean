import PageBuilder.Project.Script
import PageBuilder.Proofs.Outcome

/-!
Runs of steps. Only the disk can end them early, and lines that are printed leave it as it is.
-/

namespace PageBuilder

def Effect.prints : Effect → Bool
  | .print _ | .warn _ => true
  | .makeDirectories _ | .write _ _ => false

namespace Outcome

variable {outcome next failed : Outcome}

theorem attempted_ok {attempt : Attempt} :
    outcome.attempted attempt = .ok next ↔
      attempt.fault = none ∧ next = { outcome with disk := attempt.disk } := by
  rw [attempted]
  split
  · rename_i faultless
    simp [faultless, eq_comm]
  · rename_i fault ended
    simp [ended]

theorem attempted_error {attempt : Attempt} (ended : outcome.attempted attempt = .error failed) :
    ∃ fault, failed.fault = some (.file fault) := by
  rw [attempted] at ended
  split at ended
  · cases ended
  · rename_i fault _
    exact ⟨fault, (Except.error.inj ended) ▸ rfl⟩

theorem steps_append (outcome : Outcome) (first second : List Effect) :
    outcome.steps (first ++ second) = outcome.steps first >>= fun next => next.steps second := by
  induction first generalizing outcome with
  | nil => rfl
  | cons effect rest ih =>
      rw [List.cons_append, steps, steps]
      cases outcome.step effect with
      | error failed => rfl
      | ok middle => exact ih middle

theorem fault_of_steps {effects : List Effect} (ended : outcome.steps effects = .error failed) :
    ∃ fault, failed.fault = some (.file fault) := by
  induction effects generalizing outcome with
  | nil => cases ended
  | cons effect rest ih =>
      rw [steps, bind_eq_error] at ended
      rcases ended with first | ⟨middle, _, later⟩
      · cases effect with
        | print line => cases first
        | warn line => cases first
        | makeDirectories path => exact attempted_error first
        | write path text => exact attempted_error first
      · exact ih later

theorem disk_of_step {effect : Effect} (prints : effect.prints = true)
    (ran : outcome.step effect = .ok next) : next.disk = outcome.disk := by
  cases effect with
  | print line => rw [← Except.ok.inj ran]
  | warn line => rw [← Except.ok.inj ran]
  | makeDirectories path => cases prints
  | write path text => cases prints

theorem disk_of_steps {lines : List Effect} (print : ∀ effect ∈ lines, effect.prints = true)
    (ran : outcome.steps lines = .ok next) : next.disk = outcome.disk := by
  induction lines generalizing outcome with
  | nil => rw [Except.ok.inj ran]
  | cons effect rest ih =>
      obtain ⟨middle, first, later⟩ := bind_eq_ok.1 ran
      rw [ih (fun effect member => print effect (List.mem_cons_of_mem _ member)) later,
        disk_of_step (print effect List.mem_cons_self) first]

end Outcome

theorem Script.run_steps {script : Script} {disk : Disk}
    (finished : ∀ fault, (script.run disk).fault ≠ some (.file fault)) :
    ∃ ended, (Outcome.start disk).steps script.steps = .ok ended ∧
      (script.run disk).disk = ended.disk := by
  cases ran : (Outcome.start disk).steps script.steps with
  | error failed =>
      obtain ⟨fault, same⟩ := Outcome.fault_of_steps ran
      rw [run, ran] at finished
      exact absurd same (finished fault)
  | ok ended =>
      refine ⟨ended, rfl, ?_⟩
      rw [run, ran]

end PageBuilder
