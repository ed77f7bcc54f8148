import Mathlib.Data.List.Basic
import Mathlib.Order.Defs.Unbundled

/-!
# Runs of an event-driven system

A step function takes a state and an event to the next state, and a run is the list
of its events. What holds at the start and is kept by every step holds at the end of
every run; a condition on the events of a run may use the state before each of them;
and a preorder that every step follows relates the ends of a run.
-/
namespace Seftp.EventRuns

section
variable {σ ε : Type} (step : σ → ε → σ)

def run (s : σ) (es : List ε) : σ := es.foldl step s

/-- Every event of the run meets a condition on the state before it. -/
def Along (P : σ → ε → Prop) : σ → List ε → Prop
  | _, [] => True
  | s, e :: es => P s e ∧ Along P (step s e) es

@[simp] theorem run_nil (s : σ) : run step s [] = s := rfl

@[simp] theorem run_cons (s : σ) (e : ε) (es : List ε) :
    run step s (e :: es) = run step (step s e) es := rfl

theorem run_append (s : σ) (es fs : List ε) :
    run step s (es ++ fs) = run step (run step s es) fs := List.foldl_append

variable {step}

/-- An invariant that is kept by the steps which meet the condition. -/
theorem invariant_along {I : σ → Prop} {P : σ → ε → Prop} {s : σ} {es : List ε} (h : I s)
    (hstep : ∀ s e, I s → P s e → I (step s e)) (hes : Along step P s es) : I (run step s es) := by
  induction es generalizing s with
  | nil => exact h
  | cons e es ih => exact ih (hstep s e h hes.1) hes.2

/-- An invariant that every step keeps. -/
theorem invariant_run {I : σ → Prop} {s : σ} (es : List ε) (h : I s)
    (hstep : ∀ s e, I s → I (step s e)) : I (run step s es) := by
  induction es generalizing s with
  | nil => exact h
  | cons e es ih => exact ih (hstep s e h)

/-- A preorder that every step from an invariant state follows. -/
theorem related_run {I : σ → Prop} {R : σ → σ → Prop} [Std.Refl R] [IsTrans σ R] {s : σ}
    (es : List ε) (h : I s) (hstep : ∀ s e, I s → I (step s e) ∧ R s (step s e)) :
    R s (run step s es) := by
  induction es generalizing s with
  | nil => exact Std.Refl.refl s
  | cons e es ih =>
      obtain ⟨hnext, hrel⟩ := hstep s e h
      exact IsTrans.trans s (step s e) _ hrel (ih hnext)

theorem along_append {P : σ → ε → Prop} {s : σ} {es fs : List ε} :
    Along step P s (es ++ fs) ↔ Along step P s es ∧ Along step P (run step s es) fs := by
  induction es generalizing s with
  | nil => simp [Along]
  | cons e es ih => simp [Along, ih, and_assoc]

end

end Seftp.EventRuns
