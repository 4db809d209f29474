import UrlShortener.Runs.Basic
import Mathlib.Data.List.Basic

/-!
# Components that answer their calls

A component handles a call `o : O` in a state, answers with a value of `A o` and goes to a new state.

* `final`, `answers`: the state after a list of calls, and the calls with their answers.
* `filterMap_answers_conserved`: a component that buffers what comes in and gives it out first in, first
  out, as soon as each of its calls does.
* `answers_agree`: two components whose states stay related give answers that agree.
* `Along`: every call of a run meets a condition in the state before it; `answers_agree_along` is the rule for
  two components that stay related as long as the calls do.
-/

namespace UrlShortener.Runs

variable {O : Type} {A : O → Type} {S : Type} (handle : (o : O) → S → A o × S)

/-- The state after the calls. -/
def final (s : S) (ops : List O) : S := after (fun o s => (handle o s).2) s ops

/-- The calls, each with its answer. -/
def answers : S → List O → List ((o : O) × A o)
  | _, [] => []
  | s, o :: ops => ⟨o, (handle o s).1⟩ :: answers (handle o s).2 ops

@[simp] theorem final_nil (s : S) : final handle s [] = s := rfl

@[simp] theorem final_cons (s : S) (o : O) (ops : List O) :
    final handle s (o :: ops) = final handle (handle o s).2 ops := rfl

@[simp] theorem answers_nil (s : S) : answers handle s [] = [] := rfl

@[simp] theorem answers_cons (s : S) (o : O) (ops : List O) :
    answers handle s (o :: ops) = ⟨o, (handle o s).1⟩ :: answers handle (handle o s).2 ops := rfl

@[simp] theorem answers_append (s : S) (ops ops' : List O) :
    answers handle s (ops ++ ops') = answers handle s ops ++ answers handle (final handle s ops) ops' := by
  induction ops generalizing s with
  | nil => rfl
  | cons o ops ih => simp [ih]

theorem fst_mem_of_mem_answers {s : S} {ops : List O} {a : (o : O) × A o} (ha : a ∈ answers handle s ops) :
    a.1 ∈ ops := by
  induction ops generalizing s with
  | nil => exact absurd ha List.not_mem_nil
  | cons o ops ih =>
    rcases List.mem_cons.1 ha with rfl | ha
    · exact List.mem_cons_self ..
    · exact List.mem_cons_of_mem _ (ih ha)

theorem filterMap_cons_toList {α β : Type} (f : α → Option β) (x : α) (l : List α) :
    (x :: l).filterMap f = (f x).toList ++ l.filterMap f := by
  cases h : f x <;> simp [h]

/-- Every call meets the condition in the state before it. -/
def Along (P : O → S → Prop) : S → List O → Prop
  | _, [] => True
  | s, o :: ops => P o s ∧ Along P (handle o s).2 ops

instance Along.decidable (P : O → S → Prop) [∀ o s, Decidable (P o s)] :
    (s : S) → (ops : List O) → Decidable (Along handle P s ops)
  | _, [] => isTrue trivial
  | s, o :: ops =>
    have := Along.decidable P (handle o s).2 ops
    inferInstanceAs (Decidable (_ ∧ _))

variable {handle}

theorem Along.and {P Q : O → S → Prop} {s : S} {ops : List O} (hP : Along handle P s ops)
    (hQ : Along handle Q s ops) : Along handle (fun o s => P o s ∧ Q o s) s ops := by
  induction ops generalizing s with
  | nil => trivial
  | cons o ops ih => exact ⟨⟨hP.1, hQ.1⟩, ih hP.2 hQ.2⟩

/-- **First in, first out.** If every call gives out the first of what is buffered and buffers behind it
what comes in, then what was given out, followed by what is buffered, is what was buffered at the start,
followed by what came in. -/
theorem filterMap_answers_conserved {α : Type} {buffer : S → List α} {into out : (o : O) × A o → Option α}
    (hstep : ∀ o s, (out ⟨o, (handle o s).1⟩).toList ++ buffer (handle o s).2
      = buffer s ++ (into ⟨o, (handle o s).1⟩).toList) (s : S) (ops : List O) :
    (answers handle s ops).filterMap out ++ buffer (final handle s ops)
      = buffer s ++ (answers handle s ops).filterMap into := by
  induction ops generalizing s with
  | nil => simp
  | cons o ops ih =>
    rw [answers_cons, final_cons, filterMap_cons_toList, filterMap_cons_toList, List.append_assoc, ih,
      ← List.append_assoc, hstep, List.append_assoc]

section Simulation

variable {B : O → Type} {T : Type} {other : (o : O) → T → B o × T} {β : Type}
  {f : (o : O) × A o → β} {g : (o : O) × B o → β} {R : List O → S → T → Prop}

/-- **Two components that stay related answer alike.** `R` relates their states after the calls made so
far; each call of the run gives answers that agree, and related states again. -/
theorem answers_agree {ops : List O} {s : S} {t : T} (h : R [] s t)
    (hstep : ∀ past o rest s t, ops = past ++ o :: rest → R past s t →
      f ⟨o, (handle o s).1⟩ = g ⟨o, (other o t).1⟩ ∧ R (past ++ [o]) (handle o s).2 (other o t).2) :
    (answers handle s ops).map f = (answers other t ops).map g := by
  -- the calls made so far are the accumulator of the induction
  suffices H : ∀ rest past s t, ops = past ++ rest → R past s t →
      (answers handle s rest).map f = (answers other t rest).map g from H ops [] s t rfl h
  intro rest
  induction rest with
  | nil => intro past s t _ _; rfl
  | cons o rest ih =>
    intro past s t hops hR
    obtain ⟨hanswer, hnext⟩ := hstep past o rest s t hops hR
    have hrest := ih (past ++ [o]) _ _ (by rw [hops]; simp) hnext
    simp only [answers_cons, List.map_cons, hanswer, hrest]

/-- The rule for a relation of states, where each call meets a condition in the state before it. -/
theorem answers_agree_along {R : S → T → Prop} {P : O → S → Prop} {ops : List O} {s : S} {t : T} (h : R s t)
    (hP : Along handle P s ops) (hstep : ∀ o s t, R s t → P o s →
      f ⟨o, (handle o s).1⟩ = g ⟨o, (other o t).1⟩ ∧ R (handle o s).2 (other o t).2) :
    (answers handle s ops).map f = (answers other t ops).map g := by
  induction ops generalizing s t with
  | nil => rfl
  | cons o ops ih =>
    obtain ⟨hanswer, hnext⟩ := hstep o s t h hP.1
    simp only [answers_cons, List.map_cons, hanswer, ih hnext hP.2]

end Simulation

end UrlShortener.Runs
