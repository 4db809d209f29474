import Mathlib.Data.List.Range
import Mathlib.Logic.Function.Iterate

/-!
# Bounded retries

A body is executed, and executed again as long as its outcome asks for it, a bounded number of times.

* `stateAfter`, `outcome`: what executions of the body one after the other do and give.
* `Stops`: where the loop ends. `exists_stops` says that it ends there, and `Stops.unique` that nowhere else.
* `retry_invariant`: what holds of every execution holds of the last one.
* `logged`: the body with a list of its outcomes, to say how often it was executed.
-/

namespace UrlShortener.Calls

variable {S O : Type*}

/-- The state after `n` executions. -/
def stateAfter (body : S → O × S) (n : ℕ) (s : S) : S := (fun s => (body s).2)^[n] s

/-- The outcome of execution `n`; the first one is execution 0. -/
def outcome (body : S → O × S) (n : ℕ) (s : S) : O := (body (stateAfter body n s)).1

/-- One execution, and at most `left` more. -/
def retry (body : S → O × S) (again : O → Bool) : (left : ℕ) → S → O × S
  | 0, s => body s
  | left + 1, s => if again (body s).1 then retry body again left (body s).2 else body s

variable {body : S → O × S} {again : O → Bool} {left n : ℕ} {s : S}

theorem stateAfter_succ (body : S → O × S) (n : ℕ) (s : S) :
    stateAfter body (n + 1) s = stateAfter body n (body s).2 := Function.iterate_succ_apply _ n s

theorem stateAfter_succ' (body : S → O × S) (n : ℕ) (s : S) :
    stateAfter body (n + 1) s = (body (stateAfter body n s)).2 := Function.iterate_succ_apply' _ n s

theorem outcome_succ (body : S → O × S) (n : ℕ) (s : S) : outcome body (n + 1) s = outcome body n (body s).2 := by
  rw [outcome, stateAfter_succ, outcome]

theorem stateAfter_invariant {I : S → Prop} (hI : ∀ s, I s → I (body s).2) (hs : I s) (n : ℕ) :
    I (stateAfter body n s) := by
  induction n with
  | zero => exact hs
  | succ n ih =>
    rw [stateAfter_succ']
    exact hI _ ih

/-! ## Where the loop ends -/

/-- **The last execution**: those before it ask for another one, and it does not unless it is the last one allowed. -/
structure Stops (body : S → O × S) (again : O → Bool) (left : ℕ) (s : S) (n : ℕ) : Prop where
  le : n ≤ left
  before : ∀ i < n, again (outcome body i s) = true
  last : n < left → again (outcome body n s) = false

theorem exists_stops (body : S → O × S) (again : O → Bool) (left : ℕ) (s : S) :
    ∃ n, Stops body again left s n ∧ retry body again left s = body (stateAfter body n s) := by
  induction left generalizing s with
  | zero =>
    refine ⟨0, ⟨Nat.le_refl 0, fun i hi => absurd hi (Nat.not_lt_zero i), fun h => absurd h (Nat.lt_irrefl 0)⟩, ?_⟩
    rfl
  | succ left ih =>
    cases hagain : again (body s).1 with
    | false =>
      refine ⟨0, ⟨Nat.zero_le _, fun i hi => absurd hi (Nat.not_lt_zero i), fun _ => hagain⟩, ?_⟩
      rw [retry, hagain, if_neg Bool.false_ne_true]
      rfl
    | true =>
      -- the executions of the rest of the loop are one further on
      obtain ⟨n, hn, heq⟩ := ih (body s).2
      refine ⟨n + 1, ⟨Nat.succ_le_succ hn.le, ?_, ?_⟩, ?_⟩
      · intro i hi
        cases i with
        | zero => exact hagain
        | succ i =>
          rw [outcome_succ]
          exact hn.before i (Nat.lt_of_succ_lt_succ hi)
      · intro hlt
        rw [outcome_succ]
        exact hn.last (Nat.lt_of_succ_lt_succ hlt)
      · rw [retry, hagain, if_pos rfl, heq, stateAfter_succ]

theorem Stops.unique {m : ℕ} (hn : Stops body again left s n) (hm : Stops body again left s m) : n = m := by
  -- the execution that ends one loop would go on in the other
  have hle : ∀ {n m : ℕ}, Stops body again left s n → Stops body again left s m → n ≤ m := by
    intro n m hn hm
    by_contra hlt
    have hlast := hm.last (by have := hn.le; omega)
    rw [hn.before m (by omega)] at hlast
    cases hlast
  exact Nat.le_antisymm (hle hn hm) (hle hm hn)

theorem Stops.retry_eq (hn : Stops body again left s n) : retry body again left s = body (stateAfter body n s) := by
  obtain ⟨m, hm, heq⟩ := exists_stops body again left s
  rw [heq, hm.unique hn]

/-- An outcome that does not ask for another execution ends the loop. -/
theorem retry_of_not_again (h : again (body s).1 = false) : retry body again left s = body s :=
  Stops.retry_eq (n := 0) ⟨Nat.zero_le _, fun i hi => absurd hi (Nat.not_lt_zero i), fun _ => h⟩

/-- A property of the state that executions preserve, and what it says about each of them. -/
theorem retry_invariant {I : S → Prop} {Q : O × S → Prop} (hI : ∀ s, I s → I (body s).2) (hQ : ∀ s, I s → Q (body s))
    (hs : I s) : Q (retry body again left s) := by
  obtain ⟨n, -, heq⟩ := exists_stops body again left s
  rw [heq]
  exact hQ _ (stateAfter_invariant hI hs n)

/-! ## Counting the executions -/

/-- The body, writing down its outcomes. -/
def logged (body : S → O × S) (s : List O × S) : O × (List O × S) :=
  ((body s.2).1, (s.1 ++ [(body s.2).1], (body s.2).2))

theorem stateAfter_logged (body : S → O × S) (n : ℕ) (s : S) :
    stateAfter (logged body) n ([], s) = ((List.range n).map (outcome body · s), stateAfter body n s) := by
  induction n with
  | zero => rfl
  | succ n ih => rw [stateAfter_succ', ih, stateAfter_succ', List.range_succ, List.map_append, List.map_singleton]; rfl

theorem outcome_logged (body : S → O × S) (n : ℕ) (s : S) : outcome (logged body) n ([], s) = outcome body n s := by
  rw [outcome, stateAfter_logged, logged, outcome]

end UrlShortener.Calls
