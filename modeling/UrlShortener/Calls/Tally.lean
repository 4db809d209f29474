import UrlShortener.Calls.Program
import Mathlib.Algebra.BigOperators.Group.Finset.Basic

/-!
# Tallies over a pool of programs

A shared counter is often a sum over the parties: each party contributes according to how far its own program has
come.

* `interleave_form`: what every call leaves a party with.
* `interleave_tally`: the rule for a law between the state and such a sum. It asks for one call of one party at a time,
  with the contribution of all others as a fixed summand.
-/

namespace UrlShortener.Calls.Pool

universe u

variable {C : Type} {A : C → Type} {S : Type u} {ι : Type} [DecidableEq ι] {R : ι → Type}
  {handle : (c : C) → S → A c × S} {M : Type*}

/-- What one call of party `i` leaves of the sum over all parties. -/
theorem sum_goTo [Fintype ι] [AddCommMonoid M] (weight : (i : ι) → Prog C A (R i) → M) (P : Pool C A R S) (i : ι)
    (p : Prog C A (R i)) (s : S) :
    ∑ j, weight j ((P.goTo i p s).prog j) = weight i p + ∑ j ∈ Finset.univ.erase i, weight j (P.prog j) := by
  rw [← Finset.add_sum_erase _ _ (Finset.mem_univ i), goTo_prog_self]
  refine congrArg _ (Finset.sum_congr rfl ?_)
  intro j hj
  rw [goTo_prog_other P p s (Finset.ne_of_mem_erase hj)]

/-- The programs a party can be left with, along every schedule. -/
theorem interleave_form (form : (i : ι) → Prog C A (R i) → Prop)
    (hstep : ∀ i c k s, form i (.call c k) → form i (k (handle c s).1)) {P : Pool C A R S}
    (hform : ∀ i, form i (P.prog i)) (schedule : List ι) : ∀ i, form i ((P.interleave handle schedule).prog i) := by
  refine Runs.after_invariant (P := fun Q : Pool C A R S => ∀ i, form i (Q.prog i)) ?_ hform schedule
  intro i Q hform
  cases hp : Q.prog i with
  | ret a =>
    rw [advance_ret hp]
    exact hform
  | call c k =>
    rw [advance_call hp]
    intro j
    by_cases hj : j = i
    · subst hj
      rw [goTo_prog_self]
      exact hstep j c k Q.state (hp ▸ hform j)
    · rw [goTo_prog_other Q _ _ hj]
      exact hform j

/-- **A law between the state and the sum of the parties' contributions** holds along every schedule if every call
keeps it, whatever the other parties contribute. `form` says which programs a party can be left with. -/
theorem interleave_tally [Fintype ι] [AddCommMonoid M] (law : S → M → Prop) (weight : (i : ι) → Prog C A (R i) → M)
    (form : (i : ι) → Prog C A (R i) → Prop)
    (hform : ∀ i c k s, form i (.call c k) → form i (k (handle c s).1))
    (hlaw : ∀ i c k s rest, form i (.call c k) → law s (weight i (.call c k) + rest) →
      law (handle c s).2 (weight i (k (handle c s).1) + rest))
    {P : Pool C A R S} (hstart : ∀ i, form i (P.prog i)) (h : law P.state (∑ i, weight i (P.prog i)))
    (schedule : List ι) :
    law (P.interleave handle schedule).state (∑ i, weight i ((P.interleave handle schedule).prog i)) := by
  -- by recursion on the schedule, the forms known at every point of it
  induction schedule generalizing P with
  | nil => exact h
  | cons i schedule ih =>
    refine ih (P.interleave_form form hform hstart [i]) ?_
    show law (P.advance handle i).state (∑ j, weight j ((P.advance handle i).prog j))
    cases hp : P.prog i with
    | ret a =>
      rw [advance_ret hp]
      exact h
    | call c k =>
      rw [advance_call hp, goTo_state, sum_goTo]
      rw [← Finset.add_sum_erase _ _ (Finset.mem_univ i), hp] at h
      exact hlaw i c k P.state _ (hp ▸ hstart i) h

end UrlShortener.Calls.Pool
