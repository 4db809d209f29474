import UrlShortener.Runs.Basic
import Mathlib.Logic.Function.Basic

/-!
# Programs that call shared components

A `Prog C A α` makes calls `c : C` one after the other, each answered by a value of `A c`, and returns an
`α`. What a call does to the shared state is given by a handler, so that the same program runs against
different components.

* `run`: the program alone. `run_invariant` is its induction rule.
* `Pool`, `interleave`: several programs on one state, one call at a time in the order of a schedule, and
  the `trace` of the calls made. `interleave_invariant` is the induction rule.
-/

namespace UrlShortener.Calls

universe u

/-- A program: a result, or a call and what follows its answer. -/
inductive Prog (C : Type) (A : C → Type) (α : Type) : Type
  | ret (a : α)
  | call (c : C) (k : A c → Prog C A α)

variable {C : Type} {A : C → Type} {α β : Type} {S : Type u}

namespace Prog

/-- The second program runs on the first one's result. -/
def bind : Prog C A α → (α → Prog C A β) → Prog C A β
  | ret a, f => f a
  | call c k, f => call c fun x => (k x).bind f

instance : Monad (Prog C A) where
  pure := ret
  bind := bind

/-- One call, whose answer is returned. -/
def perform (c : C) : Prog C A (A c) := call c ret

variable (handle : (c : C) → S → A c × S)

/-- The program alone: its result and the state it leaves. -/
def run : Prog C A α → S → α × S
  | ret a, s => (a, s)
  | call c k, s => (k (handle c s).1).run (handle c s).2

@[simp] theorem run_ret (a : α) (s : S) : (ret a : Prog C A α).run handle s = (a, s) := rfl

@[simp] theorem run_call (c : C) (k : A c → Prog C A α) (s : S) :
    (call c k).run handle s = (k (handle c s).1).run handle (handle c s).2 := rfl

@[simp] theorem run_pure (a : α) (s : S) : (pure a : Prog C A α).run handle s = (a, s) := rfl

/-- A sequence of two programs, alone. -/
@[simp] theorem run_bind (p : Prog C A α) (f : α → Prog C A β) (s : S) :
    (p >>= f).run handle s = (f (p.run handle s).1).run handle (p.run handle s).2 := by
  induction p generalizing s with
  | ret a => rfl
  | call c k ih => exact ih _ _

variable {handle}

/-- A relation between what is left of the program and the state that every call preserves. -/
theorem run_invariant {I : Prog C A α → S → Prop}
    (hstep : ∀ c k s, I (call c k) s → I (k (handle c s).1) (handle c s).2)
    {p : Prog C A α} {s : S} (h : I p s) : I (ret (p.run handle s).1) (p.run handle s).2 := by
  induction p generalizing s with
  | ret a => exact h
  | call c k ih => exact ih _ (hstep c k s h)

/-- Every call the program can make, whatever it is answered, is in `P`. -/
def Every (P : C → Prop) : Prog C A α → Prop
  | ret _ => True
  | call c k => P c ∧ ∀ x, (k x).Every P

end Prog

/-! ## Several programs on one state -/

variable {ι : Type} [DecidableEq ι] {R : ι → Type}

/-- What each party still has to do, and the state they share. -/
structure Pool (C : Type) (A : C → Type) {ι : Type} (R : ι → Type) (S : Type u) where
  prog : (i : ι) → Prog C A (R i)
  state : S

namespace Pool

variable (handle : (c : C) → S → A c × S)

/-- Party `i` makes its next call; a party that has returned does nothing. -/
def advance (i : ι) (P : Pool C A R S) : Pool C A R S :=
  match P.prog i with
  | .ret _ => P
  | .call c k => ⟨Function.update P.prog i (k (handle c P.state).1), (handle c P.state).2⟩

/-- Party `i` is left with `p`, and the state is `s`. -/
def goTo (P : Pool C A R S) (i : ι) (p : Prog C A (R i)) (s : S) : Pool C A R S := ⟨Function.update P.prog i p, s⟩

/-- The call party `i` makes when it is its turn. -/
def next (i : ι) (P : Pool C A R S) : Option C :=
  match P.prog i with
  | .ret _ => none
  | .call c _ => some c

/-- The parties take turns in the order of the schedule. -/
def interleave (P : Pool C A R S) (schedule : List ι) : Pool C A R S :=
  Runs.after (advance handle) P schedule

/-- The calls made, in order, and who made them. -/
def trace (P : Pool C A R S) : List ι → List (ι × C)
  | [] => []
  | i :: schedule => (P.next i).toList.map (i, ·) ++ (P.advance handle i).trace schedule

/-- Every party has returned. -/
def Returned (P : Pool C A R S) : Prop := ∀ i, P.next i = none

variable {handle}

@[simp] theorem goTo_prog_self (P : Pool C A R S) (i : ι) (p : Prog C A (R i)) (s : S) :
    (P.goTo i p s).prog i = p := by
  simp [goTo]

theorem goTo_prog_other (P : Pool C A R S) {i j : ι} (p : Prog C A (R i)) (s : S) (hj : j ≠ i) :
    (P.goTo i p s).prog j = P.prog j := by
  simp [goTo, hj]

@[simp] theorem goTo_state (P : Pool C A R S) (i : ι) (p : Prog C A (R i)) (s : S) : (P.goTo i p s).state = s := rfl

theorem advance_ret {i : ι} {P : Pool C A R S} {a : R i} (h : P.prog i = .ret a) :
    P.advance handle i = P := by
  simp [advance, h]

section

variable {i j : ι} {P : Pool C A R S} {c : C} {k : A c → Prog C A (R i)}

theorem advance_call (h : P.prog i = .call c k) :
    P.advance handle i = P.goTo i (k (handle c P.state).1) (handle c P.state).2 := by
  simp [advance, goTo, h]

theorem advance_prog_self (h : P.prog i = .call c k) :
    (P.advance handle i).prog i = k (handle c P.state).1 := by
  simp [advance_call h]

theorem advance_prog_other (h : P.prog i = .call c k) (hj : j ≠ i) :
    (P.advance handle i).prog j = P.prog j := by
  rw [advance_call h, goTo_prog_other P _ _ hj]

theorem advance_state (h : P.prog i = .call c k) : (P.advance handle i).state = (handle c P.state).2 := by
  simp [advance_call h]

end

/-- A party that has returned stays so. -/
theorem interleave_ret {i : ι} {P : Pool C A R S} {a : R i} (h : P.prog i = .ret a) (schedule : List ι) :
    (P.interleave handle schedule).prog i = .ret a := by
  refine Runs.after_invariant (P := fun P : Pool C A R S => P.prog i = .ret a) ?_ h schedule
  intro j P hP
  cases hj : P.prog j with
  | ret b =>
    rw [advance_ret hj]
    exact hP
  | call c k =>
    have hne : i ≠ j := by
      rintro rfl
      rw [hP] at hj
      cases hj
    rw [advance_prog_other hj hne]
    exact hP

/-- A relation between the pool and the trace so far that every call preserves holds at the end of every
schedule. -/
theorem interleave_invariant {I : Pool C A R S → List (ι × C) → Prop}
    (hstep : ∀ P t i c k, P.prog i = .call c k → I P t → I (P.advance handle i) (t ++ [(i, c)]))
    {P : Pool C A R S} (h : I P []) (schedule : List ι) :
    I (P.interleave handle schedule) (P.trace handle schedule) := by
  -- the trace so far is the accumulator of the induction
  suffices H : ∀ t P, I P t → I (P.interleave handle schedule) (t ++ P.trace handle schedule) from H [] P h
  intro t P hI
  induction schedule generalizing t P with
  | nil => simpa [interleave, trace] using hI
  | cons i schedule ih =>
    cases hp : P.prog i with
    | ret a =>
      have := ih t P hI
      simpa [interleave, trace, next, hp, advance_ret hp] using this
    | call c k =>
      have := ih (t ++ [(i, c)]) _ (hstep P t i c k hp hI)
      simpa [interleave, trace, next, hp] using this

end Pool

end UrlShortener.Calls
