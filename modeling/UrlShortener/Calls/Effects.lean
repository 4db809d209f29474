import UrlShortener.Calls.Tally
import Mathlib.Tactic.Abel

/-!
# What programs do, call by call

Facts about all runs of a program, whatever answers it is given among the `possible` ones.

* `Confined`: every call is an `allowed` one and every result satisfies `Q`. `interleave_confined` is the rule for a
  state invariant that holds as long as all parties keep to the allowed calls.
* `interleave_established`: what holds once a call of a party has gone through.
* `Settles`: a measure of the state that calls raise and lower, and a debt of the program that goes with it.
  `interleave_settles`: the measure less all debts never changes.
* `bindE`: programs that an exception can end, and both notions along their `bind`.
-/

namespace UrlShortener.Calls

universe u

variable {C : Type} {A : C → Type} {α β ε : Type} {S : Type u} {handle : (c : C) → S → A c × S}
  {allowed : C → Prop} {possible : (c : C) → A c → Prop}

namespace Prog

/-- Only allowed calls are made and a result satisfies `Q`, if the answers are possible ones. -/
def Confined (allowed : C → Prop) (possible : (c : C) → A c → Prop) (Q : α → Prop) : Prog C A α → Prop
  | ret a => Q a
  | call c k => allowed c ∧ ∀ x, possible c x → (k x).Confined allowed possible Q

theorem Confined.mono {Q Q' : α → Prop} (hQ : ∀ a, Q a → Q' a) {p : Prog C A α}
    (h : p.Confined allowed possible Q) : p.Confined allowed possible Q' := by
  induction p with
  | ret a => exact hQ a h
  | call c k ih => exact ⟨h.1, fun x hx => ih x (h.2 x hx)⟩

/-- Nothing is asked of the program. -/
theorem confined_true (p : Prog C A α) : p.Confined (fun _ => True) possible fun _ => True := by
  induction p with
  | ret a => trivial
  | call c k ih => exact ⟨trivial, fun x _ => ih x⟩

theorem Confined.bind {Q : β → Prop} {p : Prog C A α} {f : α → Prog C A β}
    (h : p.Confined allowed possible fun a => (f a).Confined allowed possible Q) :
    (p.bind f).Confined allowed possible Q := by
  induction p with
  | ret a => exact h
  | call c k ih => exact ⟨h.1, fun x hx => ih x (h.2 x hx)⟩

/-- After each call the debt has changed by what the call gained. -/
def Settles {M : Type*} [AddCommGroup M] (possible : (c : C) → A c → Prop) (gain : (c : C) → A c → M)
    (debt : Prog C A α → M) : Prog C A α → Prop
  | ret _ => True
  | call c k => ∀ x, possible c x → debt (k x) = debt (call c k) + gain c x ∧ (k x).Settles possible gain debt

end Prog

/-! ## Programs that an exception can end -/

section Exceptions

/-- What is left of a program when the first part has ended with `r`. -/
def afterE (f : α → ExceptT ε (Prog C A) β) (r : Except ε α) : Prog C A (Except ε β) :=
  match r with
  | .ok a => f a
  | .error e => .ret (.error e)

theorem bindE (p : ExceptT ε (Prog C A) α) (f : α → ExceptT ε (Prog C A) β) :
    (p >>= f : ExceptT ε (Prog C A) β) = Prog.bind (p : Prog C A (Except ε α)) (afterE f) := by
  change Prog.bind (p : Prog C A (Except ε α)) _ = _
  refine congrArg _ (funext fun r => ?_)
  cases r <;> rfl

/-- Normal results satisfy `Q`, and exceptions `E`. -/
def Ends (Q : α → Prop) (E : ε → Prop) : Except ε α → Prop
  | .ok a => Q a
  | .error e => E e

/-- Programs with exceptions, and their two kinds of result. -/
def ConfinedE (allowed : C → Prop) (possible : (c : C) → A c → Prop) (Q : α → Prop) (E : ε → Prop)
    (p : ExceptT ε (Prog C A) α) : Prop :=
  Prog.Confined allowed possible (Ends Q E) (p : Prog C A (Except ε α))

variable {Q : α → Prop} {E : ε → Prop}

theorem confinedE_pure {a : α} (h : Q a) : ConfinedE allowed possible Q E (pure a : ExceptT ε (Prog C A) α) := h

theorem confinedE_throw {e : ε} (h : E e) :
    ConfinedE allowed possible Q E (throw e : ExceptT ε (Prog C A) α) := h

theorem ConfinedE.bind {R : β → Prop} {p : ExceptT ε (Prog C A) α} {f : α → ExceptT ε (Prog C A) β}
    (hp : ConfinedE allowed possible Q E p) (hf : ∀ a, Q a → ConfinedE allowed possible R E (f a)) :
    ConfinedE allowed possible R E (p >>= f) := by
  unfold ConfinedE
  rw [bindE]
  refine Prog.Confined.bind (hp.mono fun r hr => ?_)
  cases r with
  | ok a => exact hf a hr
  | error e => exact hr

end Exceptions

/-! ## Several programs -/

namespace Pool

variable {ι : Type} [DecidableEq ι] {R : ι → Type}

/-- **A state invariant under the allowed calls** holds along every schedule of confined parties, and they stay
confined. -/
theorem interleave_confined (Inv : S → Prop) (hstable : ∀ c s, allowed c → Inv s → Inv (handle c s).2)
    (hanswer : ∀ c s, Inv s → possible c (handle c s).1) {Q : (i : ι) → R i → Prop} {P : Pool C A R S}
    (hinv : Inv P.state) (hprog : ∀ i, (P.prog i).Confined allowed possible (Q i)) (schedule : List ι) :
    Inv (P.interleave handle schedule).state ∧
      ∀ i, ((P.interleave handle schedule).prog i).Confined allowed possible (Q i) := by
  refine Runs.after_invariant (P := fun P : Pool C A R S => Inv P.state ∧
    ∀ i, (P.prog i).Confined allowed possible (Q i)) ?_ ⟨hinv, hprog⟩ schedule
  intro i P ⟨hinv, hprog⟩
  cases hp : P.prog i with
  | ret a =>
    rw [advance_ret hp]
    exact ⟨hinv, hprog⟩
  | call c k =>
    have hi := hprog i
    rw [hp] at hi
    rw [advance_call hp]
    refine ⟨hstable c _ hi.1 hinv, fun j => ?_⟩
    by_cases hj : j = i
    · subst hj
      rw [goTo_prog_self]
      exact hi.2 _ (hanswer c _ hinv)
    · rw [goTo_prog_other _ _ _ hj]
      exact hprog j

/-- A party that is not scheduled does not move. -/
theorem interleave_unscheduled {i : ι} {schedule : List ι} (h : i ∉ schedule) (P : Pool C A R S) :
    (P.interleave handle schedule).prog i = P.prog i := by
  refine Runs.after_invariant_mem (P := fun Q : Pool C A R S => Q.prog i = P.prog i) ?_ rfl
  intro j hj Q hQ
  have hne : i ≠ j := by
    rintro rfl
    exact h hj
  cases hp : Q.prog j with
  | ret a =>
    rw [advance_ret hp]
    exact hQ
  | call c k =>
    rw [advance_prog_other hp hne]
    exact hQ

/-- A fact that no call takes away stays. -/
theorem interleave_fact {F : S → Prop} (hfact : ∀ c s, F s → F (handle c s).2) {P : Pool C A R S}
    (h : F P.state) (schedule : List ι) : F (P.interleave handle schedule).state := by
  refine Runs.after_invariant (P := fun P : Pool C A R S => F P.state) ?_ h schedule
  intro i P hP
  cases hp : P.prog i with
  | ret a =>
    rw [advance_ret hp]
    exact hP
  | call c k =>
    rw [advance_state hp]
    exact hfact c _ hP

/-- **What a call of a party establishes**: unless it ends the party in `failed`, a fact holds from then on that no call
takes away. -/
theorem interleave_established {Fact : S → Prop} {j : ι} {failed : R j → Prop}
    (hfact : ∀ c s, Fact s → Fact (handle c s).2) {P : Pool C A R S} {c : C} {k : A c → Prog C A (R j)}
    (hprog : P.prog j = .call c k)
    (hcall : Fact (handle c P.state).2 ∨ ∃ r, k (handle c P.state).1 = .ret r ∧ failed r) (schedule : List ι) :
    Fact (P.interleave handle (j :: schedule)).state ∨
      ∃ r, (P.interleave handle (j :: schedule)).prog j = .ret r ∧ failed r := by
  rw [interleave, Runs.after_cons]
  rcases hcall with hestablished | ⟨r, hr, hfailed⟩
  · rw [← advance_state hprog] at hestablished
    exact .inl (interleave_fact hfact hestablished schedule)
  · rw [← advance_prog_self hprog] at hr
    exact .inr ⟨r, interleave_ret hr schedule, hfailed⟩

/-- **The books balance**: where each call raises the measure by what it gains, the measure less the debts of all
parties never changes. -/
theorem interleave_settles {M : Type*} [AddCommGroup M] [Fintype ι] (measure : S → M) {gain : (c : C) → A c → M}
    (hgain : ∀ c s, measure (handle c s).2 = measure s + gain c (handle c s).1)
    (hanswer : ∀ c s, possible c (handle c s).1) (debt : (i : ι) → Prog C A (R i) → M) {P : Pool C A R S}
    (hprog : ∀ i, (P.prog i).Settles possible gain (debt i)) (schedule : List ι) :
    measure (P.interleave handle schedule).state - ∑ i, debt i ((P.interleave handle schedule).prog i)
      = measure P.state - ∑ i, debt i (P.prog i) := by
  refine interleave_tally (fun s total => measure s - total = measure P.state - ∑ i, debt i (P.prog i)) debt
    (fun i p => p.Settles possible gain (debt i)) ?_ ?_ hprog rfl schedule
  · intro i c k s h
    exact (h _ (hanswer c s)).2
  · intro i c k s rest h hlaw
    rw [(h _ (hanswer c s)).1, hgain c s, ← hlaw]
    abel

end Pool

end UrlShortener.Calls
