import UrlShortener.Calls.Program

/-!
# A program that is repeated

A `Loop` runs a body again and again, one call at a time, until the body returns `false`.

* `advance`: the next call. `advance_call` and `advance_none` say what it does.
-/

namespace UrlShortener.Calls

variable {C : Type} {A : C → Type} {S : Type}

/-- What is left of the present round, `none` when the loop has ended, and the state around it. -/
structure Loop (C : Type) (A : C → Type) (S : Type) where
  round : Option (Prog C A Bool)
  state : S

namespace Loop

variable (handle : (c : C) → S → A c × S) (body : Prog C A Bool)

/-- A round that has returned is followed by the next one, or by none. -/
def resume : Prog C A Bool → Option (Prog C A Bool)
  | .ret true => some body
  | .ret false => none
  | .call c k => some (.call c k)

/-- The loop makes its next call. -/
def advance (L : Loop C A S) : Loop C A S :=
  match L.round with
  | some (.call c k) => ⟨resume body (k (handle c L.state).1), (handle c L.state).2⟩
  | _ => L

variable {handle body}

theorem advance_call {c : C} {k : A c → Prog C A Bool} (s : S) :
    advance handle body ⟨some (.call c k), s⟩ = ⟨resume body (k (handle c s).1), (handle c s).2⟩ := rfl

@[simp] theorem advance_none (s : S) : advance handle body ⟨none, s⟩ = ⟨none, s⟩ := rfl

end Loop

end UrlShortener.Calls
