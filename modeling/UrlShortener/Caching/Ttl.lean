import Mathlib.Algebra.Order.Group.Defs
import Mathlib.Logic.Function.Basic

/-!
# Maps whose entries expire

An entry is a value and the time of its end; `none` for one that stays. The **eager** map drops an entry at its end:
`tick` is what the passing of time does to it.

A store that drops an ended entry only when it comes across it holds more than the eager map, but the same up to
`tick`. The lemmas say how `tick` moves through the operations, so that a simulation needs no other fact about time.
-/

namespace UrlShortener.Caching

/-- A value and the end of an entry, under each key. -/
abbrev TtlMap (K V T : Type*) := K → Option (V × Option T)

namespace TtlMap

variable {K V T : Type*} [LinearOrder T]

/-- The entry has not ended. -/
def live (now : T) (entry : V × Option T) : Bool := entry.2.all fun last => decide (now < last)

/-- **The passing of time** up to `now`: entries that have ended are dropped. -/
def tick (now : T) (m : TtlMap K V T) : TtlMap K V T := fun k => (m k).filter (live now)

/-- The value under a key, due or not. -/
def get (k : K) (m : TtlMap K V T) : Option V := (m k).map Prod.fst

/-- What is stored for a value that is set at `now`: nothing for a time to live that is not positive. -/
def stored [AddCommGroup T] (now : T) (v : V) : Option T → Option (V × Option T)
  | none => some (v, none)
  | some ttl => if ttl ≤ 0 then none else some (v, some (now + ttl))

/-- The keys that satisfy `p` are dropped. -/
def clear (p : K → Bool) (m : TtlMap K V T) : TtlMap K V T := fun k => if p k then none else m k

theorem live_mono {s t : T} (h : s ≤ t) {entry : V × Option T} (hlive : live t entry = true) :
    live s entry = true := by
  obtain ⟨v, last⟩ := entry
  cases last with
  | none => rfl
  | some last => exact decide_eq_true (lt_of_le_of_lt h (of_decide_eq_true hlive))

/-- Time passes once, however it is looked at. -/
theorem tick_tick {s t : T} (h : s ≤ t) (m : TtlMap K V T) : tick t (tick s m) = tick t m := by
  funext k
  unfold tick
  rw [Option.filter_filter]
  refine congrArg (fun p => (m k).filter p) (funext fun entry => ?_)
  cases hlive : live t entry with
  | false => simp
  | true => simp [live_mono h hlive]

theorem tick_update [DecidableEq K] (now : T) (k : K) (entry : Option (V × Option T)) (m : TtlMap K V T) :
    tick now (Function.update m k entry) = Function.update (tick now m) k (entry.filter (live now)) := by
  funext k'
  by_cases hk : k' = k
  · subst hk
    simp [tick]
  · simp [tick, hk]

theorem tick_clear (now : T) (p : K → Bool) (m : TtlMap K V T) : tick now (clear p m) = clear p (tick now m) := by
  funext k
  cases hp : p k <;> simp [tick, clear, hp]

/-- What is stored at `now` has not ended. -/
theorem filter_stored [AddCommGroup T] [IsOrderedAddMonoid T] (now : T) (v : V) (ttl : Option T) :
    (stored now v ttl).filter (live now) = stored now v ttl := by
  cases ttl with
  | none => rfl
  | some ttl =>
    rw [stored]
    split
    · rfl
    · next hpos => simp [live, not_le.1 hpos]

end TtlMap

end UrlShortener.Caching
