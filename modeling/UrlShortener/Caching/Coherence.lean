import Mathlib.Logic.Basic

/-!
# Coherence of a cache with its backing store

A cache in front of a backing store, both as partial functions of a key. `R v w` says that the cached
value `w` may stand for the stored value `v`; for a cache of plain copies it is equality.

Coherence is stated key by key, so that an operation on one key needs an argument at that key only:
`CoherentAt.congr` covers all others.
-/

namespace UrlShortener.Caching

variable {K V W : Type*} {R : V → W → Prop} {backing backing' : K → Option V} {cache cache' : K → Option W}
  {k : K}

/-- What is cached under `k` stands for what is stored under `k`. -/
def CoherentAt (R : V → W → Prop) (backing : K → Option V) (cache : K → Option W) (k : K) : Prop :=
  ∀ w, cache k = some w → ∃ v, backing k = some v ∧ R v w

theorem coherentAt_of_miss (hc : cache k = none) : CoherentAt R backing cache k := by
  intro w hw
  rw [hc] at hw
  cases hw

theorem coherentAt_of_fill {v : V} {w : W} (hb : backing k = some v) (hR : R v w) (hc : cache k = some w) :
    CoherentAt R backing cache k := by
  intro w' hw'
  obtain rfl : w = w' := Option.some.inj (hc.symm.trans hw')
  exact ⟨v, hb, hR⟩

/-- Only the two values under the key matter. -/
theorem CoherentAt.congr (h : CoherentAt R backing cache k) (hb : backing' k = backing k)
    (hc : cache' k = cache k) : CoherentAt R backing' cache' k := by
  intro w hw
  rw [hb]
  exact h w (hc ▸ hw)

/-- An entry may vanish. -/
theorem CoherentAt.vanish (h : CoherentAt R backing cache k) (hc : cache' k = none ∨ cache' k = cache k) :
    CoherentAt R backing cache' k := by
  rcases hc with hc | hc
  · exact coherentAt_of_miss hc
  · exact h.congr rfl hc

/-- A hit in a cache of copies is what a read of the backing store gives. -/
theorem CoherentAt.hit {cache : K → Option V} (h : CoherentAt Eq backing cache k) {v : V}
    (hc : cache k = some v) : backing k = some v := by
  obtain ⟨v', hb, rfl⟩ := h v hc
  exact hb

end UrlShortener.Caching
