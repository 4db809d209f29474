import UrlShortener.Spec.Types

/-!
# Patches

**What a change of a link is**: it overwrites some of the six mutable parts of a record and leaves the
others. Each part is a register of its own.

* `Patch.apply_comm`: patches that overwrite different parts commute up to timestamps.
* `getLast?_filterMap_concat`: the value of a register is the last one written.
-/

namespace UrlShortener

/-- The parts that are overwritten, with their new values. -/
structure Patch where
  deleted : Option Bool := none
  enabled : Option Bool := none
  expiresAt : Option (Option Str) := none
  tags : Option (List Str) := none
  metadata : Option (UnorderedMap Str Str) := none
  campaign : Option (Option Campaign) := none

/-- Deleting stamps the link with the time, and so does every patch. -/
def Patch.apply (p : Patch) (now : Str) (l : Link) : Link :=
  { l with
    deletedAt := match p.deleted with
      | none => l.deletedAt
      | some deleted => if deleted then some now else none
    enabled := p.enabled.getD l.enabled
    expiresAt := p.expiresAt.getD l.expiresAt
    tags := p.tags.getD l.tags
    metadata := p.metadata.getD l.metadata
    campaign := p.campaign.getD l.campaign
    updatedAt := now }

/-- Deleted or not, enabled or not, and the expiry. -/
def Link.lifecycle (l : Link) : Bool × Bool × Option Str := (l.deletedAt.isSome, l.enabled, l.expiresAt)

/-- The record without the times of its last update and of its deletion. -/
def Link.untimed (l : Link) : Link :=
  { l with updatedAt := [], deletedAt := l.deletedAt.map fun _ => [] }

/-- No part of the lifecycle is overwritten by both. -/
structure Patch.LifecycleDisjoint (p q : Patch) : Prop where
  deleted : p.deleted = none ∨ q.deleted = none
  enabled : p.enabled = none ∨ q.enabled = none
  expiresAt : p.expiresAt = none ∨ q.expiresAt = none

/-- No part of the record is overwritten by both. -/
structure Patch.Disjoint (p q : Patch) : Prop extends p.LifecycleDisjoint q where
  tags : p.tags = none ∨ q.tags = none
  metadata : p.metadata = none ∨ q.metadata = none
  campaign : p.campaign = none ∨ q.campaign = none

variable {p q : Patch} {l : Link} {t u t' u' : Str}

/-- The three parts of the lifecycle after a patch. -/
theorem Patch.lifecycle_apply : (p.apply t l).lifecycle =
    (p.deleted.getD l.lifecycle.1, p.enabled.getD l.lifecycle.2.1, p.expiresAt.getD l.lifecycle.2.2) := by
  unfold Link.lifecycle Patch.apply
  rcases p.deleted with _ | _ | _ <;> rfl

/-- Two writes to a register, at most one of which is a write, commute. -/
theorem getD_comm {α : Type} {x y : Option α} (h : x = none ∨ y = none) (v : α) :
    x.getD (y.getD v) = y.getD (x.getD v) := by
  rcases h with rfl | rfl <;> rfl

theorem Patch.lifecycle_comm (h : p.LifecycleDisjoint q) :
    (p.apply t (q.apply u l)).lifecycle = (q.apply u' (p.apply t' l)).lifecycle := by
  simp only [lifecycle_apply, getD_comm h.deleted, getD_comm h.enabled, getD_comm h.expiresAt]

/-- What a patch does to the record up to timestamps. -/
theorem Patch.untimed_apply : (p.apply t l).untimed =
    { l with
      updatedAt := []
      deletedAt := if p.deleted.getD l.deletedAt.isSome then some [] else none
      enabled := p.enabled.getD l.enabled
      expiresAt := p.expiresAt.getD l.expiresAt
      tags := p.tags.getD l.tags
      metadata := p.metadata.getD l.metadata
      campaign := p.campaign.getD l.campaign } := by
  unfold Link.untimed Patch.apply
  rcases p.deleted with _ | _ | _
  · cases l.deletedAt <;> rfl
  · rfl
  · rfl

/-- **Patches that overwrite different parts commute** up to timestamps. -/
theorem Patch.apply_comm (h : p.Disjoint q) :
    (p.apply t (q.apply u l)).untimed = (q.apply u' (p.apply t' l)).untimed := by
  have hdel : ∀ (r : Patch) (now : Str), (r.apply now l).deletedAt.isSome = r.deleted.getD l.deletedAt.isSome :=
    fun r now => congrArg Prod.fst (lifecycle_apply (p := r) (t := now) (l := l))
  simp only [untimed_apply, hdel, getD_comm h.deleted]
  simp only [apply, getD_comm h.enabled, getD_comm h.expiresAt, getD_comm h.tags, getD_comm h.metadata,
    getD_comm h.campaign]

/-- The last value written, after one more event. -/
theorem getLast?_filterMap_concat {E α : Type} (f : E → Option α) (events : List E) (e : E) :
    ((events ++ [e]).filterMap f).getLast? = (f e).or (events.filterMap f).getLast? := by
  rw [List.filterMap_append]
  cases h : f e <;> simp [h]

end UrlShortener
