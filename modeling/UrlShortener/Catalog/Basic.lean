import UrlShortener.Spec.Types
import Mathlib.Logic.Function.Basic

/-!
# Catalogs of links

**What the link store is for**: every slug has at most one link, and no two links have the same
identifier. A `Catalog` carries these two facts, and links are only ever added under a fresh slug and
identifier or replaced by a version of themselves.
-/

namespace UrlShortener

/-- The links by their slugs; no two share an identifier. -/
structure Catalog where
  link : Str → Option Link
  slug_eq : ∀ {s l}, link s = some l → l.slug = s
  id_inj : ∀ {s s' l l'}, link s = some l → link s' = some l' → l.id = l'.id → s = s'

namespace Catalog

variable {cat : Catalog} {l l' : Link}

/-- No links. -/
def empty : Catalog where
  link _ := none
  slug_eq h := by cases h
  id_inj h := by cases h

/-- Some link has the identifier `i`. -/
def HasId (cat : Catalog) (i : Str) : Prop := ∃ s l, cat.link s = some l ∧ l.id = i

/-- Put a link under its slug. The identifier must not belong to a link with another slug. -/
def put (cat : Catalog) (l : Link) (hid : ∀ s l', cat.link s = some l' → l'.id = l.id → s = l.slug) :
    Catalog where
  link := Function.update cat.link l.slug (some l)
  slug_eq {s l'} h := by
    by_cases hs : s = l.slug
    · subst hs
      rw [Function.update_self] at h
      cases h
      rfl
    · rw [Function.update_of_ne hs] at h
      exact cat.slug_eq h
  id_inj {s s' l₁ l₂} h₁ h₂ hi := by
    by_cases hs : s = l.slug <;> by_cases hs' : s' = l.slug
    · rw [hs, hs']
    · subst hs
      rw [Function.update_self] at h₁
      cases h₁
      rw [Function.update_of_ne hs'] at h₂
      exact (hid _ _ h₂ hi.symm).symm
    · subst hs'
      rw [Function.update_self] at h₂
      cases h₂
      rw [Function.update_of_ne hs] at h₁
      exact hid _ _ h₁ hi
    · rw [Function.update_of_ne hs] at h₁
      rw [Function.update_of_ne hs'] at h₂
      exact cat.id_inj h₁ h₂ hi

/-- A new link, under a slug and an identifier that are both free. -/
def add (cat : Catalog) (l : Link) (_hslug : cat.link l.slug = none) (hid : ¬ cat.HasId l.id) : Catalog :=
  cat.put l fun s l' h h' => absurd ⟨s, l', h, h'⟩ hid

/-- Another version of a link, with the same identifier and slug. -/
def replace (cat : Catalog) (l l' : Link) (h : cat.link l.slug = some l) (hid : l'.id = l.id)
    (hslug : l'.slug = l.slug) : Catalog :=
  cat.put l' fun _ _ h₁ hi => (cat.id_inj h₁ h (hi.trans hid)).trans hslug.symm

@[simp] theorem link_empty (s : Str) : empty.link s = none := rfl

theorem link_put {hid} (s : Str) : (cat.put l hid).link s = if s = l.slug then some l else cat.link s := by
  simp [put, Function.update_apply]

theorem link_add {hslug hid} (s : Str) :
    (cat.add l hslug hid).link s = if s = l.slug then some l else cat.link s :=
  link_put s

theorem link_replace {h hid} {hslug : l'.slug = l.slug} (s : Str) :
    (cat.replace l l' h hid hslug).link s = if s = l.slug then some l' else cat.link s := by
  rw [← hslug]
  exact link_put s

/-- The link under a slug is found by its own slug. -/
theorem link_self {s : Str} (h : cat.link s = some l) : cat.link l.slug = some l := by
  rw [cat.slug_eq h]
  exact h

end Catalog

end UrlShortener
