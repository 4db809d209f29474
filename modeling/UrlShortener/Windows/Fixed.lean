import Mathlib.Algebra.Order.Group.Defs
import Mathlib.Algebra.Order.Monoid.Defs
import Mathlib.Data.List.Basic

/-!
# Fixed windows

A limiter that admits at most `limit` calls per window. A window opens with the first call after the end of the one
before it, and lasts for `width`.

* `decisions`: the times of the calls of a run, each with the decision of the limiter.
* `stamp`: such calls, each with the start of the window it falls in. The starts follow from the times alone.
* `admittedIn_le`, `admittedIn_of_denied`: no window has more than `limit` admitted calls, and a call is denied only
  when its window has that many already.
* `admittedBetween_le`: **at most `2 * limit` calls are admitted in a half-open interval as long as a window**, since
  it meets at most two windows.
-/

namespace UrlShortener.Windows

variable {T : Type*} [LinearOrder T]

/-! ## The windows of a sequence of calls -/

/-- The start of the window of a call at `t`, when the window before it started at `current`. -/
def windowStart [Add T] (width : T) (current : Option T) (t : T) : T :=
  match current with
  | none => t
  | some s => if s + width ≤ t then t else s

/-- A call and its window. -/
structure Stamped (T : Type*) where
  start : T
  time : T
  admitted : Bool

/-- The calls with their windows, when the window before them started at `current`. -/
def stamp [Add T] (width : T) : Option T → List (T × Bool) → List (Stamped T)
  | _, [] => []
  | current, (t, admitted) :: calls =>
    ⟨windowStart width current t, t, admitted⟩ :: stamp width (some (windowStart width current t)) calls

/-- How many calls are admitted in the window that starts at `s`. -/
def admittedIn (s : T) (log : List (Stamped T)) : ℕ := log.countP fun e => decide (e.start = s) && e.admitted

/-- How many calls are admitted from `a` on and before `b`. -/
def admittedBetween (a b : T) (log : List (Stamped T)) : ℕ :=
  log.countP fun e => decide (a ≤ e.time ∧ e.time < b) && e.admitted

theorem admittedIn_cons (s start t : T) (admitted : Bool) (log : List (Stamped T)) :
    admittedIn s (⟨start, t, admitted⟩ :: log)
      = (if start = s ∧ admitted = true then 1 else 0) + admittedIn s log := by
  rw [admittedIn, List.countP_cons, Nat.add_comm]
  simp [admittedIn]

/-- Denied calls are denied in whatever window. -/
theorem stamp_denied [Add T] {width : T} {current : Option T} {calls : List (T × Bool)}
    (hcalls : ∀ call ∈ calls, call.2 = false) : ∀ e ∈ stamp width current calls, e.admitted = false := by
  induction calls generalizing current with
  | nil => exact nofun
  | cons call calls ih =>
    obtain ⟨t, admitted⟩ := call
    intro e he
    rcases List.mem_cons.1 he with rfl | he
    · exact hcalls _ (List.mem_cons_self ..)
    · exact ih (fun call hcall => hcalls call (List.mem_cons_of_mem _ hcall)) e he

theorem windowStart_some [Add T] (width s t : T) :
    windowStart width (some s) t = if s + width ≤ t then t else s := rfl

/-- A call falls in the window that is open, or opens one after its end. -/
theorem windowStart_cases [Add T] (width s t : T) :
    windowStart width (some s) t = s ∨ s + width ≤ windowStart width (some s) t := by
  rw [windowStart_some]
  split
  · next hover => exact Or.inr hover
  · exact Or.inl rfl

/-! ## The limiter -/

/-- The window that is open, and how many calls it has admitted. -/
structure Window (T : Type*) where
  start : T
  admitted : ℕ

/-- The window that a call at `t` counts in. -/
def currentWindow [Add T] (width t : T) : Option (Window T) → Window T
  | none => ⟨t, 0⟩
  | some w => if w.start + width ≤ t then ⟨t, 0⟩ else w

/-- The decision on a call at `t`, and the window it leaves open. -/
def request [Add T] (width : T) (limit : ℕ) (t : T) (w : Option (Window T)) : Bool × Window T :=
  let current := currentWindow width t w
  if current.admitted < limit then (true, ⟨current.start, current.admitted + 1⟩) else (false, current)

/-- The times of the calls, each with the decision. -/
def decisions [Add T] (width : T) (limit : ℕ) : Option (Window T) → List T → List (T × Bool)
  | _, [] => []
  | w, t :: ts => (t, (request width limit t w).1) :: decisions width limit (some (request width limit t w).2) ts

/-- How many calls the open window has admitted, if it starts at `s`. -/
def openedAt (w : Option (Window T)) (s : T) : ℕ := w.elim 0 fun w => if w.start = s then w.admitted else 0

@[simp] theorem decisions_map_fst [Add T] (width : T) (limit : ℕ) (w : Option (Window T)) (ts : List T) :
    (decisions width limit w ts).map Prod.fst = ts := by
  induction ts generalizing w with
  | nil => rfl
  | cons t ts ih => rw [decisions, List.map_cons, ih]

theorem request_eq [Add T] (width : T) (limit : ℕ) (t : T) (w : Option (Window T)) : request width limit t w =
    if (currentWindow width t w).admitted < limit then
      (true, ⟨(currentWindow width t w).start, (currentWindow width t w).admitted + 1⟩)
    else (false, currentWindow width t w) := rfl

theorem currentWindow_start [Add T] (width t : T) (w : Option (Window T)) :
    (currentWindow width t w).start = windowStart width (w.map (·.start)) t := by
  cases w with
  | none => rfl
  | some w =>
    rw [Option.map_some, windowStart_some, currentWindow]
    split <;> rfl

theorem request_start [Add T] (width : T) (limit : ℕ) (t : T) (w : Option (Window T)) :
    (request width limit t w).2.start = windowStart width (w.map (·.start)) t := by
  rw [← currentWindow_start, request_eq]
  split <;> rfl

theorem currentWindow_admitted_le [Add T] {limit : ℕ} {w : Option (Window T)} (width t : T)
    (hw : ∀ x ∈ w, x.admitted ≤ limit) : (currentWindow width t w).admitted ≤ limit := by
  cases w with
  | none => exact Nat.zero_le _
  | some x =>
    rw [currentWindow]
    split
    · exact Nat.zero_le _
    · exact hw x rfl

theorem request_admitted_le [Add T] {limit : ℕ} {w : Option (Window T)} (width t : T)
    (hw : ∀ x ∈ w, x.admitted ≤ limit) : ∀ x ∈ some (request width limit t w).2, x.admitted ≤ limit := by
  rintro x ⟨⟩
  rw [request_eq]
  split
  · next hroom => exact hroom
  · exact currentWindow_admitted_le width t hw

/-- A denied call leaves a full window. -/
theorem request_denied [Add T] {limit : ℕ} {w : Option (Window T)} (width t : T) (hw : ∀ x ∈ w, x.admitted ≤ limit)
    (h : (request width limit t w).1 = false) : (request width limit t w).2.admitted = limit := by
  have hcurrent := currentWindow_admitted_le width t hw
  rw [request_eq] at h ⊢
  split at h
  · exact absurd h.symm Bool.false_ne_true
  · next hfull =>
    rw [if_neg hfull]
    exact Nat.le_antisymm hcurrent (Nat.le_of_not_lt hfull)

theorem stamp_decisions_cons [Add T] (width : T) (limit : ℕ) (t : T) (ts : List T) (w : Option (Window T)) :
    stamp width (w.map (·.start)) (decisions width limit w (t :: ts))
      = ⟨(request width limit t w).2.start, t, (request width limit t w).1⟩ ::
        stamp width ((some (request width limit t w).2).map (·.start))
          (decisions width limit (some (request width limit t w).2) ts) := by
  rw [Option.map_some, request_start]
  rfl

/-! ## Calls and windows -/

variable [AddCommGroup T] [IsOrderedAddMonoid T] {width : T}

theorem le_windowStart (hwidth : 0 < width) (s t : T) : s ≤ windowStart width (some s) t := by
  rcases windowStart_cases width s t with hsame | hlater
  · exact hsame.ge
  · exact le_trans (le_add_of_nonneg_right hwidth.le) hlater

theorem windowStart_bounds (hwidth : 0 < width) {current : Option T} {t : T} (h : ∀ s ∈ current, s ≤ t) :
    windowStart width current t ≤ t ∧ t < windowStart width current t + width := by
  cases current with
  | none => exact ⟨le_rfl, lt_add_of_pos_right t hwidth⟩
  | some s =>
    rw [windowStart_some]
    split
    · exact ⟨le_rfl, lt_add_of_pos_right t hwidth⟩
    · next hover => exact ⟨h s rfl, not_le.1 hover⟩

/-- The windows after one that starts at `s`: that window itself, or later ones. -/
theorem stamp_start_cases (hwidth : 0 < width) {s : T} {calls : List (T × Bool)} {e : Stamped T}
    (he : e ∈ stamp width (some s) calls) : e.start = s ∨ s + width ≤ e.start := by
  induction calls generalizing s with
  | nil => exact absurd he List.not_mem_nil
  | cons call calls ih =>
    obtain ⟨t, admitted⟩ := call
    rcases List.mem_cons.1 he with rfl | he
    · exact windowStart_cases width s t
    · have hle := le_windowStart hwidth s t
      rcases ih he with hsame | hlater
      · rw [hsame]
        exact windowStart_cases width s t
      · exact Or.inr (le_trans (add_le_add_left hle width) hlater)

theorem le_stamp_start (hwidth : 0 < width) {s : T} {calls : List (T × Bool)} {e : Stamped T}
    (he : e ∈ stamp width (some s) calls) : s ≤ e.start := by
  rcases stamp_start_cases hwidth he with hsame | hlater
  · exact hsame.ge
  · exact le_trans (le_add_of_nonneg_right hwidth.le) hlater

/-- The windows of two calls are the same or do not overlap. -/
def Apart (width : T) (e e' : Stamped T) : Prop :=
  e.start = e'.start ∨ e.start + width ≤ e'.start ∨ e'.start + width ≤ e.start

theorem stamp_apart (hwidth : 0 < width) {current : Option T} {calls : List (T × Bool)} :
    ∀ e ∈ stamp width current calls, ∀ e' ∈ stamp width current calls, Apart width e e' := by
  induction calls generalizing current with
  | nil => exact fun e he => absurd he List.not_mem_nil
  | cons call calls ih =>
    obtain ⟨t, admitted⟩ := call
    intro e he e' he'
    rcases List.mem_cons.1 he with rfl | he <;> rcases List.mem_cons.1 he' with rfl | he'
    · exact Or.inl rfl
    · exact (stamp_start_cases hwidth he').imp Eq.symm Or.inl
    · exact (stamp_start_cases hwidth he).imp_right Or.inr
    · exact ih e he e' he'

/-- A call is made during its window. -/
theorem stamp_time (hwidth : 0 < width) {current : Option T} {calls : List (T × Bool)}
    (hsorted : (calls.map Prod.fst).Pairwise (· ≤ ·)) (hcurrent : ∀ s ∈ current, ∀ call ∈ calls, s ≤ call.1)
    {e : Stamped T} (he : e ∈ stamp width current calls) : e.start ≤ e.time ∧ e.time < e.start + width := by
  induction calls generalizing current with
  | nil => exact absurd he List.not_mem_nil
  | cons call calls ih =>
    obtain ⟨t, admitted⟩ := call
    have hbounds := windowStart_bounds hwidth fun s hs => hcurrent s hs _ (List.mem_cons_self ..)
    rcases List.mem_cons.1 he with rfl | he
    · exact hbounds
    · rw [List.map_cons, List.pairwise_cons] at hsorted
      refine ih hsorted.2 ?_ he
      rintro s ⟨⟩ call hcall
      exact le_trans hbounds.1 (hsorted.1 _ (List.mem_map_of_mem hcall))

/-! ## Intervals as long as a window -/

/-- Of a list without three different values only two are left. -/
theorem two_values {α β : Type*} {l : List α} {f : α → β} (hl : l ≠ [])
    (h : ∀ x ∈ l, ∀ y ∈ l, ∀ z ∈ l, f x = f y ∨ f x = f z ∨ f y = f z) :
    ∃ a b, ∀ x ∈ l, f x = a ∨ f x = b := by
  obtain ⟨x, hx⟩ := List.exists_mem_of_ne_nil l hl
  by_cases hone : ∀ y ∈ l, f y = f x
  · exact ⟨f x, f x, fun y hy => Or.inl (hone y hy)⟩
  · simp only [not_forall] at hone
    obtain ⟨y, hy, hne⟩ := hone
    refine ⟨f x, f y, fun z hz => ?_⟩
    rcases h x hx y hy z hz with heq | heq | heq
    · exact absurd heq.symm hne
    · exact Or.inl heq.symm
    · exact Or.inr heq.symm

/-- The call is made during its window, and in the interval from `a` as long as a window. -/
structure Within (width a : T) (e : Stamped T) : Prop where
  start_le : e.start ≤ e.time
  lt_end : e.time < e.start + width
  le_time : a ≤ e.time
  time_lt : e.time < a + width

/-- Three windows one after the other do not meet one interval as long as a window. -/
theorem Within.not_chain {e e' e'' : Stamped T} {a : T} (h : Within width a e) (h'' : Within width a e'')
    (hnext : e.start + width ≤ e'.start) (hlast : e'.start + width ≤ e''.start) : False := by
  have hover : a < e'.start := lt_of_le_of_lt h.le_time (lt_of_lt_of_le h.lt_end hnext)
  have hlate : a + width < e''.time := calc
    a + width < e'.start + width := add_lt_add_left hover width
    _ ≤ e''.start := hlast
    _ ≤ e''.time := h''.start_le
  exact lt_asymm hlate h''.time_lt

/-- So of three calls in the interval, two are in one window. -/
theorem Within.two_of_three {x y z : Stamped T} {a : T} (hx : Within width a x) (hy : Within width a y)
    (hz : Within width a z) (hxy : Apart width x y) (hxz : Apart width x z) (hyz : Apart width y z) :
    x.start = y.start ∨ x.start = z.start ∨ y.start = z.start := by
  by_contra hne
  simp only [not_or] at hne
  -- three different windows would be one after the other, in one of the six orders
  rcases hxy.resolve_left hne.1 with hxy | hyx
  · rcases hyz.resolve_left hne.2.2 with hyz | hzy
    · exact hx.not_chain hz hxy hyz
    · rcases hxz.resolve_left hne.2.1 with hxz | hzx
      · exact hx.not_chain hy hxz hzy
      · exact hz.not_chain hy hzx hxy
  · rcases hxz.resolve_left hne.2.1 with hxz | hzx
    · exact hy.not_chain hz hyx hxz
    · rcases hyz.resolve_left hne.2.2 with hyz | hzy
      · exact hy.not_chain hx hyz hzx
      · exact hz.not_chain hx hzy hyx

theorem countP_le_add {α : Type*} {l : List α} {p q r : α → Bool}
    (h : ∀ x ∈ l, p x = true → q x = true ∨ r x = true) : l.countP p ≤ l.countP q + l.countP r := by
  induction l with
  | nil => exact Nat.zero_le _
  | cons x l ih =>
    have hl := ih fun y hy => h y (List.mem_cons_of_mem _ hy)
    have hx := h x (List.mem_cons_self ..)
    simp only [List.countP_cons]
    split_ifs <;> simp_all <;> omega

/-- **Twice the limit.** Where each call is made during its window, windows do not overlap and none has more than
`limit` admitted calls, at most `2 * limit` calls are admitted in a half-open interval as long as a window. -/
theorem admittedBetween_le {log : List (Stamped T)} {limit : ℕ} (hapart : ∀ e ∈ log, ∀ e' ∈ log, Apart width e e')
    (htime : ∀ e ∈ log, e.start ≤ e.time ∧ e.time < e.start + width) (hlimit : ∀ s, admittedIn s log ≤ limit)
    (a : T) : admittedBetween a (a + width) log ≤ 2 * limit := by
  let inside := log.filter fun e => decide (a ≤ e.time ∧ e.time < a + width)
  have hinside : ∀ e ∈ inside, e ∈ log ∧ Within width a e := by
    intro e he
    obtain ⟨hmem, hin⟩ := List.mem_filter.1 he
    have hin := of_decide_eq_true hin
    exact ⟨hmem, (htime e hmem).1, (htime e hmem).2, hin.1, hin.2⟩
  have hthree : ∀ x ∈ inside, ∀ y ∈ inside, ∀ z ∈ inside,
      x.start = y.start ∨ x.start = z.start ∨ y.start = z.start := by
    intro x hx y hy z hz
    obtain ⟨hx, hwx⟩ := hinside x hx
    obtain ⟨hy, hwy⟩ := hinside y hy
    obtain ⟨hz, hwz⟩ := hinside z hz
    exact hwx.two_of_three hwy hwz (hapart x hx y hy) (hapart x hx z hz) (hapart y hy z hz)
  by_cases hempty : inside = []
  · have hzero : admittedBetween a (a + width) log = 0 := by
      refine List.countP_eq_zero.2 fun e he hin => ?_
      rw [Bool.and_eq_true] at hin
      exact List.filter_eq_nil_iff.1 hempty e he hin.1
    omega
  · obtain ⟨s, s', hs⟩ := two_values hempty hthree
    have hsum : admittedBetween a (a + width) log ≤ admittedIn s log + admittedIn s' log := by
      refine countP_le_add fun e he hin => ?_
      rw [Bool.and_eq_true] at hin
      rcases hs e (List.mem_filter.2 ⟨he, hin.1⟩) with hstart | hstart
      · exact Or.inl (by simp [hstart, hin.2])
      · exact Or.inr (by simp [hstart, hin.2])
    have := hlimit s
    have := hlimit s'
    omega

/-! ## Runs of the limiter -/

variable {limit : ℕ} {w : Option (Window T)}

/-- One call: the windows from its own on have what they had, and the call if it is admitted. -/
theorem openedAt_request (hwidth : 0 < width) {s t : T} (hs : (request width limit t w).2.start ≤ s) :
    openedAt w s + (if (request width limit t w).2.start = s ∧ (request width limit t w).1 = true then 1 else 0)
      = openedAt (some (request width limit t w).2) s := by
  have hfresh : ∀ x ∈ w, x.start + width ≤ t → t ≤ s → openedAt w s = 0 := by
    rintro x hx hover hts
    have hlt : x.start < s := lt_of_lt_of_le (lt_add_of_pos_right _ hwidth) (le_trans hover hts)
    rw [hx]
    exact if_neg hlt.ne
  rw [request_start] at hs
  rw [request_eq]
  cases w with
  | none => split <;> simp [currentWindow, openedAt]
  | some w =>
    rw [Option.map_some, windowStart_some] at hs
    by_cases hover : w.start + width ≤ t
    · rw [if_pos hover] at hs
      rw [hfresh w rfl hover hs]
      simp only [currentWindow, if_pos hover]
      split <;> simp [openedAt]
    · simp only [currentWindow, if_neg hover]
      split <;> by_cases hstart : w.start = s <;> simp [openedAt, hstart]

/-- No window admits more than the limit, the open one together with what it has admitted before. -/
theorem openedAt_add_admittedIn_le (hwidth : 0 < width) (hw : ∀ x ∈ w, x.admitted ≤ limit) (s : T) (ts : List T) :
    openedAt w s + admittedIn s (stamp width (w.map (·.start)) (decisions width limit w ts)) ≤ limit := by
  have hopened : ∀ w : Option (Window T), (∀ x ∈ w, x.admitted ≤ limit) → openedAt w s ≤ limit := by
    rintro (_ | x) hx
    · exact Nat.zero_le _
    · unfold openedAt
      have := hx x rfl
      simp only [Option.elim_some]
      split <;> omega
  induction ts generalizing w with
  | nil => exact hopened w hw
  | cons t ts ih =>
    have hnext := ih (request_admitted_le width t hw)
    rw [stamp_decisions_cons, admittedIn_cons]
    rcases le_or_gt (request width limit t w).2.start s with hle | hgt
    · rw [← openedAt_request hwidth hle] at hnext
      omega
    · -- a window that has ended gets no call any more
      have hnone : admittedIn s (stamp width ((some (request width limit t w).2).map (·.start))
          (decisions width limit (some (request width limit t w).2) ts)) = 0 := by
        refine List.countP_eq_zero.2 fun e he hin => ?_
        have hstart : e.start = s := of_decide_eq_true (Bool.and_eq_true_iff.1 hin).1
        exact absurd (le_stamp_start hwidth he) (not_le.2 (hstart ▸ hgt))
      rw [hnone, if_neg fun h => hgt.ne' h.1]
      exact hopened w hw

/-- A denied call finds its window full. -/
theorem openedAt_add_admittedIn_of_denied (hwidth : 0 < width) (hw : ∀ x ∈ w, x.admitted ≤ limit) {ts : List T}
    {before after : List (Stamped T)} {e : Stamped T}
    (hlog : stamp width (w.map (·.start)) (decisions width limit w ts) = before ++ e :: after)
    (hdenied : e.admitted = false) : openedAt w e.start + admittedIn e.start before = limit := by
  induction ts generalizing w before with
  | nil => simp [decisions, stamp] at hlog
  | cons t ts ih =>
    rw [stamp_decisions_cons] at hlog
    cases before with
    | nil =>
      obtain ⟨rfl, -⟩ := List.cons.inj hlog
      have hstep := openedAt_request hwidth (le_refl (request width limit t w).2.start)
      rw [if_neg fun h => Bool.false_ne_true (hdenied.symm.trans h.2)] at hstep
      have hfull := request_denied width t hw hdenied
      simpa [admittedIn, openedAt, hfull] using hstep
    | cons first before =>
      obtain ⟨rfl, hrest⟩ := List.cons.inj hlog
      have hnext := ih (request_admitted_le width t hw) hrest
      have hmem : e ∈ stamp width (some (request width limit t w).2.start)
          (decisions width limit (some (request width limit t w).2) ts) :=
        hrest.symm ▸ List.mem_append_right _ (List.mem_cons_self ..)
      rw [← openedAt_request hwidth (le_stamp_start hwidth hmem)] at hnext
      rw [admittedIn_cons]
      omega

/-- **At most the limit in each window.** -/
theorem admittedIn_le (hwidth : 0 < width) (s : T) (ts : List T) :
    admittedIn s (stamp width none (decisions width limit none ts)) ≤ limit := by
  have h : openedAt none s + admittedIn s (stamp width none (decisions width limit none ts)) ≤ limit :=
    openedAt_add_admittedIn_le (w := none) hwidth nofun s ts
  exact Nat.le_trans (Nat.le_add_left ..) h

/-- **A call is denied only in a window that has admitted the limit.** -/
theorem admittedIn_of_denied (hwidth : 0 < width) {ts : List T} {before after : List (Stamped T)} {e : Stamped T}
    (hlog : stamp width none (decisions width limit none ts) = before ++ e :: after)
    (hdenied : e.admitted = false) : admittedIn e.start before = limit := by
  have h : openedAt none e.start + admittedIn e.start before = limit :=
    openedAt_add_admittedIn_of_denied (w := none) hwidth nofun hlog hdenied
  rwa [openedAt, Option.elim_none, Nat.zero_add] at h

end UrlShortener.Windows
