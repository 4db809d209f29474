import UrlShortener.Proof.RateLimit
import UrlShortener.Windows.Fixed

/-!
# The in-memory limiter over whole runs

* `Tracks`, `allow_request`: the bucket of a key is the open window of a fixed-window limiter, and a call on the key is
  decided as that limiter does; calls on other keys leave it alone (`allow_lookup_ne`).
* `onKey_answers`: so the decisions on a key are those of the limiter, over every run.
* `allow_windows`: **at most the limit in each window, at most twice the limit in every interval as long as a window,
  and no call on a key is denied before its window is full.**
* `allow_advice`: **what is left and the time of the reset come true**, whatever is asked for other keys.
-/

namespace UrlShortener.RateLimit

open Runs Windows

/-- The times of the calls on a key, each with the decision. -/
def onKey (key : Str) (log : List ((_ : AllowCall) × (RateLimitDecision × RateLimitError))) : List (ℤ × Bool) :=
  log.filterMap fun a => if a.1.key = key then some (a.1.now.toInt, a.2.1.allowed) else none

/-- The bucket counts the calls of the window that is open, and is reset when it ends. -/
structure Tracks (width : ℤ) (limit : UInt64) (bucket : Bucket) (w : Window ℤ) : Prop where
  count : bucket.count.toNat = w.admitted
  pos : 0 < w.admitted
  le : w.admitted ≤ limit.toNat
  resetAt : bucket.resetAt.toInt = w.start + width

/-! ## One call -/

/-- Other keys are not touched. -/
theorem allow_lookup_ne {call : AllowCall} {key : Str} (hkey : call.key ≠ key) (buckets : Buckets) :
    (InMemoryRateLimiter.allow call buckets).2.lookup key = buckets.lookup key := by
  by_cases hempty : call.key = []
  · rw [InMemoryRateLimiter.allow, if_pos hempty]
  by_cases hwindow : call.window ≤ 0
  · rw [InMemoryRateLimiter.allow, if_neg hempty, if_pos hwindow]
  rw [allow_eq hempty (Int64.not_le.1 hwindow) rfl]
  split <;> exact Finmap.lookup_insert_of_ne _ hkey.symm

variable {call : AllowCall} {buckets : Buckets} {w : Option (Window ℤ)}

/-- The nanoseconds of the window of a call. -/
def AllowCall.width (call : AllowCall) : ℤ := call.window.toInt * 1000000000

theorem AllowCall.width_pos (hwindow : 0 < call.window) : 0 < call.width := by
  have h : 0 < call.window.toInt := Int64.lt_iff_toInt_lt.1 hwindow
  unfold AllowCall.width
  omega

theorem addSeconds_window (hwindow : 0 < call.window) (hfits : call.Fits) :
    (call.now.addSeconds call.window.toInt).toInt = call.now.toInt + call.width := by
  have hpos := AllowCall.width_pos hwindow
  have hlow := call.now.le_toInt
  unfold AllowCall.Fits at hfits
  unfold AllowCall.width at hpos ⊢
  exact addSeconds_toInt (by omega) hfits

/-- The bucket a call counts in, from the window that is open. -/
theorem currentBucket_tracks (hwindow : 0 < call.window) (hfits : call.Fits)
    (htracks : Option.Rel (Tracks call.width call.limit) (buckets.lookup call.key) w) :
    (currentBucket call buckets).count.toNat = (currentWindow call.width call.now.toInt w).admitted ∧
      (currentBucket call buckets).resetAt.toInt
        = (currentWindow call.width call.now.toInt w).start + call.width := by
  have hreset := addSeconds_window hwindow hfits
  unfold currentBucket
  generalize buckets.lookup call.key = bucket at htracks
  cases htracks with
  | none => exact ⟨rfl, hreset⟩
  | @some bucket w h =>
    have hover : bucket.Over call.now ↔ w.start + call.width ≤ call.now.toInt := by
      have hcount : bucket.count ≠ 0 := by
        rintro hzero
        have hpos := h.pos
        rw [← h.count, hzero] at hpos
        exact absurd hpos (Nat.lt_irrefl 0)
      rw [Bucket.Over, or_iff_right hcount, Int64.le_iff_toInt_le, h.resetAt]
    simp only [Option.getD_some, currentWindow, hover]
    split
    · exact ⟨rfl, hreset⟩
    · exact ⟨h.count, h.resetAt⟩

/-- **A call is decided as the fixed-window limiter does**, and leaves the bucket of the window that is open then. -/
theorem allow_request (hkey : call.key ≠ []) (hwindow : 0 < call.window) (hlimit : 1 ≤ call.limit) (hfits : call.Fits)
    (htracks : Option.Rel (Tracks call.width call.limit) (buckets.lookup call.key) w) :
    let next := request call.width call.limit.toNat call.now.toInt w
    (InMemoryRateLimiter.allow call buckets).1.1.allowed = next.1 ∧
      Option.Rel (Tracks call.width call.limit) ((InMemoryRateLimiter.allow call buckets).2.lookup call.key)
        (some next.2) := by
  obtain ⟨hcount, hreset⟩ := currentBucket_tracks hwindow hfits htracks
  have hle : (currentWindow call.width call.now.toInt w).admitted ≤ call.limit.toNat := by
    refine currentWindow_admitted_le _ _ ?_
    generalize buckets.lookup call.key = bucket at htracks
    cases htracks with
    | none => exact nofun
    | some h => rintro x ⟨⟩; exact h.le
  have hone : 1 ≤ call.limit.toNat := UInt64.le_iff_toNat_le.1 hlimit
  simp only [request_eq]
  rw [allow_eq hkey hwindow rfl]
  generalize currentBucket call buckets = bucket at hcount hreset ⊢
  generalize currentWindow call.width call.now.toInt w = current at hcount hreset hle ⊢
  by_cases hroom : current.admitted < call.limit.toNat
  · rw [if_neg (full_iff.not.2 (by omega)), if_pos hroom]
    refine ⟨rfl, ?_⟩
    rw [Finmap.lookup_insert]
    exact Option.Rel.some ⟨hcount ▸ toNat_count_add_one (hcount ▸ hroom), Nat.succ_pos _, hroom, hreset⟩
  · rw [if_pos (full_iff.2 (by omega)), if_neg hroom]
    refine ⟨rfl, ?_⟩
    rw [Finmap.lookup_insert]
    have hpos : 0 < current.admitted := by omega
    exact Option.Rel.some ⟨hcount, hpos, hle, hreset⟩

/-! ## Runs -/

/-- **The decisions on a key are those of the fixed-window limiter**, whatever else is asked. -/
theorem onKey_answers {key : Str} {limit : UInt64} {width : ℤ} {calls : List AllowCall} (hkey : key ≠ [])
    (hlimit : 1 ≤ limit) (hcalls : ∀ call ∈ calls, call.key = key →
      call.limit = limit ∧ call.width = width ∧ 0 < call.window ∧ call.Fits)
    (htracks : Option.Rel (Tracks width limit) (buckets.lookup key) w) :
    onKey key (answers InMemoryRateLimiter.allow buckets calls)
      = decisions width limit.toNat w ((calls.filter (·.key = key)).map (·.now.toInt)) := by
  induction calls generalizing buckets w with
  | nil => rfl
  | cons call calls ih =>
    have hrest := fun {b v} => @ih b v fun c hc => hcalls c (List.mem_cons_of_mem _ hc)
    rw [answers_cons]
    by_cases hsame : call.key = key
    · obtain ⟨hcallLimit, hcallWidth, hwindow, hfits⟩ := hcalls call (List.mem_cons_self ..) hsame
      subst hsame hcallLimit hcallWidth
      obtain ⟨hallowed, hnext⟩ := allow_request hkey hwindow hlimit hfits htracks
      rw [List.filter_cons_of_pos (by simp), List.map_cons, decisions, ← hrest hnext, ← hallowed]
      simp [onKey]
    · rw [List.filter_cons_of_neg (by simpa using hsame), ← hrest (by rwa [allow_lookup_ne hsame])]
      simp [onKey, hsame]

/-- Every call on the empty key is refused in the same way. -/
theorem answers_empty_key {calls : List AllowCall} {a : (_ : AllowCall) × (RateLimitDecision × RateLimitError)}
    (ha : a ∈ answers InMemoryRateLimiter.allow buckets calls) (hkey : a.1.key = []) :
    a.2 = (⟨false, 0, a.1.now⟩, .invalidKey) := by
  induction calls generalizing buckets with
  | nil => cases ha
  | cons call calls ih =>
    rw [answers_cons] at ha
    rcases List.mem_cons.1 ha with rfl | ha
    · rw [InMemoryRateLimiter.allow, if_pos hkey]
    · exact ih ha

/-- No call on the empty key is allowed. -/
theorem onKey_empty (buckets : Buckets) (calls : List AllowCall) :
    ∀ x ∈ onKey [] (answers InMemoryRateLimiter.allow buckets calls), x.2 = false := by
  intro x hx
  obtain ⟨a, ha, hax⟩ := List.mem_filterMap.1 hx
  by_cases hkey : a.1.key = []
  · rw [if_pos hkey, answers_empty_key ha hkey] at hax
    rw [← Option.some.inj hax]
  · rw [if_neg hkey] at hax
    cases hax

/-- **The limiter keeps its limit.** Over every run in which the calls on a key have the same limit and window and come
in the order of time, at most the limit is allowed in each window, at most twice the limit in any half-open interval as
long as a window, and a call on a key that is not empty is denied only when as many calls as the limit were allowed in
its window before. A call on the empty key is always denied, as one with an invalid key. -/
theorem allow_windows (key : Str) (limit : UInt64) (window : Int64) (calls : List AllowCall) (hlimit : 1 ≤ limit)
    (hwindow : 0 < window)
    (hcalls : ∀ call ∈ calls, call.key = key → call.limit = limit ∧ call.window = window ∧ call.Fits)
    (hsorted : (calls.filter (·.key = key)).Pairwise fun a b => a.now ≤ b.now) :
    let width := window.toInt * 1000000000
    let log := stamp width none (onKey key (answers InMemoryRateLimiter.allow ∅ calls))
    (∀ start, admittedIn start log ≤ limit.toNat) ∧
      (∀ a, admittedBetween a (a + width) log ≤ 2 * limit.toNat) ∧
      (∀ before e after, log = before ++ e :: after → e.admitted = false →
        key = [] ∨ admittedIn e.start before = limit.toNat) ∧
      ∀ a ∈ answers InMemoryRateLimiter.allow ∅ calls, a.1.key = [] → a.2 = (⟨false, 0, a.1.now⟩, .invalidKey) := by
  intro width log
  rw [← and_assoc, ← and_assoc]
  refine ⟨?_, fun a ha hkey => answers_empty_key ha hkey⟩
  rw [and_assoc]
  by_cases hkey : key = []
  · subst hkey
    have hnone : ∀ e ∈ log, e.admitted = false := stamp_denied (onKey_empty ∅ calls)
    have hcount : ∀ p : Stamped ℤ → Bool, log.countP (fun e => p e && e.admitted) = 0 := fun p =>
      List.countP_eq_zero.2 fun e he => by simp [hnone e he]
    refine ⟨fun start => ?_, fun a => ?_, fun _ _ _ _ _ => Or.inl rfl⟩
    · rw [admittedIn, hcount]
      exact Nat.zero_le _
    · rw [admittedBetween, hcount]
      exact Nat.zero_le _
  · have hwidth : 0 < width := by
      have h : 0 < window.toInt := Int64.lt_iff_toInt_lt.1 hwindow
      exact Int.mul_pos h (by decide)
    have hlog : log = stamp width none
        (decisions width limit.toNat none ((calls.filter (·.key = key)).map (·.now.toInt))) := by
      refine congrArg _ (onKey_answers hkey hlimit ?_ Option.Rel.none)
      intro call hcall hsame
      obtain ⟨hcallLimit, rfl, hfits⟩ := hcalls call hcall hsame
      exact ⟨hcallLimit, rfl, hwindow, hfits⟩
    have hle : ∀ start, admittedIn start log ≤ limit.toNat := fun start => hlog ▸ admittedIn_le hwidth start _
    refine ⟨hle, fun a => ?_, fun before e after hsplit hdenied => ?_⟩
    · rw [hlog] at hle ⊢
      refine admittedBetween_le (stamp_apart hwidth) (fun e he => stamp_time hwidth ?_ (by rintro s ⟨⟩) he) hle a
      rw [decisions_map_fst]
      exact List.pairwise_map.2 (hsorted.imp Int64.le_iff_toInt_le.1)
    · exact Or.inr (admittedIn_of_denied hwidth (hlog.symm.trans hsplit) hdenied)

/-- A call on the empty key is denied although no call was allowed in its window. -/
theorem empty_key_denied :
    let call : AllowCall := ⟨[], 1, 1, 0⟩
    let log := stamp 1000000000 none (onKey [] (answers InMemoryRateLimiter.allow ∅ [call]))
    call.Fits ∧ ∃ before e after, log = before ++ e :: after ∧ e.admitted = false ∧ admittedIn e.start before = 0 :=
  ⟨by decide, [], ⟨0, 0, false⟩, [], rfl, rfl, rfl⟩

theorem sampleCalls_windows :
    sampleCalls.length = 3 ∧ ∀ a, admittedBetween a (a + 10000000000)
      (stamp 10000000000 none (onKey "k" (answers InMemoryRateLimiter.allow ∅ sampleCalls))) ≤ 2 :=
  ⟨rfl, (allow_windows "k" 1 10 sampleCalls (by decide) (by decide) (by decide) (by decide)).2.1⟩

/-! ## What an answer promises -/

/-- The bucket ends at `resetAt` and has room for `room` more calls. -/
structure Promised (limit : UInt64) (room : ℕ) (resetAt : TimePoint) (bucket : Bucket) : Prop where
  counted : bucket.count ≠ 0
  room : bucket.count.toNat + room = limit.toNat
  resetAt : bucket.resetAt = resetAt

theorem ne_zero_of_toNat {n : UInt64} {m : ℕ} (h : n.toNat = m + 1) : n ≠ 0 := by
  rintro rfl
  exact absurd h.symm (Nat.succ_ne_zero m)

/-- An allowed call has a key and a window, and found room in its bucket. -/
theorem room_of_allowed (h : (InMemoryRateLimiter.allow call buckets).1.1.allowed = true) :
    call.key ≠ [] ∧ 0 < call.window ∧ (currentBucket call buckets).count.toNat < call.limit.toNat := by
  by_cases hkey : call.key = []
  · rw [InMemoryRateLimiter.allow, if_pos hkey] at h
    cases h
  by_cases hwindow : call.window ≤ 0
  · rw [InMemoryRateLimiter.allow, if_neg hkey, if_pos hwindow] at h
    cases h
  replace hwindow := Int64.not_le.1 hwindow
  rw [allow_eq hkey hwindow rfl] at h
  by_cases hfull : call.limit.toNat ≤ (currentBucket call buckets).count.toNat
  · rw [if_pos (full_iff.2 hfull)] at h
    cases h
  · exact ⟨hkey, hwindow, Nat.lt_of_not_le hfull⟩

theorem allow_promised {room : UInt64} {resetAt : TimePoint}
    (hallow : (InMemoryRateLimiter.allow call buckets).1.1 = ⟨true, room, resetAt⟩) :
    call.key ≠ [] ∧ ∃ bucket, (InMemoryRateLimiter.allow call buckets).2.lookup call.key = some bucket ∧
      Promised call.limit room.toNat resetAt bucket := by
  obtain ⟨hkey, hwindow, hroom⟩ := room_of_allowed (congrArg RateLimitDecision.allowed hallow)
  refine ⟨hkey, ?_⟩
  rw [allow_eq hkey hwindow rfl, if_neg (full_iff.not.2 (Nat.not_le.2 hroom))] at hallow ⊢
  generalize currentBucket call buckets = bucket at hallow hroom ⊢
  obtain ⟨rfl, rfl⟩ : call.limit - (bucket.count + 1) = room ∧ bucket.resetAt = resetAt := by
    simpa using hallow
  have hcount := toNat_count_add_one hroom
  refine ⟨_, Finmap.lookup_insert _, ne_zero_of_toNat hcount, ?_, rfl⟩
  show (bucket.count + 1).toNat + _ = _
  rw [UInt64.toNat_sub_of_le _ _ (UInt64.le_iff_toNat_le.2 (by omega)), hcount]
  omega

section Promise

variable {limit : UInt64} {room : ℕ} {resetAt : TimePoint} {bucket : Bucket}

/-- A call before the reset is allowed as long as there is room, and the rest of the promise stands. -/
theorem Promised.before (h : Promised call.limit room resetAt bucket) (hbucket : buckets.lookup call.key = some bucket)
    (hkey : call.key ≠ []) (hwindow : 0 < call.window) (hnow : call.now < resetAt) :
    (InMemoryRateLimiter.allow call buckets).1.1.allowed = decide (0 < room) ∧
      (InMemoryRateLimiter.allow call buckets).1.1.resetAt = resetAt ∧
      ∃ next, (InMemoryRateLimiter.allow call buckets).2.lookup call.key = some next ∧
        Promised call.limit (room - 1) resetAt next := by
  have hcurrent : currentBucket call buckets = bucket := by
    unfold currentBucket
    rw [hbucket, Option.getD_some]
    refine if_neg ?_
    rintro (hzero | hover)
    · exact h.counted hzero
    · rw [h.resetAt] at hover
      exact Int64.not_le.2 hnow hover
  have hroom := h.room
  have hreset := h.resetAt
  rw [allow_eq hkey hwindow hcurrent]
  by_cases hfull : call.limit.toNat ≤ bucket.count.toNat
  · rw [if_pos (full_iff.2 hfull)]
    refine ⟨(decide_eq_false (by omega)).symm, hreset, bucket, Finmap.lookup_insert _, h.counted, by omega, hreset⟩
  · have hcount := toNat_count_add_one (Nat.lt_of_not_le hfull)
    rw [if_neg (full_iff.not.2 hfull)]
    refine ⟨(decide_eq_true (by omega)).symm, hreset, _, Finmap.lookup_insert _, ne_zero_of_toNat hcount, ?_, hreset⟩
    show (bucket.count + 1).toNat + _ = _
    omega

/-- The first call from the reset on is allowed. -/
theorem Promised.after (h : Promised call.limit room resetAt bucket) (hbucket : buckets.lookup call.key = some bucket)
    (hkey : call.key ≠ []) (hwindow : 0 < call.window) (hnow : resetAt ≤ call.now) :
    (InMemoryRateLimiter.allow call buckets).1.1.allowed = true := by
  have hcurrent : currentBucket call buckets = ⟨0, call.now.addSeconds call.window.toInt⟩ := by
    unfold currentBucket
    rw [hbucket, Option.getD_some]
    exact if_pos (Or.inr (h.resetAt ▸ hnow))
  have hlimit : ¬ call.limit.toNat ≤ (0 : UInt64).toNat := by
    intro hzero
    have hroom := h.room
    have hcount : bucket.count.toNat ≠ 0 := fun h0 => h.counted (UInt64.toNat_inj.1 h0)
    simp only [UInt64.toNat_zero] at hzero
    omega
  rw [allow_eq hkey hwindow hcurrent, if_neg (full_iff.not.2 hlimit)]

variable {key : Str} {calls : List AllowCall}

/-- Calls before the reset leave a promise for it. -/
theorem Promised.final (h : Promised limit room resetAt bucket) (hbucket : buckets.lookup key = some bucket)
    (hkey : key ≠ []) (hcalls : ∀ c ∈ calls, c.key = key → c.limit = limit ∧ 0 < c.window ∧ c.now < resetAt) :
    ∃ room next, (final InMemoryRateLimiter.allow buckets calls).lookup key = some next ∧
      Promised limit room resetAt next := by
  refine after_invariant_mem (P := fun b : Buckets => ∃ room next, b.lookup key = some next ∧
    Promised limit room resetAt next) ?_ ⟨room, bucket, hbucket, h⟩
  rintro c hc b ⟨room, bucket, hbucket, h⟩
  by_cases hsame : c.key = key
  · obtain ⟨rfl, hwindow, hnow⟩ := hcalls c hc hsame
    subst hsame
    obtain ⟨-, -, hnext⟩ := h.before hbucket hkey hwindow hnow
    exact ⟨room - 1, hnext⟩
  · exact ⟨room, bucket, (allow_lookup_ne hsame b).trans hbucket, h⟩

/-- The calls on the key before the reset, in order: as many as there is room for are allowed. -/
theorem Promised.answers (h : Promised limit room resetAt bucket) (hbucket : buckets.lookup key = some bucket)
    (hkey : key ≠ []) (hcalls : ∀ c ∈ calls, c.key = key → c.limit = limit ∧ 0 < c.window)
    (hsorted : (calls.filter (·.key = key)).Pairwise fun a b => a.now ≤ b.now) :
    let before := (answers InMemoryRateLimiter.allow buckets calls).filter fun a => a.1.key = key ∧ a.1.now < resetAt
    before.map (fun a => (a.2.1.allowed, a.2.1.resetAt))
      = (List.range before.length).map fun i => (decide (i < room), resetAt) := by
  induction calls generalizing buckets bucket room with
  | nil => rfl
  | cons c calls ih =>
    have hrest := fun c' hc' => hcalls c' (List.mem_cons_of_mem c hc')
    by_cases hsame : c.key = key
    · rw [List.filter_cons_of_pos (by simpa using hsame), List.pairwise_cons] at hsorted
      rcases Int64.lt_or_le c.now resetAt with hnow | hnow
      · obtain ⟨rfl, hwindow⟩ := hcalls c (List.mem_cons_self ..) hsame
        subst hsame
        obtain ⟨hallowed, hreset, next, hnext, hpromised⟩ := h.before hbucket hkey hwindow hnow
        rw [answers_cons, List.filter_cons_of_pos (by simpa using hnow)]
        simp only [List.map_cons, List.length_cons, List.range_succ_eq_map, List.map_map, hallowed, hreset]
        rw [ih hpromised hnext hrest hsorted.2]
        refine congrArg _ (List.map_congr_left fun i _ => ?_)
        simp only [Function.comp_apply, Nat.lt_sub_iff_add_lt]
      · -- the clock is past the reset, for this call and all later ones on the key
        have hlate : ∀ c' ∈ c :: calls, c'.key = key → resetAt ≤ c'.now :=
          List.forall_mem_cons.2 ⟨fun _ => hnow, fun c' hc' hkey' =>
            Int64.le_trans hnow (hsorted.1 c' (List.mem_filter.2 ⟨hc', by simpa using hkey'⟩))⟩
        have hnone : (answers InMemoryRateLimiter.allow buckets (c :: calls)).filter
            (fun a => a.1.key = key ∧ a.1.now < resetAt) = [] := by
          refine List.filter_eq_nil_iff.2 fun a ha hin => ?_
          obtain ⟨hkey', hbefore⟩ := of_decide_eq_true hin
          exact Int64.not_le.2 hbefore (hlate a.1 (fst_mem_of_mem_answers _ ha) hkey')
        rw [hnone]
        rfl
    · rw [List.filter_cons_of_neg (by simpa using hsame)] at hsorted
      rw [answers_cons, List.filter_cons_of_neg (by simp [hsame])]
      exact ih h ((allow_lookup_ne hsame buckets).trans hbucket) hrest hsorted

end Promise

/-- **What an answer promises comes true.** If a call is allowed with `room` left until `resetAt`, and the later calls
on its key have the same limit and a positive window and come in the order of time, then of those before `resetAt`
exactly the first `room` are allowed, each with the same time of the reset, and the first one from `resetAt` on is
allowed. -/
theorem allow_advice (call : AllowCall) (buckets : Buckets) (room : UInt64) (resetAt : TimePoint)
    (later : List AllowCall)
    (hallow : (InMemoryRateLimiter.allow call buckets).1.1 = ⟨true, room, resetAt⟩)
    (hlater : ∀ c ∈ later, c.key = call.key → c.limit = call.limit ∧ 0 < c.window)
    (hsorted : (later.filter (·.key = call.key)).Pairwise fun a b => a.now ≤ b.now) :
    let next := (InMemoryRateLimiter.allow call buckets).2
    let before := (answers InMemoryRateLimiter.allow next later).filter fun a =>
      a.1.key = call.key ∧ a.1.now < resetAt
    before.map (fun a => (a.2.1.allowed, a.2.1.resetAt))
        = (List.range before.length).map (fun i => (decide (i < room.toNat), resetAt)) ∧
      ∀ pre c post, later = pre ++ c :: post → c.key = call.key → resetAt ≤ c.now →
        (∀ c' ∈ pre, c'.key = call.key → c'.now < resetAt) →
        (InMemoryRateLimiter.allow c (final InMemoryRateLimiter.allow next pre)).1.1.allowed = true := by
  intro next before
  obtain ⟨hkey, bucket, hbucket, hpromised⟩ := allow_promised hallow
  refine ⟨hpromised.answers hbucket hkey hlater hsorted, ?_⟩
  rintro pre c post rfl hsame hnow hpre
  obtain ⟨hlimit, hwindow⟩ := hlater c (by simp) hsame
  obtain ⟨room, b, hb, hnext⟩ := hpromised.final hbucket hkey fun c' hc' hsame' =>
    ⟨(hlater c' (by simp [hc']) hsame').1, (hlater c' (by simp [hc']) hsame').2, hpre c' hc' hsame'⟩
  rw [← hsame] at hb hkey
  rw [← hlimit] at hnext
  exact hnext.after hb hkey hwindow hnow

/-- A call with a limit of two in ten seconds. -/
def sampleAsk (now : TimePoint) : AllowCall := ⟨"k", 2, 10, now⟩

/-- What the first call leaves. -/
def sampleBuckets : Buckets := (InMemoryRateLimiter.allow (sampleAsk 0) ∅).2

/-- Three more requests. -/
def sampleLater : List AllowCall := [sampleAsk 5000000000, sampleAsk 9999999999, sampleAsk 10000000000]

/-- One call is left; of the two that are made before the window ends the second is denied. -/
theorem sampleLater_advice :
    (InMemoryRateLimiter.allow (sampleAsk 0) ∅).1.1 = ⟨true, 1, 10000000000⟩ ∧
      ((answers InMemoryRateLimiter.allow sampleBuckets sampleLater).filter fun a =>
          a.1.key = "k".toList ∧ a.1.now < 10000000000).map (fun a => (a.2.1.allowed, a.2.1.resetAt))
        = (List.range 2).map fun i => (decide (i < 1), 10000000000) := by
  have hlength : ((answers InMemoryRateLimiter.allow sampleBuckets sampleLater).filter fun a =>
      a.1.key = "k".toList ∧ a.1.now < 10000000000).length = 2 := by decide +kernel
  have hbefore := (allow_advice (sampleAsk 0) ∅ 1 10000000000 sampleLater (by decide +kernel)
    (List.forall_iff_forall_mem.1 (by decide +kernel)) (by decide +kernel)).1
  refine ⟨by decide +kernel, ?_⟩
  rw [← hlength]
  exact hbefore

end UrlShortener.RateLimit
