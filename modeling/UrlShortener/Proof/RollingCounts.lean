import UrlShortener.Proof.Counting
import UrlShortener.Proof.Validity

/-!
# The rolling counts of a link

`redirects_24h` and `redirects_7d` go up with every redirect and never down, while the windows they are named
after move on with the clock.

* `Rolling`, `rollingCount`: the redirects of the last day and of the last week.
* `InStore.uniform`: the three counters of a stored link are the same number.
* `rolling_counts_iff`: **when they are the counts of their windows.**
-/

namespace UrlShortener

variable {d t : ℤ} {times : List TimePoint}

/-! ## Windows that move with the clock -/

/-- A day. -/
def nanosecondsPerDay : ℤ := 24 * 60 * 60 * 1000000000

/-- A week. -/
def nanosecondsPerWeek : ℤ := 7 * nanosecondsPerDay

/-- The instant `τ` is in the window of length `d` that ends at `t`. -/
def Rolling (d t : ℤ) (τ : TimePoint) : Prop := t - d < τ.toInt ∧ τ.toInt ≤ t

instance (d t : ℤ) (τ : TimePoint) : Decidable (Rolling d t τ) := inferInstanceAs (Decidable (_ ∧ _))

/-- **The number of instants in the window.** -/
def rollingCount (d t : ℤ) (times : List TimePoint) : ℕ := times.countP fun τ => decide (Rolling d t τ)

/-- Those that have left the window, or are yet to come. -/
def outsideCount (d t : ℤ) (times : List TimePoint) : ℕ := times.countP fun τ => decide (¬ Rolling d t τ)

theorem length_eq_rollingCount_add (d t : ℤ) (times : List TimePoint) :
    times.length = rollingCount d t times + outsideCount d t times := by
  rw [List.length_eq_countP_add_countP (fun τ => decide (Rolling d t τ)), rollingCount, outsideCount]
  simp only [decide_eq_true_eq]

/-- A counter of 64 bits shows the instants in the window although it counts them all: the others are a multiple
of 2^64, for instance none. -/
def Shown (d t : ℤ) (times : List TimePoint) : Prop :=
  rollingCount d t times < 2 ^ 64 ∧ 2 ^ 64 ∣ outsideCount d t times

theorem mod_eq_rollingCount_iff : times.length % 2 ^ 64 = rollingCount d t times ↔ Shown d t times := by
  have hlength := length_eq_rollingCount_add d t times
  unfold Shown
  omega

/-- With fewer than 2^64 instants, none may be outside. -/
theorem shown_iff (hfew : times.length < 2 ^ 64) : Shown d t times ↔ ∀ τ ∈ times, Rolling d t τ := by
  have hlength := length_eq_rollingCount_add d t times
  have hnone : outsideCount d t times = 0 ↔ ∀ τ ∈ times, Rolling d t τ := by
    simp [outsideCount, List.countP_eq_zero]
  rw [← hnone, Shown]
  omega

/-! ## The counters -/

/-- The three counters agree. -/
def Stats.Uniform (stats : Stats) : Prop :=
  stats.redirects24h = stats.totalRedirects ∧ stats.redirects7d = stats.totalRedirects

theorem Writes.uniform {op : Op} {old : Option Link} {l : Link} (h : Writes op old l)
    (hold : ∀ m ∈ old, m.stats.Uniform) : l.stats.Uniform := by
  cases h with
  | created hcommand hbuild =>
    rw [(buildLink_ok hbuild).stats]
    exact ⟨rfl, rfl⟩
  | changed hcommand hc hf =>
    rw [(change_edit hc hf).stats]
    exact hold _ rfl
  | counted m now =>
    obtain ⟨hday, hweek⟩ := hold m rfl
    exact ⟨congrArg (· + 1) hday, congrArg (· + 1) hweek⟩

theorem InStore.uniform {ops : List Op} {l : Link} (hl : InStore (worldAfter ops) l) : l.stats.Uniform :=
  stored_invariant (fun _ _ _ _ hwrite hold => hwrite.uniform hold) hl

/-- The instant a redirect is counted with. -/
def Op.countedAt : Op → TimePoint
  | .command _ env _ => env.clock 1
  | .request call => call.env.clock 1

/-- **The instants of the redirects to `s`** in a run from `w`. -/
def redirectTimes (s : Str) (w : World) : List Op → List TimePoint
  | [] => []
  | op :: ops => (if redirectsTo s op w then [op.countedAt] else []) ++ redirectTimes s (step op w).2 ops

theorem length_redirectTimes (s : Str) (w : World) (ops : List Op) :
    (redirectTimes s w ops).length = redirectCount s w ops := by
  induction ops generalizing w with
  | nil => rfl
  | cons op ops ih =>
    rw [redirectTimes, redirectCount, List.length_append, ih]
    split <;> rfl

/-- A slug that was redirected has a link to read, and its total is the number of redirects. -/
theorem read_counted (ops : List Op) (s : Str) :
    (∀ l, (getLinkForRead s (worldAfter ops).links).1 = some l →
      l.stats.totalRedirects.toNat = (redirectTimes s (worldAfter []) ops).length % 2 ^ 64 ∧ l.stats.Uniform) ∧
    ((getLinkForRead s (worldAfter ops).links).1 = none → redirectTimes s (worldAfter []) ops = []) := by
  have hempty : Represents (worldAfter []).links .empty := Represents.empty
  obtain ⟨cat, hcat, hcount⟩ := run_counted hempty (Counted.of_none (Catalog.link_empty s)) ops
  rw [List.nil_append] at hcat
  rw [Nat.zero_add, ← length_redirectTimes] at hcount
  rw [(hcat.getLinkForRead s).1]
  constructor
  · intro l hl
    have htotal : l.stats.totalRedirects = UInt64.ofNat (redirectTimes s (worldAfter []) ops).length := by
      simpa only [Counted, hl] using hcount
    rw [htotal, UInt64.toNat_ofNat']
    exact ⟨rfl, InStore.uniform (.inl ⟨l.id, (hcat.byId l.id l).2 ⟨Catalog.link_self hl, rfl⟩⟩)⟩
  · intro hnone
    have hzero : (redirectTimes s (worldAfter []) ops).length = 0 := by simpa only [Counted, hnone] using hcount
    exact List.length_eq_zero_iff.1 hzero

/-- **When the rolling counts are right.** A link that is read after any run shows at the time `t` how often it
redirected in the last day and in the last week exactly if, for both windows, the redirects outside are none, or
as many as a counter needs to come round. -/
theorem rolling_counts_iff (ops : List Op) (s : Str) (l : Link) (t : TimePoint)
    (hl : (getLinkForRead s (worldAfter ops).links).1 = some l) :
    (l.stats.redirects24h.toNat = rollingCount nanosecondsPerDay t.toInt (redirectTimes s (worldAfter []) ops) ∧
        l.stats.redirects7d.toNat = rollingCount nanosecondsPerWeek t.toInt (redirectTimes s (worldAfter []) ops)) ↔
      Shown nanosecondsPerDay t.toInt (redirectTimes s (worldAfter []) ops) ∧
        Shown nanosecondsPerWeek t.toInt (redirectTimes s (worldAfter []) ops) := by
  obtain ⟨htotal, hday, hweek⟩ := (read_counted ops s).1 l hl
  rw [hday, hweek, htotal, mod_eq_rollingCount_iff, mod_eq_rollingCount_iff]

/-- The link of `sampleVisit` redirects once, at time 0. -/
theorem sampleVisit_times : redirectTimes "abc" (worldAfter []) sampleVisit = [0] := by
  decide +kernel

theorem sampleVisit_read : ∃ l, (getLinkForRead "abc" (worldAfter sampleVisit).links).1 = some l := by
  refine Option.ne_none_iff_exists'.1 fun hnone => ?_
  have hempty := (read_counted sampleVisit "abc").2 hnone
  rw [sampleVisit_times] at hempty
  cases hempty

/-- Read a second later. -/
theorem rolling_counts_iff_sample :
    ∃ l, (getLinkForRead "abc" (worldAfter sampleVisit).links).1 = some l ∧
      rollingCount nanosecondsPerDay (fromTimeT 1).toInt
        (redirectTimes "abc" (worldAfter []) sampleVisit) = 1 ∧
      l.stats.redirects24h.toNat = rollingCount nanosecondsPerDay (fromTimeT 1).toInt
        (redirectTimes "abc" (worldAfter []) sampleVisit) ∧
      l.stats.redirects7d.toNat = rollingCount nanosecondsPerWeek (fromTimeT 1).toInt
        (redirectTimes "abc" (worldAfter []) sampleVisit) := by
  obtain ⟨l, hl⟩ := sampleVisit_read
  refine ⟨l, hl, by rw [sampleVisit_times]; decide, (rolling_counts_iff sampleVisit _ l (fromTimeT 1) hl).2 ?_⟩
  rw [sampleVisit_times, shown_iff (by decide), shown_iff (by decide), List.forall_mem_singleton,
    List.forall_mem_singleton]
  decide

/-- **A redirect that does not leave its windows.** The link redirected once, on the first of January, and is
still read on the tenth with one redirect in the last day and one in the last week. -/
theorem redirect_counted_later :
    ∃ l, (getLinkForRead "abc" (worldAfter sampleVisit).links).1 = some l ∧
      l.stats.redirects24h.toNat = 1 ∧ l.stats.redirects7d.toNat = 1 ∧
      rollingCount nanosecondsPerDay (fromTimeT (9 * 86400)).toInt
        (redirectTimes "abc" (worldAfter []) sampleVisit) = 0 ∧
      rollingCount nanosecondsPerWeek (fromTimeT (9 * 86400)).toInt
        (redirectTimes "abc" (worldAfter []) sampleVisit) = 0 := by
  obtain ⟨l, hl⟩ := sampleVisit_read
  obtain ⟨htotal, hday, hweek⟩ := (read_counted sampleVisit "abc").1 l hl
  rw [sampleVisit_times] at htotal ⊢
  exact ⟨l, hl, by rw [hday, htotal]; rfl, by rw [hweek, htotal]; rfl, by decide, by decide⟩

end UrlShortener
