import UrlShortener.Spec.Analytics

/-!
# The click event queue

* `Outcome`: what one call can do. A call accepts an event, drops it, delivers the first buffered one, or
  does nothing of these; `handle_outcome` is the one place where the operations are unfolded.
* `delivered_of_buffered`: whatever else is called, as many dequeues as events are buffered deliver them.
* `queue_conserves`: over every run nothing is lost, duplicated or reordered, and the counters are exact.
-/

namespace UrlShortener

open Runs

namespace QueueCall

/-- The call tries to enqueue. -/
def enqueues : QueueCall → Bool
  | tryEnqueue _ _ => true
  | _ => false

/-- The call tries to dequeue. -/
def dequeues : QueueCall → Bool
  | tryDequeue => true
  | waitDequeue _ => true
  | _ => false

/-- The memory the call asks for, if any, is there. -/
def Allocates : QueueCall → Prop
  | tryEnqueue _ allocates => allocates = true
  | _ => True

/-- **What a call can do**: the events it accepts, drops and delivers, and the queue it leaves. -/
inductive Outcome (q : BoundedClickEventQueue) :
    QueueCall → (accepted dropped delivered : Option ClickEvent) → BoundedClickEventQueue → Prop
  | accept (event : ClickEvent) (allocates : Bool) : q.queue.length < q.capacity →
      Outcome q (.tryEnqueue event allocates) (some event) none none
        { q with queue := q.queue ++ [event], enqueuedTotal := q.enqueuedTotal + 1 }
  | drop (event : ClickEvent) (allocates : Bool) : (allocates = true → q.capacity ≤ q.queue.length) →
      Outcome q (.tryEnqueue event allocates) none (some event) none
        { q with droppedTotal := q.droppedTotal + 1 }
  | deliver (c : QueueCall) (event : ClickEvent) (rest : List ClickEvent) :
      c.enqueues = false → q.queue = event :: rest → Outcome q c none none (some event) { q with queue := rest }
  | keep (c : QueueCall) (stop : Bool) : c.enqueues = false → (c.dequeues = true → q.queue = []) →
      Outcome q c none none none { q with stop := stop }

end QueueCall

open QueueCall

variable {q q' : BoundedClickEventQueue} {c : QueueCall} {a d o : Option ClickEvent}

/-! ## One call -/

/-- A call of `WaitDequeue` does what `TryDequeue` does in its place. -/
theorem waitDequeue_eq (q : BoundedClickEventQueue) : q.waitDequeue = q.tryDequeue := by
  unfold BoundedClickEventQueue.waitDequeue BoundedClickEventQueue.tryDequeue
  cases q.queue with
  | nil => simp
  | cons event rest => simp

/-- **Every call has one of these outcomes.** -/
theorem handle_outcome (c : QueueCall) (q : BoundedClickEventQueue) :
    Outcome q c (accepted? ⟨c, (c.handle q).1⟩) (dropped? ⟨c, (c.handle q).1⟩) (delivered? ⟨c, (c.handle q).1⟩)
      (c.handle q).2 := by
  cases c with
  | tryEnqueue event allocates =>
    simp only [handle, BoundedClickEventQueue.tryEnqueue]
    by_cases hfull : q.capacity ≤ q.queue.length
    · rw [if_pos hfull]
      exact .drop event allocates fun _ => hfull
    · rw [if_neg hfull]
      cases allocates with
      | true => exact .accept event true (by omega)
      | false => exact .drop event false (by simp)
  | tryDequeue =>
    simp only [handle, BoundedClickEventQueue.tryDequeue]
    cases hq : q.queue with
    | nil => exact .keep _ q.stop rfl fun _ => hq
    | cons event rest => exact .deliver _ event rest rfl hq
  | waitDequeue timeout =>
    simp only [handle, waitDequeue_eq, BoundedClickEventQueue.tryDequeue]
    cases hq : q.queue with
    | nil => exact .keep _ q.stop rfl fun _ => hq
    | cons event rest => exact .deliver _ event rest rfl hq
  | getStats => exact .keep _ q.stop rfl (by simp [dequeues])
  | notifyStop => exact .keep _ true rfl (by simp [dequeues])

/-- **One call is first in, first out.** -/
theorem QueueCall.Outcome.conserves (h : Outcome q c a d o q') :
    o.toList ++ q'.queue = q.queue ++ a.toList := by
  cases h with
  | accept event allocates _ => rfl
  | drop event allocates _ => simp
  | deliver c event rest _ hq => simp [hq]
  | keep c stop _ _ => simp

theorem QueueCall.Outcome.capacity (h : Outcome q c a d o q') : q'.capacity = q.capacity := by
  cases h <;> rfl

theorem QueueCall.Outcome.bounded (h : Outcome q c a d o q') (hq : q.queue.length ≤ q.capacity) :
    q'.queue.length ≤ q'.capacity := by
  cases h with
  | accept event allocates hlt =>
    simp only [List.length_append, List.length_singleton]
    omega
  | drop event allocates _ => exact hq
  | deliver c event rest _ heq =>
    rw [heq, List.length_cons] at hq
    exact Nat.le_of_succ_le hq
  | keep c stop _ _ => exact hq

/-- The counters of one call. -/
theorem QueueCall.Outcome.counters (h : Outcome q c a d o q') :
    q'.enqueuedTotal = q.enqueuedTotal + .ofNat a.toList.length ∧
      q'.droppedTotal = q.droppedTotal + .ofNat d.toList.length ∧
      a.toList.length + d.toList.length = if c.enqueues then 1 else 0 := by
  cases h with
  | accept event allocates _ => simp [enqueues]
  | drop event allocates _ => simp [enqueues]
  | deliver c event rest hc _ => simp [hc]
  | keep c stop hc _ => simp [hc]

theorem QueueCall.Outcome.full_of_dropped {event : ClickEvent} (h : Outcome q c a (some event) o q')
    (hc : c.Allocates) : q.capacity ≤ q.queue.length := by
  cases h with
  | drop event allocates hfull => exact hfull hc

/-! ## Sequences of calls -/

section

variable (q : BoundedClickEventQueue) (calls : List QueueCall)

/-- The queue after the calls. -/
abbrev queueAfter : BoundedClickEventQueue := final handle q calls

/-- The events accepted by the calls, in order; those dropped, and those delivered. -/
def acceptedBy : List ClickEvent := (answers handle q calls).filterMap accepted?

@[inherit_doc acceptedBy]
def droppedBy : List ClickEvent := (answers handle q calls).filterMap dropped?

@[inherit_doc acceptedBy]
def deliveredBy : List ClickEvent := (answers handle q calls).filterMap delivered?

end

theorem deliveredBy_append (q : BoundedClickEventQueue) (calls tail : List QueueCall) :
    deliveredBy q (calls ++ tail) = deliveredBy q calls ++ deliveredBy (queueAfter q calls) tail := by
  simp [deliveredBy]

theorem run_conserves (q : BoundedClickEventQueue) (calls : List QueueCall) :
    deliveredBy q calls ++ (queueAfter q calls).queue = q.queue ++ acceptedBy q calls :=
  filterMap_answers_conserved (fun c q => (handle_outcome c q).conserves) q calls

theorem run_bounded (hq : q.queue.length ≤ q.capacity) (calls : List QueueCall) :
    (queueAfter q calls).queue.length ≤ q.capacity := by
  have h : (queueAfter q calls).queue.length ≤ (queueAfter q calls).capacity ∧
      (queueAfter q calls).capacity = q.capacity := by
    refine after_invariant (P := fun p : BoundedClickEventQueue =>
      p.queue.length ≤ p.capacity ∧ p.capacity = q.capacity) ?_ ⟨hq, rfl⟩ calls
    intro c p hp
    exact ⟨(handle_outcome c p).bounded hp.1, (handle_outcome c p).capacity.trans hp.2⟩
  omega

theorem run_counters (q : BoundedClickEventQueue) (calls : List QueueCall) :
    (queueAfter q calls).enqueuedTotal = q.enqueuedTotal + .ofNat (acceptedBy q calls).length ∧
      (queueAfter q calls).droppedTotal = q.droppedTotal + .ofNat (droppedBy q calls).length ∧
      (acceptedBy q calls).length + (droppedBy q calls).length = (calls.filter enqueues).length := by
  induction calls generalizing q with
  | nil => simp [acceptedBy, droppedBy]
  | cons c calls ih =>
    obtain ⟨henq, hdrop, hone⟩ := (handle_outcome c q).counters
    obtain ⟨ihenq, ihdrop, ihone⟩ := ih (c.handle q).2
    have hfilter : ((c :: calls).filter enqueues).length
        = (if c.enqueues then 1 else 0) + (calls.filter enqueues).length := by
      cases hc : c.enqueues
      · simp [hc]
      · simp [hc, Nat.add_comm]
    simp only [acceptedBy, droppedBy] at ihenq ihdrop ihone
    simp only [acceptedBy, droppedBy, answers_cons, filterMap_cons_toList, List.length_append, final_cons]
    refine ⟨?_, ?_, ?_⟩
    · rw [ihenq, henq, UInt64.ofNat_add, UInt64.add_assoc]
    · rw [ihdrop, hdrop, UInt64.ofNat_add, UInt64.add_assoc]
    · rw [hfilter]
      omega

/-- **Buffered events stay deliverable.** What stands first in the buffer is what the calls deliver first,
as soon as there are that many dequeues among them; a stop in between changes nothing. -/
theorem delivered_of_buffered {xs : List ClickEvent} {q : BoundedClickEventQueue} {calls : List QueueCall}
    (hxs : xs <+: q.queue) (hlen : xs.length ≤ (calls.filter dequeues).length) : xs <+: deliveredBy q calls := by
  induction calls generalizing q xs with
  | nil =>
    have : xs = [] := by simpa using hlen
    simp [this]
  | cons c calls ih =>
    have hcons : deliveredBy q (c :: calls)
        = (delivered? ⟨c, (c.handle q).1⟩).toList ++ deliveredBy (c.handle q).2 calls :=
      filterMap_cons_toList ..
    rw [hcons]
    -- unless the call delivers, the buffer keeps what it had and the dequeues left are enough
    have hkeep : ∀ tail, (c.handle q).2.queue = q.queue ++ tail → (c.dequeues = true → q.queue = []) →
        xs <+: deliveredBy (c.handle q).2 calls := by
      intro tail hq hc
      apply ih
      · rw [hq]
        exact hxs.trans (List.prefix_append _ _)
      · by_cases hdeq : c.dequeues = true
        · have : xs = [] := by simpa [hc hdeq] using hxs
          simp [this]
        · simpa [hdeq] using hlen
    have hout := handle_outcome c q
    generalize accepted? ⟨c, (c.handle q).1⟩ = a, dropped? ⟨c, (c.handle q).1⟩ = d,
      delivered? ⟨c, (c.handle q).1⟩ = o, (c.handle q).2 = q' at *
    cases hout with
    | accept event allocates _ => exact hkeep [event] rfl (by simp [dequeues])
    | drop event allocates _ => exact hkeep [] (by simp) (by simp [dequeues])
    | keep c stop _ hempty => exact hkeep [] (by simp) hempty
    | deliver c event rest _ hq =>
      rcases xs with _ | ⟨x, xs⟩
      · exact List.nil_prefix
      · rw [hq] at hxs
        obtain ⟨rfl, hrest⟩ := List.cons_prefix_cons.1 hxs
        refine List.cons_prefix_cons.2 ⟨rfl, ih hrest ?_⟩
        have := List.length_filter_le dequeues [c]
        simp only [List.filter_cons, List.length_cons] at hlen this
        split at hlen
        · simpa using hlen
        · omega

/-- **The queue conserves its events.** After any calls on a new queue whose allocations succeed and whose
counters stay below `2 ^ 64`:
the buffer is within the capacity; what was delivered, followed by what is buffered, is what was accepted;
`GetStats` counts the accepted events, which are those delivered and those buffered, and accepted and
dropped together are the calls of `TryEnqueue`; an event was dropped only on a full buffer; and whatever is
called from here on, `NotifyStop` included, as many dequeues as there are buffered events deliver them. -/
theorem queue_conserves (capacity : ℕ) (hcap : 0 < capacity) (calls : List QueueCall)
    (halloc : ∀ c ∈ calls, c.Allocates)
    (haccepted : (acceptedBy ⟨capacity, hcap, [], 0, 0, false⟩ calls).length < 2 ^ 64)
    (hdropped : (droppedBy ⟨capacity, hcap, [], 0, 0, false⟩ calls).length < 2 ^ 64) :
    let new : BoundedClickEventQueue := ⟨capacity, hcap, [], 0, 0, false⟩
    let q := queueAfter new calls
    q.getStats.depth ≤ capacity ∧
      deliveredBy new calls ++ q.queue = acceptedBy new calls ∧
      q.getStats.enqueuedTotal.toNat = (acceptedBy new calls).length ∧
      (acceptedBy new calls).length = (deliveredBy new calls).length + q.getStats.depth ∧
      q.getStats.enqueuedTotal.toNat + q.getStats.droppedTotal.toNat = (calls.filter enqueues).length ∧
      (∀ pre c post event, calls = pre ++ c :: post →
        dropped? ⟨c, (c.handle (queueAfter new pre)).1⟩ = some event →
        (queueAfter new pre).queue.length = capacity) ∧
      ∀ tail, q.queue.length ≤ (tail.filter dequeues).length →
        deliveredBy new calls ++ q.queue <+: deliveredBy new (calls ++ tail) := by
  intro new q
  have hconserves : deliveredBy new calls ++ q.queue = acceptedBy new calls := run_conserves new calls
  obtain ⟨henq, hdrop, hone⟩ := run_counters new calls
  have hbound : ∀ pre, (queueAfter new pre).queue.length ≤ capacity :=
    run_bounded (q := new) (Nat.zero_le capacity)
  have henq' : q.getStats.enqueuedTotal.toNat = (acceptedBy new calls).length := by
    show q.enqueuedTotal.toNat = _
    rw [henq, UInt64.zero_add, UInt64.toNat_ofNat_of_lt' haccepted]
  have hdrop' : q.getStats.droppedTotal.toNat = (droppedBy new calls).length := by
    show q.droppedTotal.toNat = _
    rw [hdrop, UInt64.zero_add, UInt64.toNat_ofNat_of_lt' hdropped]
  refine ⟨hbound calls, hconserves, henq', ?_, by omega, ?_, ?_⟩
  · rw [← hconserves, List.length_append]
    rfl
  · rintro pre c post event rfl hevent
    have hcapacity : (queueAfter new pre).capacity = capacity :=
      after_invariant (P := fun p : BoundedClickEventQueue => p.capacity = capacity)
        (fun c p hp => (handle_outcome c p).capacity.trans hp) rfl pre
    have hout := handle_outcome c (queueAfter new pre)
    rw [hevent] at hout
    have hfull := hout.full_of_dropped (halloc c (by simp))
    have hle := hbound pre
    omega
  · intro tail htail
    rw [deliveredBy_append]
    exact (List.prefix_append_right_inj _).2 (delivered_of_buffered (List.prefix_refl _) htail)

/-- An event that differs from others in its identifier only. -/
def sampleEvent (id : Char) : ClickEvent := ⟨[id], 0, "abc", [], [], 302, [], [], []⟩

/-- Three events for a queue of two, then a stop and two dequeues. -/
theorem queue_conserves_sample :
    let new : BoundedClickEventQueue := ⟨2, by decide, [], 0, 0, false⟩
    let calls : List QueueCall := [.tryEnqueue (sampleEvent 'a') true, .tryEnqueue (sampleEvent 'b') true,
      .tryEnqueue (sampleEvent 'c') true, .notifyStop]
    (queueAfter new calls).getStats.droppedTotal = 1 ∧
      (queueAfter new calls).getStats.depth ≤ 2 ∧
      deliveredBy new calls ++ (queueAfter new calls).queue <+:
        deliveredBy new (calls ++ [.waitDequeue 0, .tryDequeue]) := by
  intro new calls
  have hstart : (∀ c ∈ calls, c.Allocates) ∧ (acceptedBy new calls).length < 2 ^ 64 ∧
      (droppedBy new calls).length < 2 ^ 64 := by
    refine ⟨?_, by decide, by decide⟩
    simp [calls, Allocates]
  have h := queue_conserves 2 (by decide) calls hstart.1 hstart.2.1 hstart.2.2
  exact ⟨by decide, h.1, h.2.2.2.2.2.2 _ (by decide)⟩

end UrlShortener
