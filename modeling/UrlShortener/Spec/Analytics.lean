import UrlShortener.Spec.Commands
import UrlShortener.Calls.Loop
import UrlShortener.Runs.Answers
import Mathlib.Data.List.ModifyLast

/-!
# The analytics pipeline

`BoundedClickEventQueue` and `AnalyticsWorker` of `analytics/`. A call of the queue holds its mutex from
the first to the last access, so it is one step; `WaitDequeue` waits before and is modelled at the moment
it gets the mutex back for the last time. The worker is a program of calls: to the queue, to the
repository and the metrics, to the steady clock, and of its own atomic state. `batch.reserve` only sets
memory aside and is left out.
-/

namespace UrlShortener

open Calls

/-! ## The queue -/

/-- `BoundedClickEventQueue`; the constructor throws when the capacity is 0. -/
structure BoundedClickEventQueue where
  capacity : ℕ
  capacity_pos : 0 < capacity
  queue : List ClickEvent := []
  enqueuedTotal : UInt64 := 0
  droppedTotal : UInt64 := 0
  stop : Bool := false

/-- The answer to a `TryEnqueue`. -/
inductive EnqueueResult
  | enqueued
  | droppedFull
  deriving DecidableEq

/-- Depth and totals. -/
structure QueueStats where
  depth : ℕ
  enqueuedTotal : UInt64
  droppedTotal : UInt64
  deriving DecidableEq

namespace BoundedClickEventQueue

/-- `TryEnqueue`. `push_back` throws unless it gets the memory it asks for. -/
def tryEnqueue (event : ClickEvent) (allocates : Bool) (q : BoundedClickEventQueue) :
    EnqueueResult × BoundedClickEventQueue :=
  if q.capacity ≤ q.queue.length then (.droppedFull, { q with droppedTotal := q.droppedTotal + 1 })
  else if !allocates then (.droppedFull, { q with droppedTotal := q.droppedTotal + 1 })
  else (.enqueued, { q with queue := q.queue ++ [event], enqueuedTotal := q.enqueuedTotal + 1 })

/-- `TryDequeue`. -/
def tryDequeue (q : BoundedClickEventQueue) : Option ClickEvent × BoundedClickEventQueue :=
  match q.queue with
  | [] => (none, q)
  | event :: rest => (some event, { q with queue := rest })

/-- `WaitDequeue`, when `wait_for` returns. -/
def waitDequeue (q : BoundedClickEventQueue) : Option ClickEvent × BoundedClickEventQueue :=
  -- the wait ran out of time with its predicate still false
  if !(!q.queue.isEmpty || q.stop) then (none, q)
  else
    match q.queue with
    | [] => (none, q)
    | event :: rest => (some event, { q with queue := rest })

/-- `GetStats`. -/
def getStats (q : BoundedClickEventQueue) : QueueStats := ⟨q.queue.length, q.enqueuedTotal, q.droppedTotal⟩

/-- `NotifyStop`. -/
def notifyStop (q : BoundedClickEventQueue) : BoundedClickEventQueue := { q with stop := true }

end BoundedClickEventQueue

/-- A call of the queue. -/
inductive QueueCall
  | tryEnqueue (event : ClickEvent) (allocates : Bool)
  | tryDequeue
  | waitDequeue (timeout : Int64)
  | getStats
  | notifyStop

namespace QueueCall

/-- What each call returns. -/
def Answer : QueueCall → Type
  | tryEnqueue _ _ => EnqueueResult
  | tryDequeue => Option ClickEvent
  | waitDequeue _ => Option ClickEvent
  | getStats => QueueStats
  | notifyStop => Unit

/-- What each call does. -/
def handle (c : QueueCall) (q : BoundedClickEventQueue) : c.Answer × BoundedClickEventQueue :=
  match c with
  | tryEnqueue event allocates => q.tryEnqueue event allocates
  | tryDequeue => q.tryDequeue
  | waitDequeue _ => q.waitDequeue
  | getStats => (q.getStats, q)
  | notifyStop => ((), q.notifyStop)

/-- The event a call put into the queue. -/
def accepted? : (c : QueueCall) × c.Answer → Option ClickEvent
  | ⟨tryEnqueue event _, .enqueued⟩ => some event
  | _ => none

/-- The event a call refused. -/
def dropped? : (c : QueueCall) × c.Answer → Option ClickEvent
  | ⟨tryEnqueue event _, .droppedFull⟩ => some event
  | _ => none

/-- The event a call took from the queue. -/
def delivered? : (c : QueueCall) × c.Answer → Option ClickEvent
  | ⟨tryDequeue, some event⟩ => some event
  | ⟨waitDequeue _, some event⟩ => some event
  | _ => none

end QueueCall

/-! ## The worker -/

/-- The phases of a worker. -/
inductive AnalyticsWorkerState
  | stopped
  | running
  | stopping
  deriving DecidableEq

/-- `AnalyticsConfig`, the part the worker reads; durations are milliseconds. With `max_retry_attempts`
at the largest `size_t` the loop of `PersistWithRetry` would have no end. -/
structure AnalyticsConfig where
  batchSize : ℕ
  batchSize_pos : 0 < batchSize
  flushInterval : Int64
  maxRetryAttempts : ℕ
  maxRetryAttempts_lt : maxRetryAttempts < 2 ^ 64 - 1
  retryBackoff : Int64

/-- What the worker calls. `persistWithRetry` is the entry into the function of that name. -/
inductive WorkerCall
  | queue (c : QueueCall)
  | loadState
  | steadyNow
  | persistWithRetry (batch : List ClickEvent)
  | insertBatch (batch : List ClickEvent)
  | sleepFor (duration : Int64)
  | onPersisted (count : ℕ)
  | onWorkerFailure
  | setQueueDepth (depth : ℕ)

/-- What each call returns. -/
def WorkerCall.Answer : WorkerCall → Type
  | queue c => c.Answer
  | loadState => AnalyticsWorkerState
  | steadyNow => Int64
  | insertBatch _ => Bool
  | _ => Unit

/-- The worker, call by call. -/
abbrev WorkerProg := Prog WorkerCall WorkerCall.Answer

namespace WorkerProg

/-- A read of `state_`. -/
abbrev loadState : WorkerProg AnalyticsWorkerState := Prog.perform WorkerCall.loadState

/-- A reading of `steady_clock`. -/
abbrev steadyNow : WorkerProg Int64 := Prog.perform WorkerCall.steadyNow

/-- `TryDequeue` of the queue. -/
abbrev tryDequeue : WorkerProg (Option ClickEvent) := Prog.perform (WorkerCall.queue .tryDequeue)

/-- `WaitDequeue` of the queue. -/
abbrev waitDequeue (timeout : Int64) : WorkerProg (Option ClickEvent) :=
  Prog.perform (WorkerCall.queue (.waitDequeue timeout))

/-- `GetStats` of the queue. -/
abbrev getStats : WorkerProg QueueStats := Prog.perform (WorkerCall.queue .getStats)

/-- `InsertBatch` of the repository. -/
abbrev insertBatch (batch : List ClickEvent) : WorkerProg Bool := Prog.perform (WorkerCall.insertBatch batch)

/-- A call whose answer is not used. -/
abbrev tell (c : WorkerCall) : WorkerProg c.Answer := Prog.perform c

variable (config : AnalyticsConfig)

/-- The loop of `PersistWithRetry`, with `left` attempts to go after this one. -/
def attempt (batch : List ClickEvent) : (left : ℕ) → WorkerProg Bool
  | 0 => do
    let ok ← insertBatch batch
    if ok then return true else return false
  | left + 1 => do
    let ok ← insertBatch batch
    if ok then return true
    else
      tell (.sleepFor config.retryBackoff)
      attempt batch left

/-- `PersistWithRetry`. -/
def persistWithRetry (batch : List ClickEvent) : WorkerProg Bool := do
  tell (.persistWithRetry batch)
  attempt config batch config.maxRetryAttempts

/-- The loop of `FlushOnce`, with room for `slots` events more. -/
def collect (deadline : Int64) : (slots : ℕ) → (batch : List ClickEvent) → WorkerProg (List ClickEvent)
  | 0, batch => return batch
  | slots + 1, batch => do
    let now ← steadyNow
    let remaining := (deadline - now) / 1000000
    let got ← if remaining > 0 then waitDequeue remaining else tryDequeue
    match got with
    | none => return batch
    | some event => collect deadline slots (batch ++ [event])

/-- `FlushOnce` after its loop. -/
def flush (batch : List ClickEvent) : WorkerProg Unit :=
  if batch.isEmpty then return ()
  else do
    let persisted ← persistWithRetry config batch
    if persisted then tell (.onPersisted batch.length) else tell .onWorkerFailure
    let stats ← getStats
    tell (.setQueueDepth stats.depth)

/-- `FlushOnce`. -/
def flushOnce : WorkerProg Unit := do
  let now ← steadyNow
  let deadline := now + config.flushInterval * 1000000
  let batch ← collect deadline config.batchSize []
  flush config batch

/-- The last statement of the loop of `Run`: does the loop go on? -/
def goOn : WorkerProg Bool := do
  let state ← loadState
  if state = .stopping then
    let stats ← getStats
    return !(stats.depth == 0)
  else return true

/-- **One round of `Run`**: the condition of the loop, then its body. -/
def runRound : WorkerProg Bool := do
  let state ← loadState
  if state = .running then
    flushOnce config
    goOn
  else
    let state ← loadState
    if state = .stopping then
      flushOnce config
      goOn
    else return false

end WorkerProg

/-! ## Worker, producers and the caller of `Stop` -/

/-- A batch given to `PersistWithRetry`, and the calls of `InsertBatch` made for it. -/
structure Handed where
  batch : List ClickEvent
  attempts : List (List ClickEvent × Bool) := []
  deriving DecidableEq

/-- An attempt for the batch succeeded. -/
def Handed.succeeded (h : Handed) : Bool := h.attempts.any (·.2)

/-- **What the threads share**, and what an observer has seen: the events the queue accepted, the batches
handed to `PersistWithRetry`, and the total `OnPersisted` was told. -/
structure Pipeline where
  queue : BoundedClickEventQueue
  state : AnalyticsWorkerState
  accepted : List ClickEvent := []
  handed : List Handed := []
  persisted : ℕ := 0

/-- What the outside answers at one turn: the steady clock, and whether `InsertBatch` succeeds. -/
structure Outside where
  now : Int64
  inserts : Bool

namespace Pipeline

/-- A call of the queue; what it accepts is noted. -/
def queueCall (c : QueueCall) (s : Pipeline) : c.Answer × Pipeline :=
  ((c.handle s.queue).1,
    { s with
      queue := (c.handle s.queue).2
      accepted := s.accepted ++ (QueueCall.accepted? ⟨c, (c.handle s.queue).1⟩).toList })

/-- What each call does to the pipeline. -/
def handle (outside : Outside) (c : WorkerCall) (s : Pipeline) : c.Answer × Pipeline :=
  match c with
  | .queue c => s.queueCall c
  | .loadState => (s.state, s)
  | .steadyNow => (outside.now, s)
  | .persistWithRetry batch => ((), { s with handed := s.handed ++ [⟨batch, []⟩] })
  | .insertBatch batch =>
    (outside.inserts, { s with handed := s.handed.modifyLast fun h =>
      { h with attempts := h.attempts ++ [(batch, outside.inserts)] } })
  | .sleepFor _ => ((), s)
  | .onPersisted count => ((), { s with persisted := s.persisted + count })
  | .onWorkerFailure => ((), s)
  | .setQueueDepth _ => ((), s)

end Pipeline

/-- A thread's turn. `Stop` has two: the write of `state_`, and `NotifyStop`; it then waits for the worker
to end. -/
inductive Turn
  | worker (outside : Outside)
  | producer (event : ClickEvent) (allocates : Bool)
  | stop
  | notifyStop

/-- The worker's thread, running `Run`, in the pipeline. -/
abbrev Analytics := Loop WorkerCall WorkerCall.Answer Pipeline

namespace Analytics

variable (config : AnalyticsConfig)

/-- One turn. -/
def step (turn : Turn) (a : Analytics) : Analytics :=
  match turn with
  | .worker outside => a.advance (Pipeline.handle outside) (WorkerProg.runRound config)
  | .producer event allocates => { a with state := (a.state.queueCall (.tryEnqueue event allocates)).2 }
  | .stop =>
    if a.state.state ≠ .running then a else { a with state := { a.state with state := .stopping } }
  | .notifyStop => { a with state := (a.state.queueCall .notifyStop).2 }

/-- `Start` on an empty queue. -/
def start (capacity : ℕ) (hcap : 0 < capacity) : Analytics :=
  ⟨some (WorkerProg.runRound config), ⟨⟨capacity, hcap, [], 0, 0, false⟩, .running, [], [], 0⟩⟩

/-- The worker is not inside `FlushOnce`: it is at the head of the loop of `Run`, has just returned from
`FlushOnce`, or has left the loop. -/
def BetweenFlushes (a : Analytics) : Prop :=
  a.round = some (WorkerProg.runRound config) ∨ a.round = some WorkerProg.goOn ∨ a.round = none

end Analytics

end UrlShortener
