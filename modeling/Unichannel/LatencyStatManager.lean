/-
# The latency stat manager (LatencyStatManager.h, LatencyStatManager.cpp)

The consumer threads, the calls of `onLatencyUpdate`, `start` and `stop` that are
under way, and the queue they share.  A section protected by a mutex is one event,
and so is every other access to shared state; between two events of one thread any
events of the others may happen.

A thread blocked in `latencyStatQCondVar_.wait` is woken by `notify_one`, by an
interruption, or for no reason.  When `wait` is entered, and again when it has
been woken, an interruption that was requested ends the thread.
-/
import Unichannel.HttpReqHandler
import Unichannel.Lib.Tally
import Mathlib.Algebra.Order.Group.Multiset

namespace Unichannel

/-! ## Threads and calls under way -/

/-- Where a consumer thread is in `consumerThread`. -/
inductive ConsumerPc
  /-- Before the test of `isAlive_`. -/
  | loopTest
  /-- Before taking `latencyStatQMutex_`. -/
  | queueTest
  /-- Blocked in `wait`. -/
  | waiting
  /-- Woken, before taking the mutex again. -/
  | notified
  /-- After popping the stat, before `addStat`. -/
  | holding (latencyStat : LatencyStat.Ptr)
  /-- The thread has ended. -/
  | finished
  deriving DecidableEq, Repr

/-- A consumer thread, and whether `interrupt` has been called on it. -/
structure Consumer where
  pc : ConsumerPc
  interruptRequested : Bool
  deriving DecidableEq, Repr

/-- A call of `stop` after `isAlive_` was cleared: `interrupt_all` has reached the
first `i` threads, or `join_all` waits for the first `n`. -/
inductive StopCall
  | interrupting (i : ℕ)
  | joining (n : ℕ)
  deriving DecidableEq, Repr

/-- `LatencyStatManager`.  `updates` are the stats of the calls of
`onLatencyUpdate` that have not pushed yet, `starts` the numbers of threads the
calls of `start` still have to create, `stops` the calls of `stop`; `allocated`
counts the `LatencyStat`s made.  `reqHandlerSet` says that `reqHandler_` is not
null. -/
structure LatencyStatManager where
  numOfConsumerThreads_ : ℕ
  latencyStatQ_ : List LatencyStat.Ptr
  isAlive_ : Bool
  reqHandlerSet : Bool
  consumerThreadGroup_ : List Consumer
  updates : List LatencyStat.Ptr
  starts : List ℕ
  stops : List StopCall
  allocated : ℕ
  deriving DecidableEq, Repr

/-- The events of the manager's threads. -/
inductive ManagerEvent
  /-- `setReqHandler` is called with a handler. -/
  | setReqHandler
  /-- `onLatencyUpdate` is called: it throws, or it makes its `LatencyStat`. -/
  | onLatencyUpdate (stat : LatencyStat)
  /-- The call number `k` under way pushes its stat and notifies `woken`. -/
  | push (k : ℕ) (woken : Option ℕ)
  /-- Consumer `i` tests `isAlive_`. -/
  | loopTest (i : ℕ)
  /-- Consumer `i` takes the mutex, and pops a stat, waits or ends. -/
  | take (i : ℕ)
  /-- Consumer `i` is woken without having been notified. -/
  | wake (i : ℕ)
  /-- Consumer `i` calls `reqHandler_->addStat`. -/
  | addStat (i : ℕ)
  /-- `start` is called. -/
  | start
  /-- The call number `k` of `start` creates a thread. -/
  | createThread (k : ℕ)
  /-- The call number `k` of `start` returns. -/
  | startReturns (k : ℕ)
  /-- `stop` is called. -/
  | stop
  /-- The call number `k` of `stop` goes on with `interrupt_all`. -/
  | interrupt (k : ℕ)
  /-- The call number `k` of `stop` has joined its threads and returns. -/
  | stopReturns (k : ℕ)
  deriving DecidableEq, Repr

/-- What an event does to the stats. -/
inductive StatEffect
  | none
  /-- The stat is pushed to `latencyStatQ_`. -/
  | accepts (stat : LatencyStat.Ptr)
  /-- The stat is popped from `latencyStatQ_`. -/
  | takes
  /-- `addStat` is called with the stat. -/
  | adds (stat : LatencyStat.Ptr)
  deriving DecidableEq, Repr

/-- The kind of event that has an effect. -/
def StatEffect.IsOf (e : ManagerEvent) : StatEffect → Prop
  | .none => True
  | .accepts _ => ∃ k woken, e = .push k woken
  | .takes => ∃ i, e = .take i
  | .adds _ => ∃ i, e = .addStat i

namespace Consumer

/-- A thread just created. -/
def new : Consumer := ⟨.loopTest, false⟩

/-- `while (isAlive_)`. -/
def loopTest (c : Consumer) (isAlive_ : Bool) : Consumer :=
  { c with pc := if isAlive_ then .queueTest else .finished }

/-- The section that `latencyStatQMutex_` protects, from taking the mutex to
releasing it or to blocking in `wait`: the thread and the queue afterwards, and
whether a stat was popped. -/
def takeSection (c : Consumer) (latencyStatQ_ : List LatencyStat.Ptr) :
    Consumer × List LatencyStat.Ptr × StatEffect :=
  if c.pc = .notified ∧ c.interruptRequested = true then
    -- the interruption point at the end of `wait`
    ({ c with pc := .finished }, latencyStatQ_, .none)
  else
    match latencyStatQ_ with
    | [] =>
      -- `wait` is entered, which is an interruption point too
      ({ c with pc := if c.interruptRequested then .finished else .waiting }, [], .none)
    | latencyStat :: rest => ({ c with pc := .holding latencyStat }, rest, .takes)

/-- The locked section: an interrupted thread ends, a thread that finds nothing waits, and
any other pops the front. -/
theorem takeSection_eq (c : Consumer) (q : List LatencyStat.Ptr) :
    (c.interruptRequested = true ∧ c.takeSection q = ({ c with pc := .finished }, q, .none))
      ∨ (q = [] ∧ c.interruptRequested = false
        ∧ c.takeSection q = ({ c with pc := .waiting }, [], .none))
      ∨ ∃ latencyStat rest, q = latencyStat :: rest
        ∧ c.takeSection q = ({ c with pc := .holding latencyStat }, rest, .takes) := by
  unfold takeSection
  split_ifs with hint hreq
  · exact Or.inl ⟨hint.2, rfl⟩
  · cases q with
    | nil => exact Or.inl ⟨hreq, rfl⟩
    | cons latencyStat rest => exact Or.inr (Or.inr ⟨latencyStat, rest, rfl, rfl⟩)
  · cases q with
    | nil => exact Or.inr (Or.inl ⟨rfl, Bool.eq_false_iff.mpr hreq, rfl⟩)
    | cons latencyStat rest => exact Or.inr (Or.inr ⟨latencyStat, rest, rfl, rfl⟩)

/-- The thread returns from the blocking part of `wait`. -/
def wake (c : Consumer) : Consumer := { c with pc := .notified }

/-- `thread::interrupt`, which also wakes a thread that waits. -/
def interrupt (c : Consumer) : Consumer :=
  { pc := if c.pc = .waiting then .notified else c.pc, interruptRequested := true }

/-- The stat a thread has popped and not added yet. -/
def held (c : Consumer) : Option LatencyStat.Ptr :=
  match c.pc with
  | .holding latencyStat => some latencyStat
  | _ => none

/-- The same as a multiset. -/
def hand (c : Consumer) : Multiset LatencyStat.Ptr := c.held.elim 0 ({·})

end Consumer

/-! ## The events -/

namespace LatencyStatManager

/-- `latencyStatQCondVar_.notify_one()`: one of the waiting threads is woken, if
there is one. -/
def notifyOne (consumers : List Consumer) : Option ℕ → Option (List Consumer)
  | none => if consumers.any fun c => c.pc = .waiting then none else some consumers
  | some i =>
    match consumers[i]? with
    | some c => if c.pc = .waiting then some (consumers.set i c.wake) else none
    | none => none

/-- `onLatencyUpdate`, up to the mutex of the queue. -/
def onLatencyUpdate (m : LatencyStatManager) (stat : LatencyStat) : LatencyStatManager :=
  if m.isAlive_ then
    { m with updates := m.updates ++ [⟨m.allocated, stat⟩], allocated := m.allocated + 1 }
  else m

/-- The thread number `i` is now `c`. -/
def setConsumer (m : LatencyStatManager) (i : ℕ) (c : Consumer) : LatencyStatManager :=
  { m with consumerThreadGroup_ := m.consumerThreadGroup_.set i c }

/-- One event, and what it does to the stats; `none` if it is not enabled. -/
def step (m : LatencyStatManager) : ManagerEvent → Option (LatencyStatManager × StatEffect)
  | .setReqHandler => some ({ m with reqHandlerSet := true }, .none)
  | .onLatencyUpdate stat => some (m.onLatencyUpdate stat, .none)
  | .push k woken =>
    match m.updates[k]? with
    | some latencyStat =>
      (notifyOne m.consumerThreadGroup_ woken).map fun consumers =>
        ({ m with
            latencyStatQ_ := m.latencyStatQ_ ++ [latencyStat]
            updates := m.updates.eraseIdx k
            consumerThreadGroup_ := consumers },
          .accepts latencyStat)
    | none => none
  | .loopTest i =>
    match m.consumerThreadGroup_[i]? with
    | some c =>
      if c.pc = .loopTest then some (m.setConsumer i (c.loopTest m.isAlive_), .none) else none
    | none => none
  | .take i =>
    match m.consumerThreadGroup_[i]? with
    | some c =>
      if c.pc = .queueTest ∨ c.pc = .notified then
        let taken := c.takeSection m.latencyStatQ_
        some ({ m.setConsumer i taken.1 with latencyStatQ_ := taken.2.1 }, taken.2.2)
      else none
    | none => none
  | .wake i =>
    match m.consumerThreadGroup_[i]? with
    | some c => if c.pc = .waiting then some (m.setConsumer i c.wake, .none) else none
    | none => none
  | .addStat i =>
    match m.consumerThreadGroup_[i]? with
    | some c =>
      match c.pc with
      | .holding latencyStat =>
        some (m.setConsumer i { c with pc := .loopTest }, .adds latencyStat)
      | _ => none
    | none => none
  | .start =>
    some ({ m with isAlive_ := true, starts := m.starts ++ [m.numOfConsumerThreads_] }, .none)
  | .createThread k =>
    match m.starts[k]? with
    | some (n + 1) =>
      some ({ m with
          consumerThreadGroup_ := m.consumerThreadGroup_ ++ [Consumer.new]
          starts := m.starts.set k n }, .none)
    | _ => none
  | .startReturns k =>
    if m.starts[k]? = some 0 then some ({ m with starts := m.starts.eraseIdx k }, .none) else none
  | .stop => some ({ m with isAlive_ := false, stops := m.stops ++ [.interrupting 0] }, .none)
  | .interrupt k =>
    match m.stops[k]? with
    | some (.interrupting i) =>
      match m.consumerThreadGroup_[i]? with
      | some c =>
        some ({ m.setConsumer i c.interrupt with stops := m.stops.set k (.interrupting (i + 1)) },
          .none)
      | none =>
        some ({ m with stops := m.stops.set k (.joining m.consumerThreadGroup_.length) }, .none)
    | _ => none
  | .stopReturns k =>
    match m.stops[k]? with
    | some (.joining n) =>
      if (m.consumerThreadGroup_.take n).all fun c => c.pc = .finished then
        some ({ m with stops := m.stops.eraseIdx k }, .none)
      else none
    | _ => none

section Inversion

variable {m m' : LatencyStatManager} {eff : StatEffect} {i k : ℕ}

/-- A push moves the stat of a call under way to the back of the queue and notifies. -/
theorem step_push {woken : Option ℕ} (hstep : m.step (.push k woken) = some (m', eff)) :
    ∃ latencyStat consumers, m.updates[k]? = some latencyStat
      ∧ notifyOne m.consumerThreadGroup_ woken = some consumers
      ∧ m' = { m with
          latencyStatQ_ := m.latencyStatQ_ ++ [latencyStat]
          updates := m.updates.eraseIdx k
          consumerThreadGroup_ := consumers }
      ∧ eff = .accepts latencyStat := by
  simp only [step] at hstep
  split at hstep
  · rename_i latencyStat hk
    obtain ⟨consumers, hnotify, heq⟩ := Option.map_eq_some_iff.mp hstep
    cases heq
    exact ⟨latencyStat, consumers, hk, hnotify, rfl, rfl⟩
  · cases hstep

/-- The test of the loop is made by a consumer that has come to it. -/
theorem step_loopTest (hstep : m.step (.loopTest i) = some (m', eff)) :
    ∃ c, m.consumerThreadGroup_[i]? = some c ∧ c.pc = .loopTest
      ∧ m' = m.setConsumer i (c.loopTest m.isAlive_) ∧ eff = .none := by
  simp only [step] at hstep
  split at hstep
  · rename_i c hc
    split_ifs at hstep with hpc
    cases hstep
    exact ⟨c, hc, hpc, rfl, rfl⟩
  · cases hstep

/-- The locked section is run by a consumer that tests the queue or was woken. -/
theorem step_take (hstep : m.step (.take i) = some (m', eff)) :
    ∃ c, m.consumerThreadGroup_[i]? = some c ∧ (c.pc = .queueTest ∨ c.pc = .notified)
      ∧ m' = { m.setConsumer i (c.takeSection m.latencyStatQ_).1 with
          latencyStatQ_ := (c.takeSection m.latencyStatQ_).2.1 }
      ∧ eff = (c.takeSection m.latencyStatQ_).2.2 := by
  simp only [step] at hstep
  split at hstep
  · rename_i c hc
    split_ifs at hstep with hpc
    cases hstep
    exact ⟨c, hc, hpc, rfl, rfl⟩
  · cases hstep

/-- Only a consumer that waits is woken without a reason. -/
theorem step_wake (hstep : m.step (.wake i) = some (m', eff)) :
    ∃ c, m.consumerThreadGroup_[i]? = some c ∧ c.pc = .waiting
      ∧ m' = m.setConsumer i c.wake ∧ eff = .none := by
  simp only [step] at hstep
  split at hstep
  · rename_i c hc
    split_ifs at hstep with hpc
    cases hstep
    exact ⟨c, hc, hpc, rfl, rfl⟩
  · cases hstep

/-- A consumer hands on the stat it holds, and goes back to its loop. -/
theorem step_addStat (hstep : m.step (.addStat i) = some (m', eff)) :
    ∃ c latencyStat, m.consumerThreadGroup_[i]? = some c ∧ c.pc = .holding latencyStat
      ∧ m' = m.setConsumer i { c with pc := .loopTest } ∧ eff = .adds latencyStat := by
  simp only [step] at hstep
  split at hstep
  · rename_i c hc
    split at hstep
    · rename_i latencyStat hpc
      cases hstep
      exact ⟨c, latencyStat, hc, hpc, rfl, rfl⟩
    · cases hstep
  · cases hstep

/-- A call of `start` makes one of the threads it still has to make. -/
theorem step_createThread (hstep : m.step (.createThread k) = some (m', eff)) :
    ∃ n, m.starts[k]? = some (n + 1)
      ∧ m' = { m with
          consumerThreadGroup_ := m.consumerThreadGroup_ ++ [Consumer.new]
          starts := m.starts.set k n }
      ∧ eff = .none := by
  simp only [step] at hstep
  split at hstep
  · rename_i n hk
    cases hstep
    exact ⟨n, hk, rfl, rfl⟩
  · cases hstep

/-- It returns when it has made all of them. -/
theorem step_startReturns (hstep : m.step (.startReturns k) = some (m', eff)) :
    m.starts[k]? = some 0 ∧ m' = { m with starts := m.starts.eraseIdx k } ∧ eff = .none := by
  simp only [step] at hstep
  split_ifs at hstep with hk
  cases hstep
  exact ⟨hk, rfl, rfl⟩

/-- `interrupt_all` reaches the next thread, or goes on to `join_all` after the last. -/
theorem step_interrupt (hstep : m.step (.interrupt k) = some (m', eff)) :
    ∃ i, m.stops[k]? = some (.interrupting i) ∧ eff = .none
      ∧ ((∃ c, m.consumerThreadGroup_[i]? = some c
          ∧ m' = { m.setConsumer i c.interrupt with
              stops := m.stops.set k (.interrupting (i + 1)) })
        ∨ (m.consumerThreadGroup_[i]? = none
          ∧ m' = { m with
              stops := m.stops.set k (.joining m.consumerThreadGroup_.length) })) := by
  simp only [step] at hstep
  split at hstep
  · rename_i i hk
    split at hstep
    · rename_i c hc
      cases hstep
      exact ⟨i, hk, rfl, Or.inl ⟨c, hc, rfl⟩⟩
    · rename_i hnone
      cases hstep
      exact ⟨i, hk, rfl, Or.inr ⟨hnone, rfl⟩⟩
  · cases hstep

/-- `join_all` returns when the threads it has counted have ended. -/
theorem step_stopReturns (hstep : m.step (.stopReturns k) = some (m', eff)) :
    ∃ n, m.stops[k]? = some (.joining n)
      ∧ (∀ c ∈ m.consumerThreadGroup_.take n, c.pc = .finished)
      ∧ m' = { m with stops := m.stops.eraseIdx k } ∧ eff = .none := by
  simp only [step] at hstep
  split at hstep
  · rename_i n hk
    split_ifs at hstep with hall
    cases hstep
    refine ⟨n, hk, ?_, rfl, rfl⟩
    intro c hc
    exact of_decide_eq_true (List.all_eq_true.mp hall c hc)
  · cases hstep

/-- Each effect is that of one kind of event. -/
theorem step_effect {e : ManagerEvent} (hstep : m.step e = some (m', eff)) : eff.IsOf e := by
  cases e with
  | setReqHandler =>
    cases hstep
    trivial
  | onLatencyUpdate stat =>
    cases hstep
    trivial
  | push k woken =>
    obtain ⟨latencyStat, consumers, -, -, -, rfl⟩ := step_push hstep
    exact ⟨k, woken, rfl⟩
  | loopTest i =>
    obtain ⟨c, -, -, -, rfl⟩ := step_loopTest hstep
    trivial
  | take i =>
    obtain ⟨c, -, -, -, rfl⟩ := step_take hstep
    rcases c.takeSection_eq m.latencyStatQ_ with ⟨-, heq⟩ | ⟨-, -, heq⟩ | ⟨stat, rest, -, heq⟩
    · rw [heq]
      exact trivial
    · rw [heq]
      exact trivial
    · rw [heq]
      exact ⟨i, rfl⟩
  | wake i =>
    obtain ⟨c, -, -, -, rfl⟩ := step_wake hstep
    trivial
  | addStat i =>
    obtain ⟨c, latencyStat, -, -, -, rfl⟩ := step_addStat hstep
    exact ⟨i, rfl⟩
  | start =>
    cases hstep
    trivial
  | createThread k =>
    obtain ⟨n, -, -, rfl⟩ := step_createThread hstep
    trivial
  | startReturns k =>
    obtain ⟨-, -, rfl⟩ := step_startReturns hstep
    trivial
  | stop =>
    cases hstep
    trivial
  | interrupt k =>
    obtain ⟨i, -, rfl, -⟩ := step_interrupt hstep
    trivial
  | stopReturns k =>
    obtain ⟨n, -, -, -, rfl⟩ := step_stopReturns hstep
    trivial

/-- The number of threads stays, a handler that is set stays, and only a call of
`onLatencyUpdate` brings a new update. -/
theorem step_keeps {e : ManagerEvent} (hstep : m.step e = some (m', eff)) :
    m'.numOfConsumerThreads_ = m.numOfConsumerThreads_
      ∧ (m.reqHandlerSet = true → m'.reqHandlerSet = true)
      ∧ (m'.updates ⊆ m.updates ∨ ∃ stat, e = .onLatencyUpdate stat) := by
  have hkept : m.updates ⊆ m.updates := List.Subset.refl _
  cases e with
  | setReqHandler =>
    cases hstep
    exact ⟨rfl, fun _ => rfl, Or.inl hkept⟩
  | onLatencyUpdate stat =>
    cases hstep
    unfold onLatencyUpdate
    split_ifs <;> exact ⟨rfl, id, Or.inr ⟨stat, rfl⟩⟩
  | push k woken =>
    obtain ⟨stat, consumers, -, -, rfl, -⟩ := step_push hstep
    exact ⟨rfl, id, Or.inl List.eraseIdx_subset⟩
  | loopTest i =>
    obtain ⟨c, -, -, rfl, -⟩ := step_loopTest hstep
    exact ⟨rfl, id, Or.inl hkept⟩
  | take i =>
    obtain ⟨c, -, -, rfl, -⟩ := step_take hstep
    exact ⟨rfl, id, Or.inl hkept⟩
  | wake i =>
    obtain ⟨c, -, -, rfl, -⟩ := step_wake hstep
    exact ⟨rfl, id, Or.inl hkept⟩
  | addStat i =>
    obtain ⟨c, stat, -, -, rfl, -⟩ := step_addStat hstep
    exact ⟨rfl, id, Or.inl hkept⟩
  | start =>
    cases hstep
    exact ⟨rfl, id, Or.inl hkept⟩
  | createThread k =>
    obtain ⟨n, -, rfl, -⟩ := step_createThread hstep
    exact ⟨rfl, id, Or.inl hkept⟩
  | startReturns k =>
    obtain ⟨-, rfl, -⟩ := step_startReturns hstep
    exact ⟨rfl, id, Or.inl hkept⟩
  | stop =>
    cases hstep
    exact ⟨rfl, id, Or.inl hkept⟩
  | interrupt k =>
    obtain ⟨i, -, -, ⟨c, -, rfl⟩ | ⟨-, rfl⟩⟩ := step_interrupt hstep
    · exact ⟨rfl, id, Or.inl hkept⟩
    · exact ⟨rfl, id, Or.inl hkept⟩
  | stopReturns k =>
    obtain ⟨n, -, -, rfl, -⟩ := step_stopReturns hstep
    exact ⟨rfl, id, Or.inl hkept⟩

/-- Whom `notify_one` wakes. -/
theorem notifyOne_cases {consumers consumers' : List Consumer} {woken : Option ℕ}
    (h : notifyOne consumers woken = some consumers') :
    (consumers' = consumers ∧ ∀ c ∈ consumers, c.pc ≠ .waiting)
      ∨ ∃ i c, consumers[i]? = some c ∧ c.pc = .waiting ∧ consumers' = consumers.set i c.wake := by
  cases woken with
  | none =>
    simp only [notifyOne] at h
    split_ifs at h with hwaiting
    refine Or.inl ⟨(Option.some.inj h).symm, ?_⟩
    intro c hc hpc
    exact hwaiting (List.any_eq_true.mpr ⟨c, hc, decide_eq_true hpc⟩)
  | some i =>
    simp only [notifyOne] at h
    split at h
    · rename_i c hc
      split_ifs at h with hpc
      exact Or.inr ⟨i, c, hc, hpc, (Option.some.inj h).symm⟩
    · cases h

end Inversion

/-- A manager just constructed. -/
def new (consumerThreadCount : ℕ) : LatencyStatManager where
  numOfConsumerThreads_ := consumerThreadCount
  latencyStatQ_ := []
  isAlive_ := false
  reqHandlerSet := false
  consumerThreadGroup_ := []
  updates := []
  starts := []
  stops := []
  allocated := 0

/-- The stats that consumers hold between their pop and their `addStat`. -/
def inHand (m : LatencyStatManager) : Multiset LatencyStat.Ptr :=
  Tally.total Consumer.hand m.consumerThreadGroup_

end LatencyStatManager

/-- The stat that an event adds to the request handler. -/
def ManagerEvent.handsOver (m : LatencyStatManager) : ManagerEvent → Option LatencyStat.Ptr
  | .addStat i => m.consumerThreadGroup_[i]?.bind Consumer.held
  | _ => none

end Unichannel
