/-
# No wake-up is lost

A notification that finds nobody waiting is lost, and a consumer that was woken for a
stat may find it gone.  Still no stat is left lying while everybody sleeps: as long as
`interrupt_all` is not under way, a consumer that waits leaves no more stats in the queue
than there are consumers that do not wait (`no_lost_wakeup`).

A call of `stop` takes consumers out that may have been notified, so the consumers are
counted that nobody has interrupted; what they leave in the queue is bounded by
`WakeInv.bound`.  While `interrupt_all` is under way the bound may fail, and when it ends
nobody waits.
-/
import Unichannel.NullHandler

namespace Unichannel

open GuardedSystem

namespace Consumer

/-- The thread has not ended and does not wait. -/
def awake (c : Consumer) : Bool := c.pc ≠ .waiting ∧ c.pc ≠ .finished

/-- An awake thread that nobody has interrupted. -/
def willTest (c : Consumer) : Bool := c.awake ∧ c.interruptRequested = false

/-- A consumer that will test the queue is awake. -/
theorem awake_of_willTest {c : Consumer} (h : c.willTest = true) : c.awake = true :=
  (of_decide_eq_true h).1

end Consumer

/-! ## The invariant -/

/-- No call of `stop` is before the end of its `interrupt_all`. -/
def NotInterrupting (stops : List StopCall) : Prop := ∀ i, .interrupting i ∉ stops

/-- Some consumer waits. -/
def SomeWaiting (consumers : List Consumer) : Prop := ∃ c ∈ consumers, c.pc = .waiting

/-- The invariant behind the wake-ups, of the parts of a manager that it is about. -/
structure WakeInv (consumers : List Consumer) (latencyStatQ_ : List LatencyStat.Ptr)
    (isAlive_ : Bool) (stops : List StopCall) : Prop where
  /-- An interrupted thread does not wait. -/
  interrupted : ∀ c ∈ consumers, c.interruptRequested = true → c.pc ≠ .waiting
  /-- `interrupt_all` does not go past the threads. -/
  within : ∀ i, .interrupting i ∈ stops → i ≤ consumers.length
  /-- It has interrupted those it has reached. -/
  reached : ∀ i, .interrupting i ∈ stops → ∀ j < i, ∀ c, consumers[j]? = some c →
    c.interruptRequested = true
  /-- A stat in the queue has a consumer that will test the queue, if one waits. -/
  bound : NotInterrupting stops → SomeWaiting consumers →
    latencyStatQ_.length ≤ consumers.countP Consumer.willTest
  /-- In a stopped manager, threads that nobody has interrupted get no further. -/
  stopped : NotInterrupting stops → isAlive_ = false → ∀ c ∈ consumers,
    c.interruptRequested = false → c.pc = .loopTest ∨ c.pc = .finished

namespace WakeInv

variable {consumers : List Consumer} {q : List LatencyStat.Ptr} {alive : Bool}
  {stops : List StopCall} {i : ℕ} {c : Consumer}

/-- A thread that waits has not been interrupted. -/
theorem not_interrupted (h : WakeInv consumers q alive stops) (hc : c ∈ consumers)
    (hpc : c.pc = .waiting) : c.interruptRequested = false :=
  Bool.eq_false_iff.mpr fun hreq => h.interrupted c hc hreq hpc

/-- One thread moves to `pc`, and the queue is now `q'`; nobody is interrupted. -/
theorem move (h : WakeInv consumers q alive stops) (hc : consumers[i]? = some c) (pc : ConsumerPc)
    (q' : List LatencyStat.Ptr) (hwaiting : pc = .waiting → c.interruptRequested = false)
    (hbound : NotInterrupting stops → SomeWaiting (consumers.set i { c with pc := pc }) →
      q'.length ≤ (consumers.set i { c with pc := pc }).countP Consumer.willTest)
    (hstopped : NotInterrupting stops → alive = false → c.interruptRequested = false →
      pc = .loopTest ∨ pc = .finished) :
    WakeInv (consumers.set i { c with pc := pc }) q' alive stops where
  interrupted := by
    intro d hd hreq
    rcases List.mem_or_eq_of_mem_set hd with hd | rfl
    · exact h.interrupted d hd hreq
    · intro hpc
      rw [show c.interruptRequested = false from hwaiting hpc] at hreq
      cases hreq
  within := by
    intro k hk
    rw [List.length_set]
    exact h.within k hk
  reached := by
    intro k hk j hj d hd
    rw [List.getElem?_set] at hd
    split_ifs at hd with hij hlt
    · subst hij
      cases hd
      exact h.reached k hk i hj c hc
    · exact h.reached k hk j hj d hd
  bound := hbound
  stopped := by
    intro hnot halive d hd hreq
    rcases List.mem_or_eq_of_mem_set hd with hd | rfl
    · exact h.stopped hnot halive d hd hreq
    · exact hstopped hnot halive hreq

/-- A move that keeps somebody waiting was made while somebody waited. -/
theorem someWaiting_of_set {d : Consumer} (hd : d.pc ≠ .waiting)
    (hwaiting : SomeWaiting (consumers.set i d)) : SomeWaiting consumers := by
  obtain ⟨w, hw, hpc⟩ := hwaiting
  rcases List.mem_or_eq_of_mem_set hw with hw | rfl
  · exact ⟨w, hw, hpc⟩
  · exact absurd hpc hd

/-- A move between two places in front of the test of the queue, or behind it. -/
theorem moveAwake (h : WakeInv consumers q alive stops) (hc : consumers[i]? = some c)
    (pc : ConsumerPc) (hawake : c.awake = true)
    (hawake' : ({ c with pc := pc } : Consumer).awake = true) (q' : List LatencyStat.Ptr)
    (hq : q'.length ≤ q.length)
    (hstopped : NotInterrupting stops → alive = false → c.interruptRequested = false →
      pc = .loopTest ∨ pc = .finished) :
    WakeInv (consumers.set i { c with pc := pc }) q' alive stops := by
  have hpc : pc ≠ .waiting := (of_decide_eq_true hawake').1
  refine h.move hc pc q' (fun hw => absurd hw hpc) ?_ hstopped
  intro hnot hwaiting
  have hold := h.bound hnot (someWaiting_of_set hpc hwaiting)
  have hset := Tally.countP_set Consumer.willTest { c with pc := pc } hc
  have hsame : ({ c with pc := pc } : Consumer).willTest = c.willTest := by
    simp only [Consumer.willTest, hawake, hawake']
  rw [hsame] at hset
  omega

/-- A thread that waits is woken, for a stat that was pushed or for none. -/
theorem wakeUp (h : WakeInv consumers q alive stops) (hc : consumers[i]? = some c)
    (hpc : c.pc = .waiting) (q' : List LatencyStat.Ptr) (hq : q'.length ≤ q.length + 1) :
    WakeInv (consumers.set i c.wake) q' alive stops := by
  have hmem : c ∈ consumers := List.mem_of_getElem? hc
  have hreq := h.not_interrupted hmem hpc
  refine h.move hc .notified q' (fun hw => by cases hw) ?_ ?_
  · intro hnot _
    have hold := h.bound hnot ⟨c, hmem, hpc⟩
    have hset := Tally.countP_set Consumer.willTest c.wake hc
    have hasleep : c.willTest = false := by
      simp [Consumer.willTest, Consumer.awake, hpc]
    have hwoken : c.wake.willTest = true := by
      simp [Consumer.willTest, Consumer.awake, Consumer.wake, hreq]
    rw [hasleep, hwoken] at hset
    simp only [Bool.false_eq_true, if_false, if_true] at hset
    show q'.length ≤ (consumers.set i c.wake).countP Consumer.willTest
    omega
  · intro hnot halive hreq
    rcases h.stopped hnot halive c hmem hreq with hloop | hfinished
    · rw [hpc] at hloop
      cases hloop
    · rw [hpc] at hfinished
      cases hfinished

/-- A thread goes on or ends at the test of `isAlive_`. -/
theorem loopTest (h : WakeInv consumers q alive stops) (hc : consumers[i]? = some c)
    (hpc : c.pc = .loopTest) : WakeInv (consumers.set i (c.loopTest alive)) q alive stops := by
  cases halive : alive with
  | true =>
    rw [halive] at h
    refine h.moveAwake hc .queueTest ?_ rfl q le_rfl (fun _ hdead => by cases hdead)
    simp [Consumer.awake, hpc]
  | false =>
    rw [halive] at h
    refine h.move hc .finished q (fun hw => by cases hw) ?_ (fun _ _ _ => Or.inr rfl)
    -- in a stopped manager nobody waits
    intro hnot hwaiting
    obtain ⟨w, hw, hwpc⟩ := someWaiting_of_set (by simp) hwaiting
    rcases h.stopped hnot rfl w hw (h.not_interrupted hw hwpc) with hloop | hfinished
    · rw [hwpc] at hloop
      cases hloop
    · rw [hwpc] at hfinished
      cases hfinished

/-- The locked section: the thread ends, waits in front of an empty queue, or takes the
front. -/
theorem takeSection (h : WakeInv consumers q alive stops) (hc : consumers[i]? = some c)
    (hpc : c.pc = .queueTest ∨ c.pc = .notified) :
    WakeInv (consumers.set i (c.takeSection q).1) (c.takeSection q).2.1 alive stops := by
  have hawake : c.awake = true := by
    rcases hpc with hpc | hpc <;> simp [Consumer.awake, hpc]
  have hstopped : NotInterrupting stops → alive = false → c.interruptRequested = false → False := by
    intro hnot halive hreq
    rcases h.stopped hnot halive c (List.mem_of_getElem? hc) hreq with hloop | hfinished
    · rcases hpc with hpc | hpc <;> rw [hpc] at hloop <;> cases hloop
    · rcases hpc with hpc | hpc <;> rw [hpc] at hfinished <;> cases hfinished
  rcases c.takeSection_eq q with ⟨hreq, heq⟩ | ⟨-, hreq, heq⟩ | ⟨stat, rest, hq, heq⟩
  · rw [heq]
    refine h.move hc .finished q (fun hw => by cases hw) ?_ (fun _ _ _ => Or.inr rfl)
    intro hnot hwaiting
    have hold := h.bound hnot (someWaiting_of_set (by simp) hwaiting)
    have hset := Tally.countP_set Consumer.willTest { c with pc := .finished } hc
    -- an interrupted thread does not count
    have hno : c.willTest = false := by
      simp [Consumer.willTest, hreq]
    have hno' : ({ c with pc := .finished } : Consumer).willTest = false := by
      simp [Consumer.willTest, hreq]
    rw [hno, hno'] at hset
    show q.length ≤ (consumers.set i { c with pc := .finished }).countP Consumer.willTest
    omega
  · rw [heq]
    exact h.move hc .waiting [] (fun _ => hreq) (fun _ _ => Nat.zero_le _)
      fun hnot halive hreq => (hstopped hnot halive hreq).elim
  · rw [heq]
    refine h.moveAwake hc (.holding stat) hawake rfl rest ?_ fun hnot halive hreq =>
      (hstopped hnot halive hreq).elim
    rw [hq, List.length_cons]
    omega

/-- A new thread. -/
theorem createThread (h : WakeInv consumers q alive stops) :
    WakeInv (consumers ++ [Consumer.new]) q alive stops where
  interrupted := forall_mem_concat h.interrupted fun hreq => by cases hreq
  within := by
    intro k hk
    have hle := h.within k hk
    rw [List.length_append]
    omega
  reached := by
    intro k hk j hj d hd
    -- the new thread is behind those that are reached
    have hle := h.within k hk
    rw [List.getElem?_append_left (by omega)] at hd
    exact h.reached k hk j hj d hd
  bound := by
    rintro hnot ⟨w, hw, hpc⟩
    rcases List.mem_append.mp hw with hw | hw
    · have hold := h.bound hnot ⟨w, hw, hpc⟩
      rw [List.countP_append]
      omega
    · rw [List.mem_singleton.mp hw] at hpc
      cases hpc
  stopped := fun hnot halive =>
    forall_mem_concat (h.stopped hnot halive) fun _ => Or.inl rfl

/-- While `interrupt_all` is under way, only what it has done counts. -/
theorem of_interrupting (hinterrupted : ∀ c ∈ consumers, c.interruptRequested = true →
    c.pc ≠ .waiting) (hwithin : ∀ i, .interrupting i ∈ stops → i ≤ consumers.length)
    (hreached : ∀ i, .interrupting i ∈ stops → ∀ j < i, ∀ c, consumers[j]? = some c →
      c.interruptRequested = true) (hsome : .interrupting i ∈ stops) :
    WakeInv consumers q alive stops where
  interrupted := hinterrupted
  within := hwithin
  reached := hreached
  bound := fun hnot => absurd hsome (hnot i)
  stopped := fun hnot => absurd hsome (hnot i)

/-- `stop` is called. -/
theorem stop (h : WakeInv consumers q alive stops) (alive' : Bool) :
    WakeInv consumers q alive' (stops ++ [.interrupting 0]) := by
  refine of_interrupting (i := 0) h.interrupted ?_ ?_ (by simp)
  · intro i hi
    rcases List.mem_append.mp hi with hi | hi
    · exact h.within i hi
    · cases List.mem_singleton.mp hi
      exact Nat.zero_le _
  · intro i hi j hj
    rcases List.mem_append.mp hi with hi | hi
    · exact h.reached i hi j hj
    · cases List.mem_singleton.mp hi
      exact absurd hj (Nat.not_lt_zero j)

/-- `interrupt_all` reaches one more thread. -/
theorem interrupt (h : WakeInv consumers q alive stops) {k : ℕ}
    (hk : stops[k]? = some (.interrupting i)) (hc : consumers[i]? = some c) :
    WakeInv (consumers.set i c.interrupt) q alive (stops.set k (.interrupting (i + 1))) := by
  have hlt := (List.getElem?_eq_some_iff.mp hc).1
  have hklt := (List.getElem?_eq_some_iff.mp hk).1
  refine of_interrupting (i := i + 1) ?_ ?_ ?_ (List.mem_set hklt _)
  · intro d hd hreq
    rcases List.mem_or_eq_of_mem_set hd with hd | rfl
    · exact h.interrupted d hd hreq
    · show (if c.pc = .waiting then ConsumerPc.notified else c.pc) ≠ .waiting
      split_ifs with hpc
      · simp
      · exact hpc
  · intro i' hi'
    rw [List.length_set]
    rcases List.mem_or_eq_of_mem_set hi' with hi' | heq
    · exact h.within i' hi'
    · cases heq
      omega
  · intro i' hi' j hj d hd
    rw [List.getElem?_set] at hd
    split_ifs at hd with hij
    · cases hd
      rfl
    · rcases List.mem_or_eq_of_mem_set hi' with hi' | heq
      · exact h.reached i' hi' j hj d hd
      · cases heq
        exact h.reached i (List.mem_of_getElem? hk) j (by omega) d hd

/-- `interrupt_all` is done: it has reached every thread, so nobody waits. -/
theorem interruptDone (h : WakeInv consumers q alive stops) {k n : ℕ}
    (hk : stops[k]? = some (.interrupting i)) (hc : consumers[i]? = none) :
    WakeInv consumers q alive (stops.set k (.joining n)) := by
  have hall : ∀ c ∈ consumers, c.interruptRequested = true := by
    intro d hd
    obtain ⟨j, hj, rfl⟩ := List.mem_iff_getElem.mp hd
    have hle := List.getElem?_eq_none_iff.mp hc
    exact h.reached i (List.mem_of_getElem? hk) j (by omega) _ (List.getElem?_eq_getElem hj)
  have hold : ∀ i', .interrupting i' ∈ stops.set k (.joining n) → .interrupting i' ∈ stops := by
    intro i' hi'
    rcases List.mem_or_eq_of_mem_set hi' with hi' | heq
    · exact hi'
    · cases heq
  refine ⟨h.interrupted, fun i' hi' => h.within i' (hold i' hi'),
    fun i' hi' => h.reached i' (hold i' hi'), ?_, ?_⟩
  · rintro - ⟨w, hw, hpc⟩
    exact absurd hpc (h.interrupted w hw (hall w hw))
  · intro _ _ d hd hreq
    rw [hall d hd] at hreq
    cases hreq

/-- A call of `stop` that has joined its threads is forgotten. -/
theorem stopReturns (h : WakeInv consumers q alive stops) {k n : ℕ}
    (hk : stops[k]? = some (.joining n)) : WakeInv consumers q alive (stops.eraseIdx k) := by
  have hold : ∀ i, .interrupting i ∈ stops.eraseIdx k → .interrupting i ∈ stops :=
    fun i hi => List.mem_of_mem_eraseIdx hi
  have hnot : NotInterrupting (stops.eraseIdx k) → NotInterrupting stops := by
    intro hnot i hi
    refine hnot i (List.mem_eraseIdx_iff_getElem?.mpr ?_)
    obtain ⟨j, hj⟩ := List.mem_iff_getElem?.mp hi
    refine ⟨j, ?_, hj⟩
    rintro rfl
    rw [hk] at hj
    cases hj
  exact ⟨h.interrupted, fun i hi => h.within i (hold i hi), fun i hi => h.reached i (hold i hi),
    fun h' => h.bound (hnot h'), fun h' => h.stopped (hnot h')⟩

end WakeInv

namespace LatencyStatManager

variable {m m' : LatencyStatManager} {e : ManagerEvent} {eff : StatEffect}

/-- The invariant of a manager. -/
def WakesUp (m : LatencyStatManager) : Prop :=
  WakeInv m.consumerThreadGroup_ m.latencyStatQ_ m.isAlive_ m.stops

/-- **Step lemma.** -/
theorem wakesUp_step (h : WakesUp m) (hstep : m.step e = some (m', eff)) : WakesUp m' := by
  cases e with
  | setReqHandler =>
    cases hstep
    exact h
  | onLatencyUpdate stat =>
    cases hstep
    unfold onLatencyUpdate
    split_ifs <;> exact h
  | push k woken =>
    obtain ⟨stat, consumers, -, hnotify, rfl, -⟩ := step_push hstep
    rcases notifyOne_cases hnotify with ⟨rfl, hno⟩ | ⟨i, c, hc, hpc, rfl⟩
    · exact ⟨h.interrupted, h.within, h.reached, fun _ ⟨w, hw, hpc⟩ => absurd hpc (hno w hw),
        h.stopped⟩
    · exact h.wakeUp hc hpc _ (by simp)
  | loopTest i =>
    obtain ⟨c, hc, hpc, rfl, -⟩ := step_loopTest hstep
    exact h.loopTest hc hpc
  | take i =>
    obtain ⟨c, hc, hpc, rfl, -⟩ := step_take hstep
    exact h.takeSection hc hpc
  | wake i =>
    obtain ⟨c, hc, hpc, rfl, -⟩ := step_wake hstep
    exact h.wakeUp hc hpc _ (Nat.le_succ _)
  | addStat i =>
    obtain ⟨c, stat, hc, hpc, rfl, -⟩ := step_addStat hstep
    exact h.moveAwake hc .loopTest (by simp [Consumer.awake, hpc]) rfl _ le_rfl
      fun _ _ _ => Or.inl rfl
  | start =>
    cases hstep
    exact ⟨h.interrupted, h.within, h.reached, h.bound, fun _ halive => by cases halive⟩
  | createThread k =>
    obtain ⟨n, -, rfl, -⟩ := step_createThread hstep
    exact h.createThread
  | startReturns k =>
    obtain ⟨-, rfl, -⟩ := step_startReturns hstep
    exact h
  | stop =>
    cases hstep
    exact h.stop false
  | interrupt k =>
    obtain ⟨i, hk, -, ⟨c, hc, rfl⟩ | ⟨hnone, rfl⟩⟩ := step_interrupt hstep
    · exact h.interrupt hk hc
    · exact h.interruptDone hk hnone
  | stopReturns k =>
    obtain ⟨n, hk, -, rfl, -⟩ := step_stopReturns hstep
    exact h.stopReturns hk

end LatencyStatManager

/-! ## A started manager has consumers -/

/-- Some thread has neither ended nor been interrupted. -/
def SomeoneStays (consumers : List Consumer) : Prop :=
  ∃ c ∈ consumers, c.interruptRequested = false ∧ c.pc ≠ .finished

/-- A move that does not end a thread leaves someone. -/
theorem SomeoneStays.set {consumers : List Consumer} (h : SomeoneStays consumers) {i : ℕ}
    {c : Consumer} (hc : consumers[i]? = some c) {d : Consumer}
    (hd : c.interruptRequested = false → d.interruptRequested = false ∧ d.pc ≠ .finished) :
    SomeoneStays (consumers.set i d) := by
  obtain ⟨w, hw, hreq, hpc⟩ := h
  obtain ⟨j, hj⟩ := List.mem_iff_getElem?.mp hw
  by_cases hij : i = j
  · subst hij
    have hcw : c = w := Option.some.inj (hc.symm.trans hj)
    subst hcw
    exact ⟨d, List.mem_set (List.getElem?_eq_some_iff.mp hc).1 d, hd hreq⟩
  · refine ⟨w, List.mem_of_getElem? (i := j) ?_, hreq, hpc⟩
    rw [List.getElem?_set_ne hij]
    exact hj

namespace LatencyStatManager

variable {m m' : LatencyStatManager} {e : ManagerEvent} {eff : StatEffect}

/-- In a manager that is alive no call of `stop` is under way, and some consumer stays or
is still to be created. -/
structure Manned (m : LatencyStatManager) : Prop where
  threads : 0 < m.numOfConsumerThreads_
  stops_eq_nil : m.isAlive_ = true → m.stops = []
  someone : m.isAlive_ = true →
    SomeoneStays m.consumerThreadGroup_ ∨ ∃ left ∈ m.starts, 0 < left

/-- **Step lemma**, where `start` is called while no call of `stop` is under way. -/
theorem manned_step (h : Manned m) (hstart : e = .start → m.stops = [])
    (hstep : m.step e = some (m', eff)) : Manned m' := by
  -- a thread that moves, in a manager that stays as it is otherwise
  have hmove : ∀ {i : ℕ} {c : Consumer} (d : Consumer) (q : List LatencyStat.Ptr),
      m.consumerThreadGroup_[i]? = some c →
      (m.isAlive_ = true → c.interruptRequested = false →
        d.interruptRequested = false ∧ d.pc ≠ .finished) →
      Manned { m.setConsumer i d with latencyStatQ_ := q } := by
    intro i c d q hc hd
    exact ⟨h.threads, h.stops_eq_nil, fun halive =>
      (h.someone halive).imp_left fun hstays => hstays.set hc (hd halive)⟩
  have hbusy : ∀ {k : ℕ} {x : StopCall}, m.stops[k]? = some x → m.isAlive_ ≠ true := by
    intro k x hk halive
    rw [h.stops_eq_nil halive] at hk
    cases hk
  cases e with
  | setReqHandler =>
    cases hstep
    exact ⟨h.threads, h.stops_eq_nil, h.someone⟩
  | onLatencyUpdate stat =>
    cases hstep
    unfold onLatencyUpdate
    split_ifs <;> exact ⟨h.threads, h.stops_eq_nil, h.someone⟩
  | push k woken =>
    obtain ⟨stat, consumers, -, hnotify, rfl, -⟩ := step_push hstep
    refine ⟨h.threads, h.stops_eq_nil, fun halive => (h.someone halive).imp_left fun hstays => ?_⟩
    rcases notifyOne_cases hnotify with ⟨rfl, -⟩ | ⟨i, c, hc, -, rfl⟩
    · exact hstays
    · exact hstays.set hc fun hreq => ⟨hreq, by simp [Consumer.wake]⟩
  | loopTest i =>
    obtain ⟨c, hc, -, rfl, -⟩ := step_loopTest hstep
    exact hmove _ m.latencyStatQ_ hc fun halive hreq =>
      ⟨hreq, by simp [Consumer.loopTest, halive]⟩
  | take i =>
    obtain ⟨c, hc, -, rfl, -⟩ := step_take hstep
    refine hmove _ _ hc fun _ hreq => ?_
    rcases c.takeSection_eq m.latencyStatQ_ with ⟨hreq', -⟩ | ⟨-, -, heq⟩ | ⟨stat, rest, -, heq⟩
    · rw [hreq] at hreq'
      cases hreq'
    · rw [heq]
      exact ⟨hreq, by simp⟩
    · rw [heq]
      exact ⟨hreq, by simp⟩
  | wake i =>
    obtain ⟨c, hc, -, rfl, -⟩ := step_wake hstep
    exact hmove _ m.latencyStatQ_ hc fun _ hreq => ⟨hreq, by simp [Consumer.wake]⟩
  | addStat i =>
    obtain ⟨c, stat, hc, -, rfl, -⟩ := step_addStat hstep
    exact hmove _ m.latencyStatQ_ hc fun _ hreq => ⟨hreq, by simp⟩
  | start =>
    cases hstep
    exact ⟨h.threads, fun _ => hstart rfl, fun _ => Or.inr ⟨_, by simp, h.threads⟩⟩
  | createThread k =>
    obtain ⟨n, -, rfl, -⟩ := step_createThread hstep
    exact ⟨h.threads, h.stops_eq_nil, fun _ => Or.inl ⟨.new, by simp, rfl, by simp [Consumer.new]⟩⟩
  | startReturns k =>
    obtain ⟨hk, rfl, -⟩ := step_startReturns hstep
    refine ⟨h.threads, h.stops_eq_nil, fun halive => (h.someone halive).imp_right ?_⟩
    rintro ⟨left, hleft, hpos⟩
    obtain ⟨j, hj⟩ := List.mem_iff_getElem?.mp hleft
    refine ⟨left, List.mem_eraseIdx_iff_getElem?.mpr ⟨j, ?_, hj⟩, hpos⟩
    rintro rfl
    rw [hk] at hj
    cases hj
    exact absurd hpos (Nat.lt_irrefl 0)
  | stop =>
    cases hstep
    exact ⟨h.threads, fun halive => (Bool.false_ne_true halive).elim,
      fun halive => (Bool.false_ne_true halive).elim⟩
  | interrupt k =>
    obtain ⟨i, hk, -, ⟨c, -, rfl⟩ | ⟨-, rfl⟩⟩ := step_interrupt hstep
    · exact ⟨h.threads, fun halive => (hbusy hk halive).elim, fun halive => (hbusy hk halive).elim⟩
    · exact ⟨h.threads, fun halive => (hbusy hk halive).elim, fun halive => (hbusy hk halive).elim⟩
  | stopReturns k =>
    obtain ⟨n, hk, -, rfl, -⟩ := step_stopReturns hstep
    exact ⟨h.threads, fun halive => (hbusy hk halive).elim, fun halive => (hbusy hk halive).elim⟩

end LatencyStatManager

/-! ## Wake-ups -/

/-- A call of `start`. -/
def PipelineEvent.isStart : PipelineEvent → Bool
  | .manager .start => true
  | _ => false

/-- `start` is called while no call of `stop` is under way. -/
def StartsApart (s : StatPipeline) (e : PipelineEvent) : Prop :=
  e.isStart = true → s.manager.stops = []

instance : DecidableRel StartsApart := fun s e =>
  inferInstanceAs (Decidable (e.isStart = true → s.manager.stops = []))

namespace StatPipeline

variable {n : ℕ} {docRoot : Bytes} {s : StatPipeline} {es : List PipelineEvent}

theorem wakesUp_run {P : StatPipeline → PipelineEvent → Prop}
    (h : Runs step P (initial n docRoot) es s) : s.manager.WakesUp := by
  refine manager_run h ?_ fun _ _ _ _ hm _ hstep => LatencyStatManager.wakesUp_step hm hstep
  refine ⟨?_, ?_, ?_, ?_, ?_⟩
  · exact fun c hc => absurd hc List.not_mem_nil
  · exact fun i hi => absurd hi List.not_mem_nil
  · exact fun i hi => absurd hi List.not_mem_nil
  · exact fun _ _ => le_rfl
  · exact fun _ _ c hc => absurd hc List.not_mem_nil

/-- In every run in which `start` is not called during `stop`. -/
theorem manned_run (hn : 0 < n) (h : Runs step StartsApart (initial n docRoot) es s) :
    s.manager.Manned := by
  refine manager_run h ⟨hn, fun _ => rfl, fun halive => (Bool.false_ne_true halive).elim⟩ ?_
  intro s e m eff hm hP hstep
  refine LatencyStatManager.manned_step hm ?_ hstep
  rintro rfl
  exact hP rfl

theorem length_le_awake (h : Runs step anyStep (initial n docRoot) es s)
    (hnot : NotInterrupting s.manager.stops)
    (hwaiting : SomeWaiting s.manager.consumerThreadGroup_) :
    s.manager.latencyStatQ_.length ≤ s.manager.consumerThreadGroup_.countP Consumer.awake := by
  have hbound := (wakesUp_run h).bound hnot hwaiting
  exact hbound.trans (List.countP_mono_left fun c _ hc => Consumer.awake_of_willTest hc)

/-- **No wake-up is lost.**  Whenever no `interrupt_all` is under way, a consumer that
waits without having been notified leaves no more stats in the queue than there are
consumers that have not ended and do not wait.  And if `start` is only called when no
call of `stop` is under way, then in a manager that is alive and whose calls of `start`
have returned, a stat in the queue never coexists with all consumers asleep. -/
theorem no_lost_wakeup (n : ℕ) (docRoot : Bytes) :
    (∀ es s, Runs step anyStep (initial n docRoot) es s → NotInterrupting s.manager.stops →
      SomeWaiting s.manager.consumerThreadGroup_ →
      s.manager.latencyStatQ_.length ≤ s.manager.consumerThreadGroup_.countP Consumer.awake)
    ∧ (0 < n → ∀ es s, Runs step StartsApart (initial n docRoot) es s →
      s.manager.isAlive_ = true → s.manager.starts = [] → s.manager.latencyStatQ_ ≠ [] →
      ∃ c ∈ s.manager.consumerThreadGroup_, c.awake = true) := by
  refine ⟨fun es s => length_le_awake, ?_⟩
  intro hn es s hrun halive hstarts hq
  have hmanned := manned_run hn hrun
  have hany : Runs step anyStep (initial n docRoot) es s :=
    hrun.mono fun _ _ _ => trivial
  have hnot : NotInterrupting s.manager.stops := by
    rw [hmanned.stops_eq_nil halive]
    exact fun i hi => absurd hi List.not_mem_nil
  rcases hmanned.someone halive with ⟨c, hc, -, hfinished⟩ | ⟨left, hleft, -⟩
  · by_cases hwaiting : c.pc = .waiting
    · -- it waits, so there is somebody for each stat
      have hle := length_le_awake hany hnot ⟨c, hc, hwaiting⟩
      have hpos : 0 < s.manager.latencyStatQ_.length := List.length_pos_iff.mpr hq
      exact List.countP_pos_iff.mp (by omega)
    · exact ⟨c, hc, decide_eq_true ⟨hwaiting, hfinished⟩⟩
  · rw [hstarts] at hleft
    exact absurd hleft List.not_mem_nil

/-- Two consumers are started and wait, and a stat is pushed for the first of them. -/
def oneWoken : List PipelineEvent :=
  [.manager .start, .manager (.createThread 0), .manager (.createThread 0),
    .manager (.startReturns 0), .manager (.loopTest 0), .manager (.take 0),
    .manager (.loopTest 1), .manager (.take 1),
    .manager (.onLatencyUpdate ⟨str "1", 897669200000, 4⟩), .manager (.push 0 (some 0))]

theorem oneWoken_runs : (run step anyStep (initial 2 []) oneWoken).isSome = true := by
  decide +kernel

theorem oneWoken_runs_startsApart :
    (run step StartsApart (initial 2 []) oneWoken).isSome = true := by
  decide +kernel

/-- The second consumer waits, and the first one is there for the stat. -/
theorem no_lost_wakeup_oneWoken :
    ((run step anyStep (initial 2 []) oneWoken).get oneWoken_runs).manager.latencyStatQ_.length
        ≤ ((run step anyStep (initial 2 [])
            oneWoken).get oneWoken_runs).manager.consumerThreadGroup_.countP Consumer.awake
      ∧ ∃ c ∈ ((run step StartsApart (initial 2 [])
          oneWoken).get oneWoken_runs_startsApart).manager.consumerThreadGroup_,
        c.awake = true := by
  have hstops : ((run step anyStep (initial 2 []) oneWoken).get oneWoken_runs).manager.stops
      = [] := by decide +kernel
  refine ⟨(no_lost_wakeup 2 []).1 _ _ (runs_get oneWoken_runs) ?_ ?_,
    (no_lost_wakeup 2 []).2 Nat.two_pos _ _ (runs_get oneWoken_runs_startsApart) (by decide +kernel)
      (by decide +kernel) (by decide +kernel)⟩
  · rw [hstops]
    exact fun i hi => absurd hi List.not_mem_nil
  · exact ⟨⟨.waiting, false⟩, by decide +kernel, rfl⟩

end StatPipeline

end Unichannel
