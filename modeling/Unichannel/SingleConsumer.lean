/-
# With one consumer the pipeline is one queue

`latencyStatQ_`, the hands of the consumers and `statQ_` together need not be a queue:
two consumers that have popped may add in either order.  As long as at most one consumer
thread exists they are one, across the calls of `stop` that interrupt the consumer and
those of `start` that replace it (`refines_queue`).

The default number of threads and calls of `start` and `stop` that follow one another
keep the consumers to one (`OneAtATime`).
-/
import Unichannel.WakeUps

namespace Unichannel

open GuardedSystem

/-! ## One consumer -/

namespace Consumer

/-- The thread has not ended. -/
def live (c : Consumer) : Bool := c.pc ≠ .finished

/-- An interruption does not end a thread. -/
theorem live_interrupt (c : Consumer) : c.interrupt.live = c.live := by
  unfold live interrupt
  dsimp only
  split_ifs with hpc
  · rw [hpc]
    rfl
  · rfl

/-- A stat in hands is in those of a live thread. -/
theorem live_of_hand {c : Consumer} (h : c.hand ≠ 0) :
    c.live = true ∧ c.pc ≠ .queueTest ∧ c.pc ≠ .notified := by
  have hholding : ¬ ∀ stat, c.pc ≠ .holding stat := fun hnot => h (hand_of_not_holding hnot)
  push Not at hholding
  obtain ⟨stat, hpc⟩ := hholding
  simp [live, hpc]

end Consumer

/-- The handler is set before `onLatencyUpdate` is called. -/
def HandlerFirst (s : StatPipeline) (e : PipelineEvent) : Prop :=
  ∀ _stat ∈ e.update, s.manager.reqHandlerSet = true

/-- The handler is set before any update, and at most one consumer thread exists. -/
def OneConsumer (s : StatPipeline) (e : PipelineEvent) : Prop :=
  HandlerFirst s e ∧ s.manager.consumerThreadGroup_.countP Consumer.live ≤ 1

instance : DecidableRel HandlerFirst := fun s e =>
  inferInstanceAs (Decidable (∀ _stat ∈ e.update, s.manager.reqHandlerSet = true))

instance : DecidableRel OneConsumer := fun s e =>
  inferInstanceAs (Decidable
    (HandlerFirst s e ∧ s.manager.consumerThreadGroup_.countP Consumer.live ≤ 1))

namespace LatencyStatManager

variable {m m' : LatencyStatManager} {e : ManagerEvent} {eff : StatEffect} {i : ℕ} {c : Consumer}

/-- The handler is set, or no update has come yet. -/
def HandlerOrNothing (m : LatencyStatManager) : Prop :=
  m.reqHandlerSet = true ∨ (m.updates = [] ∧ m.HandlerOrEmpty)

/-- Without an update the queue is empty. -/
theorem HandlerOrNothing.handlerOrEmpty (h : HandlerOrNothing m) : m.HandlerOrEmpty := by
  rcases h with hset | ⟨-, hempty⟩
  · exact Or.inl hset
  · exact hempty

/-- **Step lemma.** -/
theorem handlerOrNothing_step (h : HandlerOrNothing m)
    (hupdate : ∀ stat, e = .onLatencyUpdate stat → m.reqHandlerSet = true)
    (hstep : m.step e = some (m', eff)) : HandlerOrNothing m' := by
  obtain ⟨-, hkeeps, hupdates⟩ := step_keeps hstep
  by_cases hset : m.reqHandlerSet = true
  · exact Or.inl (hkeeps hset)
  · obtain ⟨hnone, hempty⟩ := h.resolve_left hset
    rcases hupdates with hsub | ⟨stat, heq⟩
    · rw [hnone] at hsub
      refine Or.inr ⟨List.subset_nil.mp hsub, handlerOrEmpty_step hempty ?_ hstep⟩
      -- nothing can be pushed
      rintro k woken rfl
      obtain ⟨stat, consumers, hk, -⟩ := step_push hstep
      rw [hnone] at hk
      cases hk
    · exact absurd (hupdate stat heq) hset

/-- The only live consumer takes with empty hands, and nobody else holds a stat. -/
theorem inHand_eq_zero (hone : m.consumerThreadGroup_.countP Consumer.live ≤ 1)
    (hc : m.consumerThreadGroup_[i]? = some c) (hpc : c.pc = .queueTest ∨ c.pc = .notified) :
    m.inHand = 0 := by
  have hlive : c.live = true := by
    rcases hpc with hpc | hpc <;> simp [Consumer.live, hpc]
  apply Tally.total_eq_zero
  intro d hd
  by_contra hhand
  obtain ⟨hdlive, hqueue, hnotified⟩ := Consumer.live_of_hand hhand
  obtain ⟨j, hj⟩ := List.mem_iff_getElem?.mp hd
  -- the holder would be the taker
  have hij : i = j := Tally.eq_of_countP_le_one hone hc hlive hj hdlive
  subst hij
  rw [hc] at hj
  cases hj
  exact hpc.elim hqueue hnotified

/-- The stats in the hands of the consumers, thread after thread. -/
def held (m : LatencyStatManager) : List LatencyStat.Ptr :=
  m.consumerThreadGroup_.filterMap Consumer.held

/-- They are what is in hands. -/
theorem coe_held (m : LatencyStatManager) :
    (m.held : Multiset LatencyStat.Ptr) = m.inHand := by
  unfold held inHand
  induction m.consumerThreadGroup_ with
  | nil => rfl
  | cons c l ih =>
    rw [Tally.total_cons, ← ih, Consumer.hand, List.filterMap_cons]
    cases c.held with
    | none => exact (zero_add _).symm
    | some stat => exact Relay.coe_cons stat _

end LatencyStatManager

/-! ## The refinement -/

namespace StatPipeline

variable {n : ℕ} {docRoot : Bytes} {s s' : StatPipeline} {e : PipelineEvent}
  {es : List PipelineEvent}

/-- The pipeline as one queue: `statQ_` in front, then the stat in hands, and
`latencyStatQ_` behind. -/
def fifo (s : StatPipeline) : Fifo LatencyStat.Ptr where
  accepted := s.accepted
  queue := s.reqHandler.statQ_ ++ s.manager.held ++ s.manager.latencyStatQ_
  out := s.delivered

/-- With a single hand this is the queue that the relay refines. -/
theorem fifo_eq_asFifo (h : s.relay.hands.card ≤ 1) : s.fifo = s.relay.asFifo := by
  have hheld : Multiset.toList s.manager.inHand = s.manager.held := by
    have hcard : s.manager.held.length ≤ 1 := by
      rw [← Multiset.coe_card, LatencyStatManager.coe_held]
      exact h
    rw [← LatencyStatManager.coe_held]
    rcases hl : s.manager.held with _ | ⟨stat, _ | ⟨stat', rest⟩⟩
    · exact Multiset.toList_zero
    · exact Multiset.toList_singleton stat
    · rw [hl, List.length_cons, List.length_cons] at hcard
      omega
  show (⟨_, _, _⟩ : Fifo LatencyStat.Ptr) = ⟨_, _ ++ Multiset.toList s.manager.inHand ++ _, _⟩
  rw [hheld]
  rfl

/-- A run with one consumer shows as a run of the relay in which only empty hands take. -/
theorem takesFree_run (h : Runs step OneConsumer (initial n docRoot) es s) :
    ∃ bs, Runs Relay.step Relay.TakesFree Relay.initial bs s.relay := by
  have hsafe : Runs step (fun s e => OneConsumer s e ∧ HandlerSet s e)
      (initial n docRoot) es s := by
    refine manager_strengthen (J := LatencyStatManager.HandlerOrNothing) h
      (Or.inr ⟨rfl, Or.inr ⟨rfl, rfl⟩⟩) ?_ ?_
    · intro s e m eff hs hP hstep
      refine LatencyStatManager.handlerOrNothing_step hs ?_ hstep
      rintro stat rfl
      exact hP.1 stat rfl
    · intro s e s' hs hP hstep
      exact ⟨hP, handlerSet_of_handlerOrEmpty hs.handlerOrEmpty hstep⟩
  refine relay_run hsafe (fun _ _ _ hP hstep => not_crashed_step hP.2 hstep) ?_
  -- a consumer that takes is the only one
  rintro s e s' b ⟨⟨-, hone⟩, -⟩ hstep htake hb
  obtain ⟨i, rfl⟩ := htake hb
  obtain ⟨m, eff, hm, -⟩ := step_manager hstep
  obtain ⟨c, hc, hpc, -, -⟩ := LatencyStatManager.step_take hm
  exact LatencyStatManager.inHand_eq_zero hone hc hpc

/-- With one consumer the pipeline is in order. -/
theorem inOrder_run (h : Runs step OneConsumer (initial n docRoot) es s) :
    s.fifo.accepted = s.fifo.out ++ s.fifo.queue ∧ s.manager.held.length ≤ 1 := by
  obtain ⟨bs, hbs⟩ := takesFree_run h
  obtain ⟨hcard, fs, hfs⟩ := Relay.fifo_run hbs
  rw [← fifo_eq_asFifo hcard] at hfs
  refine ⟨Fifo.accepted_eq hfs, ?_⟩
  rw [← Multiset.coe_card, LatencyStatManager.coe_held]
  exact hcard

end StatPipeline

/-- The event of a queue that an event of the pipeline shows as: an update that is pushed
goes in, and a reply that carries a point lets it out. -/
def PipelineEvent.shows (s : StatPipeline) : PipelineEvent → Option (Fifo.Event LatencyStat.Ptr)
  | .manager (.push k _) => s.manager.updates[k]?.map .push
  | .manager _ => none
  | .request _ req _ => (latestPoint s.reqHandler req).map fun _ => .pop

namespace StatPipeline

variable {n : ℕ} {docRoot : Bytes} {s s' : StatPipeline} {e : PipelineEvent}
  {es : List PipelineEvent}

/-- What an event of the manager that is not a push leaves as it is. -/
theorem step_not_push {e : ManagerEvent} (he : ∀ k woken, e ≠ .push k woken)
    (hstep : s.step (.manager e) = some s') :
    s'.accepted = s.accepted ∧ s'.delivered = s.delivered := by
  obtain ⟨m, eff, hm, rfl⟩ := step_manager hstep
  have heffect := LatencyStatManager.step_effect hm
  cases eff with
  | none => exact ⟨rfl, rfl⟩
  | accepts stat =>
    obtain ⟨k, woken, hpush⟩ := heffect
    exact absurd hpush (he k woken)
  | takes => exact ⟨rfl, rfl⟩
  | adds stat =>
    refine ⟨apply_adds_accepted _ stat, ?_⟩
    rw [delivered, apply_replies]
    rfl

/-- **Step lemma**, between states that are in order. -/
theorem fifo_step (hs : s.fifo.accepted = s.fifo.out ++ s.fifo.queue)
    (hs' : s'.fifo.accepted = s'.fifo.out ++ s'.fifo.queue) (hstep : s.step e = some s') :
    (e.shows s = none → s'.fifo = s.fifo)
      ∧ ∀ b, e.shows s = some b → s.fifo.step b = some s'.fifo := by
  cases e with
  | manager e =>
    by_cases hpush : ∃ k woken, e = .push k woken
    · obtain ⟨k, woken, rfl⟩ := hpush
      obtain ⟨m, eff, hm, rfl⟩ := step_manager hstep
      obtain ⟨stat, consumers, hk, -, rfl, rfl⟩ := LatencyStatManager.step_push hm
      rw [PipelineEvent.shows, hk]
      refine ⟨fun hnone => (by cases hnone), fun b hb => ?_⟩
      cases hb
      exact Fifo.step_push_of_accepted hs hs' rfl rfl
    · push Not at hpush
      obtain ⟨haccepted, hdelivered⟩ := step_not_push hpush hstep
      have hnone : (PipelineEvent.manager e).shows s = none := by
        cases e with
        | push k woken => exact absurd rfl (hpush k woken)
        | _ => rfl
      rw [hnone]
      exact ⟨fun _ => Fifo.eq_of_accepted hs hs' haccepted hdelivered, fun b hb => by cases hb⟩
  | request env req rep =>
    have haccepted : s'.accepted = s.accepted := by rw [step_request hstep]
    have hdelivered : s'.delivered = s.delivered ++ (latestPoint s.reqHandler req).toList := by
      rw [step_request hstep, delivered, delivered, List.filterMap_append]
      cases latestPoint s.reqHandler req <;> rfl
    rw [PipelineEvent.shows]
    cases hpoint : latestPoint s.reqHandler req with
    | none =>
      rw [hpoint, Option.toList_none, List.append_nil] at hdelivered
      exact ⟨fun _ => Fifo.eq_of_accepted hs hs' haccepted hdelivered, fun b hb => by cases hb⟩
    | some stat =>
      rw [hpoint] at hdelivered
      refine ⟨fun hnone => (by cases hnone), fun b hb => ?_⟩
      cases hb
      exact Fifo.step_pop_of_accepted hs hs' haccepted hdelivered

/-- **Run lemma.**  With one consumer the pipeline runs as the queue, by the events that
its own show as. -/
theorem fifo_run (h : Runs step OneConsumer (initial n docRoot) es s) :
    Runs Fifo.step anyStep Fifo.initial
      (shown step (fun s e => e.shows s) (initial n docRoot) es) s.fifo := by
  refine h.show_run fifo ?_
  intro as s₁ e s₂ hrun hP hstep
  exact fifo_step (inOrder_run hrun).1 (inOrder_run (Runs.snoc hrun hP hstep)).1 hstep

end StatPipeline

/-! ## One call after the other -/

/-- A call of `stop`. -/
def PipelineEvent.isStop : PipelineEvent → Bool
  | .manager .stop => true
  | _ => false

/-- The handler is set before any update, `start` is called in a stopped manager when
every call of `start` and `stop` has returned, and `stop` when every call of `start` has. -/
def SequentialCalls (s : StatPipeline) (e : PipelineEvent) : Prop :=
  HandlerFirst s e
    ∧ (e.isStart = true →
      s.manager.isAlive_ = false ∧ s.manager.starts = [] ∧ s.manager.stops = [])
    ∧ (e.isStop = true → s.manager.starts = [])

namespace LatencyStatManager

variable {m m' : LatencyStatManager} {e : ManagerEvent} {eff : StatEffect} {i k : ℕ} {c : Consumer}

/-- All threads have ended. -/
def AllFinished (m : LatencyStatManager) : Prop := ∀ c ∈ m.consumerThreadGroup_, c.pc = .finished

/-- A manager with one consumer at a time. -/
structure OneAtATime (m : LatencyStatManager) : Prop where
  threads : m.numOfConsumerThreads_ = 1
  one : m.consumerThreadGroup_.countP Consumer.live ≤ 1
  /-- A call of `start` that has its thread to create finds the others ended. -/
  starts : m.starts = [] ∨ (m.starts = [0] ∧ m.isAlive_ = true)
    ∨ (m.starts = [1] ∧ m.isAlive_ = true ∧ m.AllFinished)
  /-- `stop` runs in a stopped manager, and not during `start`. -/
  apart : m.stops ≠ [] → m.isAlive_ = false ∧ m.starts = []
  /-- `join_all` waits for every thread. -/
  joins : ∀ n, .joining n ∈ m.stops → n = m.consumerThreadGroup_.length
  /-- When `stop` has returned, the threads have ended. -/
  stopped : m.isAlive_ = false → m.stops = [] → m.AllFinished

/-- One thread, which had not ended, is now `d`. -/
theorem OneAtATime.setConsumer (h : OneAtATime m) (hc : m.consumerThreadGroup_[i]? = some c)
    (hpc : c.pc ≠ .finished) (d : Consumer) : OneAtATime (m.setConsumer i d) := by
  have hbusy : ¬ m.AllFinished := fun hall => hpc (hall c (List.mem_of_getElem? hc))
  have hlive : c.live = true := decide_eq_true hpc
  have hset := Tally.countP_set Consumer.live d hc
  rw [if_pos hlive] at hset
  have hd : (if d.live = true then 1 else 0) ≤ 1 := by split_ifs <;> omega
  constructor
  · exact h.threads
  · have hone := h.one
    show (m.consumerThreadGroup_.set i d).countP Consumer.live ≤ 1
    omega
  · exact h.starts.imp_right fun hs => hs.imp_right fun hs => absurd hs.2.2 hbusy
  · exact h.apart
  · intro n hn
    show n = (m.consumerThreadGroup_.set i d).length
    rw [List.length_set]
    exact h.joins n hn
  · exact fun halive hstops => absurd (h.stopped halive hstops) hbusy

/-- There is one call of `start` under way, with its thread created or to be created. -/
theorem OneAtATime.starts_cases {left : ℕ} (h : OneAtATime m) (hk : m.starts[k]? = some left) :
    k = 0 ∧ m.isAlive_ = true
      ∧ ((left = 0 ∧ m.starts = [0]) ∨ (left = 1 ∧ m.starts = [1] ∧ m.AllFinished)) := by
  have hlt := (List.getElem?_eq_some_iff.mp hk).1
  rcases h.starts with hs | ⟨hs, halive⟩ | ⟨hs, halive, hall⟩ <;> rw [hs] at hk hlt
  · cases hk
  · exact ⟨Nat.lt_one_iff.mp hlt, halive,
      Or.inl ⟨List.mem_singleton.mp (List.mem_of_getElem? hk), hs⟩⟩
  · exact ⟨Nat.lt_one_iff.mp hlt, halive,
      Or.inr ⟨List.mem_singleton.mp (List.mem_of_getElem? hk), hs, hall⟩⟩

/-- The thread that `start` creates is the only one. -/
theorem OneAtATime.createThread {n : ℕ} (h : OneAtATime m) (hk : m.starts[k]? = some (n + 1)) :
    OneAtATime { m with
      consumerThreadGroup_ := m.consumerThreadGroup_ ++ [Consumer.new]
      starts := m.starts.set k n } := by
  obtain ⟨rfl, halive, ⟨hn, -⟩ | ⟨hn, hstarts, hall⟩⟩ := h.starts_cases hk
  · exact absurd hn (Nat.succ_ne_zero n)
  obtain rfl : n = 0 := by omega
  have hnone : m.consumerThreadGroup_.countP Consumer.live = 0 := by
    apply List.countP_eq_zero.mpr
    intro c hc
    simp [Consumer.live, hall c hc]
  have hstops : m.stops = [] := by
    by_contra hstops
    have hdead := (h.apart hstops).1
    rw [halive] at hdead
    cases hdead
  constructor
  · exact h.threads
  · show (m.consumerThreadGroup_ ++ [Consumer.new]).countP Consumer.live ≤ 1
    rw [List.countP_append, hnone]
    exact le_rfl
  · refine Or.inr (Or.inl ⟨?_, halive⟩)
    show m.starts.set 0 0 = [0]
    rw [hstarts]
    rfl
  · exact fun hne => absurd hstops hne
  · intro n hjoin
    have hjoin' : StopCall.joining n ∈ m.stops := hjoin
    rw [hstops] at hjoin'
    cases hjoin'
  · intro hdead
    have hdead' : m.isAlive_ = false := hdead
    rw [halive] at hdead'
    cases hdead'

/-- `interrupt_all` goes on: the threads `consumers` are as live as before, and the call
number `k` of `stop` is now `x`. -/
theorem OneAtATime.interrupt {x y : StopCall} {consumers : List Consumer} (h : OneAtATime m)
    (hk : m.stops[k]? = some y)
    (hlive : consumers.countP Consumer.live = m.consumerThreadGroup_.countP Consumer.live)
    (hlength : consumers.length = m.consumerThreadGroup_.length)
    (hx : ∀ n, x = .joining n → n = consumers.length) :
    OneAtATime { m with consumerThreadGroup_ := consumers, stops := m.stops.set k x } := by
  have hstops : m.stops ≠ [] := List.ne_nil_of_mem (List.mem_of_getElem? hk)
  constructor
  · exact h.threads
  · show consumers.countP Consumer.live ≤ 1
    rw [hlive]
    exact h.one
  · exact Or.inl (h.apart hstops).2
  · exact fun _ => h.apart hstops
  · intro n hn
    rcases List.mem_or_eq_of_mem_set hn with hn | hn
    · exact (h.joins n hn).trans hlength.symm
    · exact hx n hn.symm
  · intro _ hnil
    have hmem : x ∈ m.stops.set k x := List.mem_set (List.getElem?_eq_some_iff.mp hk).1 x
    exact absurd hnil (List.ne_nil_of_mem hmem)

/-- `stop` returns when every thread has ended. -/
theorem OneAtATime.stopReturns {n : ℕ} (h : OneAtATime m) (hk : m.stops[k]? = some (.joining n))
    (hall : ∀ c ∈ m.consumerThreadGroup_.take n, c.pc = .finished) :
    OneAtATime { m with stops := m.stops.eraseIdx k } := by
  have hmem := List.mem_of_getElem? hk
  rw [h.joins n hmem, List.take_length] at hall
  refine ⟨h.threads, h.one, h.starts, fun _ => h.apart (List.ne_nil_of_mem hmem), ?_,
    fun _ _ => hall⟩
  exact fun n hn => h.joins n (List.mem_of_mem_eraseIdx hn)

/-- **Step lemma**, where the calls follow one another. -/
theorem oneAtATime_step (h : OneAtATime m)
    (hstart : e = .start → m.isAlive_ = false ∧ m.starts = [] ∧ m.stops = [])
    (hstop : e = .stop → m.starts = []) (hstep : m.step e = some (m', eff)) : OneAtATime m' := by
  cases e with
  | setReqHandler =>
    cases hstep
    exact ⟨h.threads, h.one, h.starts, h.apart, h.joins, h.stopped⟩
  | onLatencyUpdate stat =>
    cases hstep
    unfold onLatencyUpdate
    split_ifs
    · exact ⟨h.threads, h.one, h.starts, h.apart, h.joins, h.stopped⟩
    · exact h
  | push k woken =>
    obtain ⟨stat, consumers, -, hnotify, rfl, -⟩ := step_push hstep
    have hwoken : OneAtATime { m with consumerThreadGroup_ := consumers } := by
      rcases notifyOne_cases hnotify with ⟨rfl, -⟩ | ⟨i, c, hc, hpc, rfl⟩
      · exact h
      · exact h.setConsumer hc (by simp [hpc]) c.wake
    exact ⟨h.threads, hwoken.one, hwoken.starts, h.apart, hwoken.joins, hwoken.stopped⟩
  | loopTest i =>
    obtain ⟨c, hc, hpc, rfl, -⟩ := step_loopTest hstep
    exact h.setConsumer hc (by simp [hpc]) _
  | take i =>
    obtain ⟨c, hc, hpc, rfl, -⟩ := step_take hstep
    have hlive : c.pc ≠ .finished := by rcases hpc with hpc | hpc <;> simp [hpc]
    have hset := h.setConsumer hc hlive (c.takeSection m.latencyStatQ_).1
    exact ⟨hset.threads, hset.one, hset.starts, hset.apart, hset.joins, hset.stopped⟩
  | wake i =>
    obtain ⟨c, hc, hpc, rfl, -⟩ := step_wake hstep
    exact h.setConsumer hc (by simp [hpc]) _
  | addStat i =>
    obtain ⟨c, stat, hc, hpc, rfl, -⟩ := step_addStat hstep
    exact h.setConsumer hc (by simp [hpc]) _
  | start =>
    cases hstep
    obtain ⟨halive, hstarts, hstops⟩ := hstart rfl
    refine ⟨h.threads, h.one, Or.inr (Or.inr ⟨?_, rfl, h.stopped halive hstops⟩),
      fun hne => absurd hstops hne, h.joins, fun halive => by cases halive⟩
    show m.starts ++ [m.numOfConsumerThreads_] = [1]
    rw [hstarts, h.threads]
    rfl
  | createThread k =>
    obtain ⟨n, hk, rfl, -⟩ := step_createThread hstep
    exact h.createThread hk
  | startReturns k =>
    obtain ⟨hk, rfl, -⟩ := step_startReturns hstep
    have hstarts : m.starts.eraseIdx k = [] := by
      obtain ⟨rfl, -, ⟨-, hs⟩ | ⟨h01, -, -⟩⟩ := h.starts_cases hk
      · rw [hs]
        rfl
      · exact absurd h01 Nat.zero_ne_one
    exact ⟨h.threads, h.one, Or.inl hstarts, fun hne => ⟨(h.apart hne).1, hstarts⟩, h.joins,
      h.stopped⟩
  | stop =>
    cases hstep
    refine ⟨h.threads, h.one, Or.inl (hstop rfl), fun _ => ⟨rfl, hstop rfl⟩, ?_, ?_⟩
    · intro n hn
      rcases List.mem_append.mp hn with hn | hn
      · exact h.joins n hn
      · cases List.mem_singleton.mp hn
    · exact fun _ hnil => absurd hnil (by simp)
  | interrupt k =>
    obtain ⟨i, hk, -, ⟨c, hc, rfl⟩ | ⟨-, rfl⟩⟩ := step_interrupt hstep
    · refine h.interrupt hk ?_ List.length_set fun n hn => by cases hn
      have hset := Tally.countP_set Consumer.live c.interrupt hc
      rw [c.live_interrupt] at hset
      exact Nat.add_right_cancel hset
    · exact h.interrupt hk rfl rfl fun n hn => by cases hn; rfl
  | stopReturns k =>
    obtain ⟨n, hk, hall, rfl, -⟩ := step_stopReturns hstep
    exact h.stopReturns hk hall

end LatencyStatManager

instance : DecidableRel SequentialCalls := fun s e =>
  inferInstanceAs (Decidable (HandlerFirst s e
    ∧ (e.isStart = true →
      s.manager.isAlive_ = false ∧ s.manager.starts = [] ∧ s.manager.stops = [])
    ∧ (e.isStop = true → s.manager.starts = [])))

/-- `getLatestPoint` returns the empty string when there is no point, and only then. -/
theorem HttpReqHandler.getLatestPoint_eq_nil_iff (h : HttpReqHandler) :
    h.getLatestPoint.1 = [] ↔ h.statQ_ = [] := by
  cases hq : h.statQ_ with
  | nil =>
    rw [getLatestPoint_of_nil hq]
    exact iff_of_true rfl rfl
  | cons stat rest =>
    rw [getLatestPoint_of_cons hq]
    refine iff_of_false ?_ (List.cons_ne_nil stat rest)
    simp [pointText, str]

namespace StatPipeline

variable {docRoot : Bytes} {s : StatPipeline} {es : List PipelineEvent}

/-- Calls that follow one another keep the consumers of the default manager to one. -/
theorem oneConsumer_of_sequentialCalls
    (h : Runs step SequentialCalls (initial 1 docRoot) es s) :
    Runs step OneConsumer (initial 1 docRoot) es s := by
  refine manager_strengthen (J := LatencyStatManager.OneAtATime) h ?_ ?_ ?_
  · exact ⟨rfl, Nat.zero_le 1, Or.inl rfl, fun hne => absurd rfl hne,
      fun _ hn => absurd hn List.not_mem_nil, fun _ _ _ hc => absurd hc List.not_mem_nil⟩
  · rintro s e m eff hm ⟨-, hstart, hstop⟩ hstep
    refine LatencyStatManager.oneAtATime_step hm ?_ ?_ hstep
    · rintro rfl
      exact hstart rfl
    · rintro rfl
      exact hstop rfl
  · exact fun s e s' hm hP _ => ⟨hP.1, hm.one⟩

/-- **With one consumer the pipeline refines a queue.**  In every run in which the handler
is set before any update and at most one consumer thread exists, the pipeline seen as one
queue runs as a queue, which each push enters and each reply with a point leaves: what was
delivered, what is in `statQ_`, the stat in hands, if any, and what is in `latencyStatQ_`
is what was accepted, in order; and `getLatestPoint` returns nothing only if `statQ_` is
empty.  The default number of threads, and calls of `start` and `stop` that follow one
another, keep the consumers to one. -/
theorem refines_queue (docRoot : Bytes) :
    (∀ n es s, Runs step OneConsumer (initial n docRoot) es s →
      Runs Fifo.step anyStep Fifo.initial
          (shown step (fun s e => e.shows s) (initial n docRoot) es) s.fifo
        ∧ s.delivered ++ s.reqHandler.statQ_ ++ s.manager.held ++ s.manager.latencyStatQ_
          = s.accepted
        ∧ s.manager.held.length ≤ 1
        ∧ (s.reqHandler.getLatestPoint.1 = [] → s.reqHandler.statQ_ = []))
    ∧ ∀ es s, Runs step SequentialCalls (initial 1 docRoot) es s →
      Runs step OneConsumer (initial 1 docRoot) es s := by
  refine ⟨?_, fun es s => oneConsumer_of_sequentialCalls⟩
  intro n es s hrun
  obtain ⟨horder, hheld⟩ := inOrder_run hrun
  refine ⟨fifo_run hrun, ?_, hheld, (HttpReqHandler.getLatestPoint_eq_nil_iff _).mp⟩
  have hfifo : s.accepted
      = s.delivered ++ (s.reqHandler.statQ_ ++ s.manager.held ++ s.manager.latencyStatQ_) := horder
  rw [hfifo, List.append_assoc, List.append_assoc, List.append_assoc]

/-- The consumer is interrupted while an update is under way, and after `stop` has
returned a second one takes what was left. -/
def restarted : List PipelineEvent :=
  [.manager .setReqHandler, .manager .start, .manager (.createThread 0), .manager (.startReturns 0),
    .manager (.loopTest 0), .manager (.take 0),
    .manager (.onLatencyUpdate ⟨str "1", 897669200000, 4⟩), .manager .stop,
    .manager (.interrupt 0), .manager (.push 0 none), .manager (.take 0), .manager (.interrupt 0),
    .manager (.stopReturns 0), .manager .start, .manager (.createThread 0), .manager (.loopTest 1),
    .manager (.take 1)]

theorem restarted_runs : (run step SequentialCalls (initial 1 []) restarted).isSome = true := by
  decide +kernel

/-- The update left by the first consumer is in the hands of the second. -/
theorem refines_queue_restarted :
    ((run step SequentialCalls (initial 1 []) restarted).get restarted_runs).manager.held
        = [⟨0, ⟨str "1", 897669200000, 4⟩⟩]
      ∧ Runs Fifo.step anyStep Fifo.initial
        (shown step (fun s e => e.shows s) (initial 1 []) restarted)
        ((run step SequentialCalls (initial 1 []) restarted).get restarted_runs).fifo :=
  ⟨by decide +kernel,
    ((refines_queue []).1 1 _ _ ((refines_queue []).2 _ _ (runs_get restarted_runs))).1⟩

end StatPipeline

end Unichannel
