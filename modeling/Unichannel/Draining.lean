/-
# The threads come to rest

The manager's threads have work as long as there is an update to push, a stat to hand
on, a thread to create or one to end, and every event of theirs does some of it: after
any state only a bounded number of events is left (`work_run`), except that a consumer
that is woken for no reason tests the queue once more.

So a call of `stop` returns, if no null handler ends the program, and from then on the
threads have ended and nothing is in their hands (`stop_returns`); and in a started manager
with at least one consumer that is left alone every update that was accepted arrives at the
request handler (`drains`).
-/
import Unichannel.SingleConsumer

namespace Unichannel

open GuardedSystem

/-! ## The events of the threads -/

/-- An event that a thread of the program brings about by going on: not a call from
outside, and not a wake-up without a reason. -/
def ManagerEvent.isThread : ManagerEvent → Bool
  | .setReqHandler | .onLatencyUpdate _ | .wake _ | .start | .stop => false
  | _ => true

/-- The events that the other events bring at most: a consumer that is woken without a
reason tests the queue, and an update that a manager that is alive accepts is pushed, wakes
a consumer and goes through its hands. -/
def ManagerEvent.brings (isAlive_ : Bool) : ManagerEvent → ℕ
  | .wake _ => 1
  | .onLatencyUpdate _ => if isAlive_ then 5 else 0
  | _ => 0

/-! ## Work -/

/-- How many events a thread has in front of it, at most, before it waits or ends, if
nothing new comes. -/
def Consumer.work (c : Consumer) : ℕ :=
  match c.pc with
  | .loopTest => 2
  | .queueTest => 1
  | .waiting => 0
  | .notified => 1
  | .holding _ => 3
  | .finished => 0

/-- How many a call of `stop` has, in a group that comes to `threads` threads; each
interruption can wake one. -/
def StopCall.work (threads : ℕ) : StopCall → ℕ
  | .interrupting i => 2 * (threads - i) + 2
  | .joining _ => 1

namespace Consumer

/-- The test of the loop is done. -/
theorem work_loopTest {c : Consumer} (hpc : c.pc = .loopTest) (isAlive_ : Bool) :
    (c.loopTest isAlive_).work + 1 ≤ c.work := by
  cases isAlive_ <;> simp [work, loopTest, hpc]

/-- A stat that is taken makes up for the way back to the queue. -/
theorem work_takeSection {c : Consumer} (hpc : c.pc = .queueTest ∨ c.pc = .notified)
    (q : List LatencyStat.Ptr) :
    (c.takeSection q).1.work + 3 * (c.takeSection q).2.1.length + 1
      ≤ c.work + 3 * q.length := by
  have hwork : c.work = 1 := by rcases hpc with hpc | hpc <;> simp [work, hpc]
  rcases c.takeSection_eq q with ⟨-, heq⟩ | ⟨hq, -, heq⟩ | ⟨stat, rest, hq, heq⟩
  · rw [heq, hwork]
    show 0 + 3 * q.length + 1 ≤ 1 + 3 * q.length
    omega
  · rw [heq, hwork]
    show 0 + 3 * 0 + 1 ≤ 1 + 3 * q.length
    omega
  · rw [heq, hwork, hq, List.length_cons]
    show 3 + 3 * rest.length + 1 ≤ 1 + 3 * (rest.length + 1)
    omega

/-- A thread that is woken has its test to do. -/
theorem work_wake {c : Consumer} (hpc : c.pc = .waiting) : c.wake.work = c.work + 1 := by
  simp [work, wake, hpc]

/-- An interruption wakes a thread at most. -/
theorem work_interrupt (c : Consumer) : c.interrupt.work ≤ c.work + 1 := by
  unfold work interrupt
  dsimp only
  split_ifs with hpc
  · simp
  · omega

end Consumer

namespace LatencyStatManager

/-- The threads there are and those to be created. -/
def threads (m : LatencyStatManager) : ℕ :=
  m.consumerThreadGroup_.length + Tally.total id m.starts

/-- The work of all threads: a stat in the queue is good for one round of a consumer, and
an update under way for its push and that round, which may begin with waking a consumer. -/
def work (m : LatencyStatManager) : ℕ :=
  Tally.total Consumer.work m.consumerThreadGroup_ + 3 * m.latencyStatQ_.length
    + 5 * m.updates.length + Tally.total (fun left => 3 * left + 1) m.starts
    + Tally.total (StopCall.work m.threads) m.stops

variable {m m' : LatencyStatManager} {e : ManagerEvent} {eff : StatEffect} {i k : ℕ} {c : Consumer}

/-- Waking a thread, or nobody. -/
theorem work_notifyOne {consumers consumers' : List Consumer} {woken : Option ℕ}
    (h : notifyOne consumers woken = some consumers') :
    Tally.total Consumer.work consumers' ≤ Tally.total Consumer.work consumers + 1
      ∧ consumers'.length = consumers.length := by
  rcases notifyOne_cases h with ⟨rfl, -⟩ | ⟨i, c, hc, hpc, rfl⟩
  · exact ⟨Nat.le_succ _, rfl⟩
  · have hset := Tally.total_set Consumer.work c.wake hc
    rw [Consumer.work_wake hpc] at hset
    exact ⟨by omega, List.length_set⟩

/-- **Step lemma.**  Every event of a thread does some of the work, and only those that
bring some add to it. -/
theorem work_step (hstart : e ≠ .start) (hstop : e ≠ .stop) (hstep : m.step e = some (m', eff)) :
    m'.work + (if e.isThread then 1 else 0) ≤ m.work + e.brings m.isAlive_ := by
  cases e with
  | setReqHandler =>
    cases hstep
    exact le_rfl
  | onLatencyUpdate stat =>
    cases hstep
    unfold onLatencyUpdate ManagerEvent.brings
    by_cases halive : m.isAlive_ = true
    · rw [if_pos halive, if_pos halive, if_neg (by simp [ManagerEvent.isThread])]
      simp only [work, threads, List.length_append, List.length_singleton]
      omega
    · rw [if_neg halive, if_neg halive, if_neg (by simp [ManagerEvent.isThread])]
  | push k woken =>
    obtain ⟨stat, consumers, hk, hnotify, rfl, -⟩ := step_push hstep
    obtain ⟨hwork, hlength⟩ := work_notifyOne hnotify
    have herase := List.length_eraseIdx_of_lt (List.getElem?_eq_some_iff.mp hk).1
    have hpos := (List.getElem?_eq_some_iff.mp hk).1
    simp only [work, threads, hlength, herase, List.length_append, List.length_singleton,
      ManagerEvent.isThread, if_true]
    omega
  | loopTest i =>
    obtain ⟨c, hc, hpc, rfl, -⟩ := step_loopTest hstep
    have hset := Tally.total_set Consumer.work (c.loopTest m.isAlive_) hc
    have hdone := Consumer.work_loopTest hpc m.isAlive_
    simp only [work, threads, setConsumer, List.length_set, ManagerEvent.isThread, if_true]
    omega
  | take i =>
    obtain ⟨c, hc, hpc, rfl, -⟩ := step_take hstep
    have hset := Tally.total_set Consumer.work (c.takeSection m.latencyStatQ_).1 hc
    have hdone := Consumer.work_takeSection hpc m.latencyStatQ_
    simp only [work, threads, setConsumer, List.length_set, ManagerEvent.isThread, if_true]
    omega
  | wake i =>
    obtain ⟨c, hc, hpc, rfl, -⟩ := step_wake hstep
    have hset := Tally.total_set Consumer.work c.wake hc
    rw [Consumer.work_wake hpc] at hset
    rw [if_neg (by simp [ManagerEvent.isThread])]
    simp only [work, threads, setConsumer, List.length_set, ManagerEvent.brings]
    omega
  | addStat i =>
    obtain ⟨c, stat, hc, hpc, rfl, -⟩ := step_addStat hstep
    have hset := Tally.total_set Consumer.work { c with pc := .loopTest } hc
    have hold : c.work = 3 := by simp [Consumer.work, hpc]
    have hnew : ({ c with pc := .loopTest } : Consumer).work = 2 := rfl
    simp only [work, threads, setConsumer, List.length_set, ManagerEvent.isThread, if_true]
    omega
  | start => exact absurd rfl hstart
  | createThread k =>
    obtain ⟨n, hk, rfl, -⟩ := step_createThread hstep
    have hcount := Tally.total_set (id : ℕ → ℕ) n hk
    have hwork := Tally.total_set (fun left => 3 * left + 1) n hk
    have hnew : Consumer.new.work = 2 := rfl
    -- the new thread was among those to be created
    have hthreads : m.consumerThreadGroup_.length + 1 + Tally.total id (m.starts.set k n)
        = m.consumerThreadGroup_.length + Tally.total id m.starts := by
      simp only [id] at hcount
      omega
    simp only [work, threads, List.length_append, List.length_singleton, hthreads,
      Tally.total_append, Tally.total_cons, Tally.total_nil, hnew, ManagerEvent.isThread, if_true]
    omega
  | startReturns k =>
    obtain ⟨hk, rfl, -⟩ := step_startReturns hstep
    have hcount : Tally.total id (m.starts.eraseIdx k) = Tally.total id m.starts :=
      Tally.total_eraseIdx (id : ℕ → ℕ) hk
    have hwork := Tally.total_eraseIdx (fun left => 3 * left + 1) hk
    simp only [work, threads, hcount, ManagerEvent.isThread, if_true]
    omega
  | stop => exact absurd rfl hstop
  | interrupt k =>
    obtain ⟨i, hk, -, ⟨c, hc, rfl⟩ | ⟨-, rfl⟩⟩ := step_interrupt hstep
    · have hset := Tally.total_set Consumer.work c.interrupt hc
      have hone := c.work_interrupt
      have hstops := Tally.total_set (StopCall.work m.threads) (.interrupting (i + 1)) hk
      -- the thread is one of those there are
      have hlt := (List.getElem?_eq_some_iff.mp hc).1
      simp only [StopCall.work, threads] at hstops
      simp only [work, threads, setConsumer, List.length_set, ManagerEvent.isThread, if_true]
      omega
    · have hstops := Tally.total_set (StopCall.work m.threads)
        (.joining m.consumerThreadGroup_.length) hk
      simp only [StopCall.work, threads] at hstops
      simp only [work, threads, ManagerEvent.isThread, if_true]
      omega
  | stopReturns k =>
    obtain ⟨n, hk, -, rfl, -⟩ := step_stopReturns hstep
    have hstops := Tally.total_eraseIdx (StopCall.work m.threads) hk
    simp only [StopCall.work, threads] at hstops
    simp only [work, threads, ManagerEvent.isThread, if_true]
    omega

end LatencyStatManager

/-! ## What the events of the threads leave -/

/-- `c'` is the thread `c` later on. -/
structure Consumer.Later (c c' : Consumer) : Prop where
  interrupted : c.interruptRequested = true → c'.interruptRequested = true
  finished : c.pc = .finished → c'.pc = .finished

theorem Consumer.Later.refl (c : Consumer) : c.Later c := ⟨id, id⟩

/-- A thread that has not ended goes on, and has not forgotten an interruption. -/
theorem Consumer.Later.of_ne {c d : Consumer} (hpc : c.pc ≠ .finished)
    (hsame : d.interruptRequested = c.interruptRequested) : c.Later d :=
  ⟨fun h => hsame.trans h, fun h => absurd h hpc⟩

/-- The threads of `l` are in `l'`, later on. -/
def ThreadsStay (l l' : List Consumer) : Prop :=
  ∀ (j : ℕ) (c : Consumer), l[j]? = some c → ∃ c', l'[j]? = some c' ∧ c.Later c'

theorem ThreadsStay.refl (l : List Consumer) : ThreadsStay l l := fun _ c hc => ⟨c, hc, .refl c⟩

theorem ThreadsStay.set {l : List Consumer} {i : ℕ} {c d : Consumer} (hc : l[i]? = some c)
    (hd : c.Later d) : ThreadsStay l (l.set i d) := by
  intro j x hx
  rw [List.getElem?_set]
  split_ifs with hij hlt
  · subst hij
    obtain rfl : c = x := Option.some.inj (hc.symm.trans hx)
    exact ⟨d, rfl, hd⟩
  · subst hij
    exact absurd (List.getElem?_eq_some_iff.mp hc).1 hlt
  · exact ⟨x, hx, .refl x⟩

/-- The first `n` threads have been interrupted. -/
def FirstInterrupted (n : ℕ) (l : List Consumer) : Prop :=
  n ≤ l.length ∧ ∀ (j : ℕ) (c : Consumer), j < n → l[j]? = some c → c.interruptRequested = true

/-- Threads that were interrupted stay so. -/
theorem FirstInterrupted.stay {n : ℕ} {l l' : List Consumer} (h : FirstInterrupted n l)
    (hstay : ThreadsStay l l') : FirstInterrupted n l' := by
  have hlater : ∀ j < n, ∃ c, l'[j]? = some c ∧ c.interruptRequested = true := by
    intro j hj
    have hget := List.getElem?_eq_getElem (l := l) (i := j) (lt_of_lt_of_le hj h.1)
    obtain ⟨c, hc, hlater⟩ := hstay j _ hget
    exact ⟨c, hc, hlater.interrupted (h.2 j _ hj hget)⟩
  constructor
  · by_contra hlt
    obtain ⟨c, hc, -⟩ := hlater (n - 1) (by omega)
    have hlast := (List.getElem?_eq_some_iff.mp hc).1
    omega
  · intro j c hj hc
    obtain ⟨d, hd, hreq⟩ := hlater j hj
    obtain rfl : d = c := Option.some.inj (hd.symm.trans hc)
    exact hreq

/-- How the calls of `stop` go on. -/
inductive StopsGoOn (e : ManagerEvent) (m m' : LatencyStatManager) : Prop
  | same (he : ∀ k, e ≠ .stopReturns k) (h : m'.stops = m.stops)
  | stop (he : e = .stop) (h : m'.stops = m.stops ++ [.interrupting 0])
  | interrupt (k i : ℕ) (he : e = .interrupt k) (hk : m.stops[k]? = some (.interrupting i))
      (h : m'.stops = m.stops.set k (.interrupting (i + 1)))
  | interruptDone (k i : ℕ) (he : e = .interrupt k) (hk : m.stops[k]? = some (.interrupting i))
      (hi : m.consumerThreadGroup_[i]? = none)
      (h : m'.stops = m.stops.set k (.joining m.consumerThreadGroup_.length))
  | stopReturns (k n : ℕ) (he : e = .stopReturns k) (hk : m.stops[k]? = some (.joining n))
      (hall : ∀ c ∈ m.consumerThreadGroup_.take n, c.pc = .finished)
      (hsame : m'.consumerThreadGroup_ = m.consumerThreadGroup_)
      (h : m'.stops = m.stops.eraseIdx k)

/-- What an event leaves of a manager. -/
structure GoesOn (e : ManagerEvent) (m m' : LatencyStatManager) : Prop where
  isAlive : e ≠ .start → e ≠ .stop → m'.isAlive_ = m.isAlive_
  allocated : (∀ stat, e ≠ .onLatencyUpdate stat) → m'.allocated = m.allocated
  threads : ThreadsStay m.consumerThreadGroup_ m'.consumerThreadGroup_
  starts : e ≠ .start → m.starts = [] →
    m'.starts = [] ∧ m'.consumerThreadGroup_.length = m.consumerThreadGroup_.length
  count : e ≠ .start → m'.threads = m.threads
  stops : StopsGoOn e m m'

namespace LatencyStatManager

variable {m m' : LatencyStatManager} {e : ManagerEvent} {eff : StatEffect}

/-- An event that leaves the threads and the calls of `start` and `stop` as they are. -/
theorem goesOn_of_eq (he : ∀ k, e ≠ .stopReturns k) (halive : m'.isAlive_ = m.isAlive_)
    (hallocated : (∀ stat, e ≠ .onLatencyUpdate stat) → m'.allocated = m.allocated)
    (hgroup : m'.consumerThreadGroup_ = m.consumerThreadGroup_) (hstarts : m'.starts = m.starts)
    (hstops : m'.stops = m.stops) : GoesOn e m m' := by
  refine ⟨fun _ _ => halive, hallocated, ?_, ?_, ?_, .same he hstops⟩
  · rw [hgroup]
    exact ThreadsStay.refl _
  · intro _ hnone
    rw [hgroup]
    exact ⟨hstarts.trans hnone, rfl⟩
  · intro _
    rw [threads, threads, hgroup, hstarts]

/-- One thread moves, and the queue and the updates under way may change. -/
theorem goesOn_of_set {i : ℕ} {c d : Consumer} (hc : m.consumerThreadGroup_[i]? = some c)
    (hd : c.Later d) (halive : m'.isAlive_ = m.isAlive_) (hallocated : m'.allocated = m.allocated)
    (hgroup : m'.consumerThreadGroup_ = m.consumerThreadGroup_.set i d)
    (hstarts : m'.starts = m.starts) (hstops : StopsGoOn e m m') : GoesOn e m m' := by
  refine ⟨fun _ _ => halive, fun _ => hallocated, ?_, ?_, ?_, hstops⟩
  · rw [hgroup]
    exact ThreadsStay.set hc hd
  · intro _ hnone
    rw [hgroup]
    exact ⟨hstarts.trans hnone, List.length_set⟩
  · intro _
    rw [threads, threads, hgroup, hstarts, List.length_set]

/-- **Step lemma.** -/
theorem step_goesOn (hstep : m.step e = some (m', eff)) : GoesOn e m m' := by
  have hthreads := ThreadsStay.refl m.consumerThreadGroup_
  cases e with
  | setReqHandler =>
    cases hstep
    exact goesOn_of_eq nofun rfl (fun _ => rfl) rfl rfl rfl
  | onLatencyUpdate stat =>
    cases hstep
    unfold onLatencyUpdate
    split_ifs <;> exact goesOn_of_eq nofun rfl (fun h => absurd rfl (h stat)) rfl rfl rfl
  | push k woken =>
    obtain ⟨stat, consumers, hk, hnotify, rfl, -⟩ := step_push hstep
    rcases notifyOne_cases hnotify with ⟨rfl, -⟩ | ⟨i, c, hc, hpc, rfl⟩
    · exact goesOn_of_eq nofun rfl (fun _ => rfl) rfl rfl rfl
    · have hwoken : c.Later c.wake := .of_ne (by rw [hpc]; decide) rfl
      exact goesOn_of_set hc hwoken rfl rfl rfl rfl (.same nofun rfl)
  | loopTest i =>
    obtain ⟨c, hc, hpc, rfl, -⟩ := step_loopTest hstep
    have hlater : c.Later (c.loopTest m.isAlive_) := .of_ne (by rw [hpc]; decide) rfl
    exact goesOn_of_set hc hlater rfl rfl rfl rfl (.same nofun rfl)
  | take i =>
    obtain ⟨c, hc, hpc, rfl, -⟩ := step_take hstep
    have hlater : c.Later (c.takeSection m.latencyStatQ_).1 := by
      refine .of_ne ?_ ?_
      · rcases hpc with hpc | hpc <;> rw [hpc] <;> decide
      · rcases c.takeSection_eq m.latencyStatQ_ with ⟨-, heq⟩ | ⟨-, -, heq⟩ | ⟨stat, rest, -, heq⟩
        all_goals rw [heq]
    exact goesOn_of_set hc hlater rfl rfl rfl rfl (.same nofun rfl)
  | wake i =>
    obtain ⟨c, hc, hpc, rfl, -⟩ := step_wake hstep
    have hlater : c.Later c.wake := .of_ne (by rw [hpc]; decide) rfl
    exact goesOn_of_set hc hlater rfl rfl rfl rfl (.same nofun rfl)
  | addStat i =>
    obtain ⟨c, stat, hc, hpc, rfl, -⟩ := step_addStat hstep
    have hlater : c.Later { c with pc := .loopTest } := .of_ne (by rw [hpc]; nofun) rfl
    exact goesOn_of_set hc hlater rfl rfl rfl rfl (.same nofun rfl)
  | start =>
    cases hstep
    exact ⟨fun h => absurd rfl h, fun _ => rfl, hthreads, fun h => absurd rfl h,
      fun h => absurd rfl h, .same nofun rfl⟩
  | createThread k =>
    obtain ⟨n, hk, rfl, -⟩ := step_createThread hstep
    refine ⟨fun _ _ => rfl, fun _ => rfl, ?_, ?_, ?_, .same nofun rfl⟩
    · intro j c hc
      refine ⟨c, ?_, .refl c⟩
      rw [List.getElem?_append_left (List.getElem?_eq_some_iff.mp hc).1]
      exact hc
    · intro _ hstarts
      rw [hstarts] at hk
      cases hk
    · intro _
      have hcount := Tally.total_set (id : ℕ → ℕ) n hk
      simp only [id] at hcount
      simp only [threads, List.length_append, List.length_singleton]
      omega
  | startReturns k =>
    obtain ⟨hk, rfl, -⟩ := step_startReturns hstep
    refine ⟨fun _ _ => rfl, fun _ => rfl, hthreads, ?_, ?_, .same nofun rfl⟩
    · intro _ hstarts
      rw [hstarts] at hk
      cases hk
    · intro _
      have hcount : Tally.total id (m.starts.eraseIdx k) = Tally.total id m.starts :=
        Tally.total_eraseIdx (id : ℕ → ℕ) hk
      simp only [threads, hcount]
  | stop =>
    cases hstep
    exact ⟨fun _ h => absurd rfl h, fun _ => rfl, hthreads, fun _ hstarts => ⟨hstarts, rfl⟩,
      fun _ => rfl, .stop rfl rfl⟩
  | interrupt k =>
    obtain ⟨i, hk, -, ⟨c, hc, rfl⟩ | ⟨hnone, rfl⟩⟩ := step_interrupt hstep
    · have hlater : c.Later c.interrupt := by
        refine ⟨fun _ => rfl, fun h => ?_⟩
        simp [Consumer.interrupt, h]
      exact goesOn_of_set hc hlater rfl rfl rfl rfl (.interrupt k i rfl hk rfl)
    · exact ⟨fun _ _ => rfl, fun _ => rfl, hthreads, fun _ hstarts => ⟨hstarts, rfl⟩,
        fun _ => rfl, .interruptDone k i rfl hk hnone rfl⟩
  | stopReturns k =>
    obtain ⟨n, hk, hall, rfl, -⟩ := step_stopReturns hstep
    exact ⟨fun _ _ => rfl, fun _ => rfl, hthreads, fun _ hstarts => ⟨hstarts, rfl⟩,
      fun _ => rfl, .stopReturns k n rfl hk hall rfl rfl⟩

/-! ## Somebody can go on -/

/-- The threads that a call of `stop` waits for have been interrupted. -/
def JoinsInterrupted (m : LatencyStatManager) : Prop :=
  ∀ n, .joining n ∈ m.stops → FirstInterrupted n m.consumerThreadGroup_

/-- **Step lemma**, from where `interrupt_all` has been. -/
theorem joinsInterrupted_step (h : JoinsInterrupted m) (hwakes : WakesUp m)
    (hstep : m.step e = some (m', eff)) : JoinsInterrupted m' := by
  obtain ⟨-, -, hthreads, -, -, hstops⟩ := step_goesOn hstep
  have hold : ∀ n, .joining n ∈ m.stops → FirstInterrupted n m'.consumerThreadGroup_ :=
    fun n hn => (h n hn).stay hthreads
  intro n hn
  cases hstops with
  | same he hsame =>
    rw [hsame] at hn
    exact hold n hn
  | stop he hsame =>
    rw [hsame] at hn
    rcases List.mem_append.mp hn with hn | hn
    · exact hold n hn
    · cases List.mem_singleton.mp hn
  | interrupt k i he hk hsame =>
    rw [hsame] at hn
    rcases List.mem_or_eq_of_mem_set hn with hn | hn
    · exact hold n hn
    · cases hn
  | interruptDone k i he hk hi hsame =>
    rw [hsame] at hn
    rcases List.mem_or_eq_of_mem_set hn with hn | hn
    · exact hold n hn
    · -- `interrupt_all` has reached all of them
      cases hn
      have hlength := List.getElem?_eq_none_iff.mp hi
      have hall : FirstInterrupted m.consumerThreadGroup_.length m.consumerThreadGroup_ :=
        ⟨le_rfl, fun j c hj hc =>
          hwakes.reached i (List.mem_of_getElem? hk) j (by omega) c hc⟩
      exact hall.stay hthreads
  | stopReturns k n' he hk hall hsame' hsame =>
    rw [hsame] at hn
    exact hold n (List.mem_of_mem_eraseIdx hn)

/-- A thread that neither waits nor has ended can go on. -/
theorem exists_step_of_awake {c : Consumer} {i : ℕ} (hc : m.consumerThreadGroup_[i]? = some c)
    (hawake : c.awake = true) : ∃ e, e.isThread = true ∧ (m.step e).isSome = true := by
  have hpc : c.pc ≠ .waiting ∧ c.pc ≠ .finished := of_decide_eq_true hawake
  cases hat : c.pc with
  | loopTest => exact ⟨.loopTest i, rfl, by simp [step, hc, hat]⟩
  | queueTest => exact ⟨.take i, rfl, by simp [step, hc, hat]⟩
  | waiting => exact absurd hat hpc.1
  | notified => exact ⟨.take i, rfl, by simp [step, hc, hat]⟩
  | holding stat => exact ⟨.addStat i, rfl, by simp [step, hc, hat]⟩
  | finished => exact absurd hat hpc.2

/-- So can a call of `onLatencyUpdate` that has its stat to push. -/
theorem exists_step_of_update (h : m.updates ≠ []) :
    ∃ e, e.isThread = true ∧ (m.step e).isSome = true := by
  obtain ⟨stat, rest, hupdates⟩ := List.exists_cons_of_ne_nil h
  by_cases hwaiting : SomeWaiting m.consumerThreadGroup_
  · obtain ⟨c, hc, hpc⟩ := hwaiting
    obtain ⟨i, hi⟩ := List.mem_iff_getElem?.mp hc
    exact ⟨.push 0 (some i), rfl, by simp [step, hupdates, notifyOne, hi, hpc]⟩
  · have hnone : ¬ (m.consumerThreadGroup_.any fun c => c.pc = .waiting) = true := by
      intro hany
      obtain ⟨c, hc, hpc⟩ := List.any_eq_true.mp hany
      exact hwaiting ⟨c, hc, of_decide_eq_true hpc⟩
    exact ⟨.push 0 none, rfl, by simp only [step, hupdates, notifyOne, if_neg hnone]; rfl⟩

/-- So can a call of `start`. -/
theorem exists_step_of_start (h : m.starts ≠ []) :
    ∃ e, e.isThread = true ∧ (m.step e).isSome = true := by
  obtain ⟨left, rest, hstarts⟩ := List.exists_cons_of_ne_nil h
  cases left with
  | zero => exact ⟨.startReturns 0, rfl, by simp [step, hstarts]⟩
  | succ left => exact ⟨.createThread 0, rfl, by simp [step, hstarts]⟩

/-- And a call of `stop`, or a thread it waits for. -/
theorem exists_step_of_stop (hwakes : WakesUp m) (hjoins : JoinsInterrupted m)
    (h : m.stops ≠ []) : ∃ e, e.isThread = true ∧ (m.step e).isSome = true := by
  obtain ⟨x, rest, hstops⟩ := List.exists_cons_of_ne_nil h
  cases x with
  | interrupting i =>
    refine ⟨.interrupt 0, rfl, ?_⟩
    cases hi : m.consumerThreadGroup_[i]? <;> simp [step, hstops, hi]
  | joining n =>
    by_cases hall : (m.consumerThreadGroup_.take n).all fun c => c.pc = .finished
    · refine ⟨.stopReturns 0, rfl, ?_⟩
      simp only [step, hstops, List.getElem?_cons_zero, hall, if_true]
      rfl
    · -- a thread that has not ended, and cannot wait since it was interrupted
      rw [Bool.not_eq_true, List.all_eq_false] at hall
      obtain ⟨c, hc, hpc⟩ := hall
      obtain ⟨j, hj⟩ := List.mem_iff_getElem?.mp hc
      rw [List.getElem?_take] at hj
      split_ifs at hj with hjn
      have hreq := (hjoins n (by rw [hstops]; exact List.mem_cons_self)).2 j c hjn hj
      refine exists_step_of_awake hj (decide_eq_true ⟨?_, ?_⟩)
      · exact hwakes.interrupted c (List.mem_of_getElem? hj) hreq
      · exact fun hfinished => hpc (decide_eq_true hfinished)

end LatencyStatManager

/-! ## `stop` -/

/-- The call returns when the first `threads` threads have ended, not before. -/
def StopCall.Ends (threads : ℕ) : StopCall → Prop
  | .interrupting _ => True
  | .joining n => n = threads

/-- The place that an event leaves to the call of `stop` in place `k`; none if it is the
return of this call. -/
def ManagerEvent.placeOfCall (k : ℕ) : ManagerEvent → Option ℕ
  | .stopReturns j => if j < k then some (k - 1) else if j = k then none else some k
  | _ => some k

/-- Only the return of a call moves the others up. -/
theorem ManagerEvent.placeOfCall_of_ne {e : ManagerEvent} (he : ∀ j, e ≠ .stopReturns j) (k : ℕ) :
    e.placeOfCall k = some k := by
  cases e with
  | stopReturns j => exact absurd rfl (he j)
  | _ => rfl

namespace LatencyStatManager

variable {m m' : LatencyStatManager} {e : ManagerEvent} {eff : StatEffect} {k : ℕ}

/-- The call of `stop` in place `k` waits for all threads. -/
def WaitsForAll (m : LatencyStatManager) (k : ℕ) : Prop :=
  ∃ x, m.stops[k]? = some x ∧ x.Ends m.consumerThreadGroup_.length

/-- What a call of `stop` that no call of `start` overlaps is about: as long as it has a
place it waits for all threads, and then they have ended. -/
def Ending (m : LatencyStatManager) : Option ℕ → Prop
  | some k => m.starts = [] ∧ m.WaitsForAll k
  | none => m.starts = [] ∧ m.AllFinished

/-- Threads that have ended stay so. -/
theorem allFinished_of_stay (h : m.AllFinished)
    (hstay : ThreadsStay m.consumerThreadGroup_ m'.consumerThreadGroup_)
    (hlength : m'.consumerThreadGroup_.length = m.consumerThreadGroup_.length) :
    m'.AllFinished := by
  intro d hd
  obtain ⟨j, hj, rfl⟩ := List.mem_iff_getElem.mp hd
  have hget := List.getElem?_eq_getElem (l := m.consumerThreadGroup_) (i := j) (by omega)
  obtain ⟨d', hd', hlater⟩ := hstay j _ hget
  rw [List.getElem?_eq_getElem hj] at hd'
  rw [Option.some.inj hd']
  exact hlater.finished (h _ (List.getElem_mem _))

/-- The call that interrupts goes on, and the others are as they were. -/
theorem WaitsForAll.set {j : ℕ} {x y : StopCall} (h : m.WaitsForAll k) (hj : m.stops[j]? = some y)
    (hstops : m'.stops = m.stops.set j x)
    (hlength : m'.consumerThreadGroup_.length = m.consumerThreadGroup_.length)
    (hx : x.Ends m.consumerThreadGroup_.length) : m'.WaitsForAll k := by
  obtain ⟨z, hz, hends⟩ := h
  unfold WaitsForAll
  rw [hstops, hlength, List.getElem?_set]
  split_ifs with hjk hlt
  · exact ⟨x, rfl, hx⟩
  · exact absurd (List.getElem?_eq_some_iff.mp hj).1 hlt
  · exact ⟨z, hz, hends⟩

/-- The call in place `j` returns: either it is this one, and all threads have ended, or
this one waits on. -/
theorem WaitsForAll.stopReturns {j n : ℕ} (h : m.WaitsForAll k)
    (hj : m.stops[j]? = some (.joining n))
    (hall : ∀ c ∈ m.consumerThreadGroup_.take n, c.pc = .finished)
    (hgroup : m'.consumerThreadGroup_ = m.consumerThreadGroup_)
    (hstops : m'.stops = m.stops.eraseIdx j) (hstarts : m'.starts = []) :
    m'.Ending ((ManagerEvent.stopReturns j).placeOfCall k) := by
  obtain ⟨x, hx, hends⟩ := h
  have hother : ∀ i, m'.stops[i]? = some x → m'.WaitsForAll i := by
    intro i hi
    exact ⟨x, hi, by rw [hgroup]; exact hends⟩
  show m'.Ending (if j < k then some (k - 1) else if j = k then none else some k)
  split_ifs with hlt heq
  · refine ⟨hstarts, hother (k - 1) ?_⟩
    rw [hstops, List.getElem?_eraseIdx_of_ge (by omega), Nat.sub_add_cancel (by omega)]
    exact hx
  · -- this call has joined all of them
    subst heq
    rw [hj] at hx
    cases hx
    have hn : n = m.consumerThreadGroup_.length := hends
    rw [hn, List.take_length] at hall
    refine ⟨hstarts, fun c hc => hall c ?_⟩
    rw [← hgroup]
    exact hc
  · refine ⟨hstarts, hother k ?_⟩
    rw [hstops, List.getElem?_eraseIdx_of_lt (by omega)]
    exact hx

/-- **Step lemma**, as long as `start` is not called. -/
theorem ending_step (h : m.Ending (some k)) (hstart : e ≠ .start)
    (hstep : m.step e = some (m', eff)) : m'.Ending (e.placeOfCall k) := by
  obtain ⟨hnone, hwaits⟩ := h
  obtain ⟨-, -, -, hstarts, -, hstops⟩ := step_goesOn hstep
  obtain ⟨hstarts', hlength⟩ := hstarts hstart hnone
  cases hstops with
  | same he hsame =>
    obtain ⟨x, hx, hends⟩ := hwaits
    rw [e.placeOfCall_of_ne he]
    exact ⟨hstarts', x, by rw [hsame]; exact hx, by rw [hlength]; exact hends⟩
  | stop he hsame =>
    obtain ⟨x, hx, hends⟩ := hwaits
    subst he
    refine ⟨hstarts', x, ?_, by rw [hlength]; exact hends⟩
    rw [hsame, List.getElem?_append_left (List.getElem?_eq_some_iff.mp hx).1]
    exact hx
  | interrupt j i he hj hsame =>
    subst he
    exact ⟨hstarts', hwaits.set hj hsame hlength trivial⟩
  | interruptDone j i he hj hi hsame =>
    subst he
    exact ⟨hstarts', hwaits.set hj hsame hlength rfl⟩
  | stopReturns j n he hj hall hgroup hsame =>
    subst he
    exact hwaits.stopReturns hj hall hgroup hsame hstarts'

/-- When the call has returned, the threads have ended for good. -/
theorem ended_step (h : m.Ending none) (hstart : e ≠ .start)
    (hstep : m.step e = some (m', eff)) : m'.Ending none := by
  obtain ⟨hnone, hall⟩ := h
  obtain ⟨-, -, hthreads, hstarts, -, -⟩ := step_goesOn hstep
  obtain ⟨hstarts', hlength⟩ := hstarts hstart hnone
  exact ⟨hstarts', allFinished_of_stay hall hthreads hlength⟩

/-- Threads that have ended or wait hold nothing. -/
theorem inHand_eq_zero_of_asleep (h : ∀ c ∈ m.consumerThreadGroup_, c.awake = false) :
    m.inHand = 0 := by
  apply Tally.total_eq_zero
  intro c hc
  apply Consumer.hand_of_not_holding
  intro stat hpc
  have hasleep := h c hc
  simp [Consumer.awake, hpc] at hasleep

end LatencyStatManager

/-! ## The pipeline -/

/-- An event that a thread of the manager brings about by going on. -/
def PipelineEvent.isThread : PipelineEvent → Bool
  | .manager e => e.isThread
  | .request _ _ _ => false

/-- The place that an event leaves to the call of `stop` in place `k`. -/
def PipelineEvent.placeOfCall (k : ℕ) : PipelineEvent → Option ℕ
  | .manager e => e.placeOfCall k
  | .request _ _ _ => some k

/-- The events of the threads that an event brings at most. -/
def PipelineEvent.brings (isAlive_ : Bool) : PipelineEvent → ℕ
  | .manager e => e.brings isAlive_
  | .request _ _ _ => 0

/-- Nobody calls `start` or `stop`. -/
def LeftAlone (_ : StatPipeline) (e : PipelineEvent) : Prop :=
  e.isStart = false ∧ e.isStop = false

/-- The threads go on, and nothing else happens. -/
def OnlyThreads (_ : StatPipeline) (e : PipelineEvent) : Prop := e.isThread = true

instance : DecidableRel LeftAlone := fun _ e =>
  inferInstanceAs (Decidable (e.isStart = false ∧ e.isStop = false))

instance : DecidableRel OnlyThreads := fun _ e => inferInstanceAs (Decidable (e.isThread = true))

namespace StatPipeline

variable {n : ℕ} {docRoot : Bytes} {s s' : StatPipeline} {es : List PipelineEvent}

/-- Nobody calls `start` or `stop`. -/
theorem ne_of_leftAlone {e : ManagerEvent} (h : LeftAlone s (.manager e)) :
    e ≠ .start ∧ e ≠ .stop := by
  constructor
  · rintro rfl
    exact Bool.noConfusion h.1
  · rintro rfl
    exact Bool.noConfusion h.2

variable {e : PipelineEvent}

/-- **Step lemma**, for the pipeline. -/
theorem work_step (hP : LeftAlone s e) (hstep : s.step e = some s') :
    s'.manager.work + (if e.isThread then 1 else 0)
      ≤ s.manager.work + e.brings s.manager.isAlive_ := by
  cases e with
  | manager e =>
    obtain ⟨m, eff, hm, rfl⟩ := step_manager hstep
    rw [apply_manager]
    exact LatencyStatManager.work_step (ne_of_leftAlone hP).1 (ne_of_leftAlone hP).2 hm
  | request env req rep =>
    rw [step_request hstep]
    exact le_rfl

/-- **Run lemma.**  As long as nobody calls `start` or `stop`, the threads do what work
there was and what is brought. -/
theorem work_run {isAlive_ : Bool} (halive : s.manager.isAlive_ = isAlive_)
    (h : Runs step LeftAlone s es s') :
    es.countP PipelineEvent.isThread + s'.manager.work
      ≤ s.manager.work + Tally.total (PipelineEvent.brings isAlive_) es := by
  rw [← Tally.total_indicator]
  refine h.amortized (I := fun s => s.manager.isAlive_ = isAlive_)
    (μ := fun s => s.manager.work) halive ?_ ?_
  · intro s e s' hs hP hstep
    refine manager_step (J := fun m => m.isAlive_ = isAlive_) ?_ hs hP hstep
    intro s e m eff hs hP hm
    have hne := ne_of_leftAlone hP
    exact ((LatencyStatManager.step_goesOn hm).isAlive hne.1 hne.2).trans hs
  · intro s e s' hs hP hstep
    have hwork := work_step hP hstep
    rw [hs] at hwork
    exact hwork

/-- The threads call neither `start` nor `stop`. -/
theorem leftAlone_of_onlyThreads (h : OnlyThreads s e) : LeftAlone s e := by
  cases e with
  | request env req rep => exact ⟨rfl, rfl⟩
  | manager e =>
    cases e with
    | start => cases h
    | stop => cases h
    | _ => exact ⟨rfl, rfl⟩

/-- If only the threads go on, the work becomes less. -/
theorem work_lt (hP : OnlyThreads s e) (hstep : s.step e = some s') :
    s'.manager.work < s.manager.work := by
  have hwork := work_step (leftAlone_of_onlyThreads hP) hstep
  have hnothing : e.brings s.manager.isAlive_ = 0 := by
    cases e with
    | request env req rep => rfl
    | manager e =>
      cases e with
      | onLatencyUpdate stat => cases hP
      | wake i => cases hP
      | _ => rfl
  rw [if_pos (show e.isThread = true from hP), hnothing] at hwork
  omega

/-! ## `stop` returns -/

/-- In every run, the threads that `stop` waits for have been interrupted and woken. -/
theorem joinsInterrupted_run {P : StatPipeline → PipelineEvent → Prop}
    (h : Runs step P (initial n docRoot) es s) :
    s.manager.WakesUp ∧ s.manager.JoinsInterrupted := by
  have hinitial : (LatencyStatManager.new n).WakesUp :=
    wakesUp_run (Runs.nil (P := P) (initial n docRoot))
  refine manager_run (J := fun m => m.WakesUp ∧ m.JoinsInterrupted) h
    ⟨hinitial, fun _ hn => absurd hn List.not_mem_nil⟩ ?_
  intro s e m eff hm _ hstep
  exact ⟨LatencyStatManager.wakesUp_step hm.1 hstep,
    LatencyStatManager.joinsInterrupted_step hm.2 hm.1 hstep⟩

/-- In a pipeline that has not ended, what the manager can do the pipeline can do. -/
theorem exists_step_of_manager (hcrashed : s.crashed = false)
    (h : ∃ e : ManagerEvent, e.isThread = true ∧ (s.manager.step e).isSome = true) :
    ∃ e : PipelineEvent, e.isThread = true ∧ (s.step e).isSome = true := by
  obtain ⟨e, hthread, hsome⟩ := h
  obtain ⟨⟨m, eff⟩, hm⟩ := Option.isSome_iff_exists.mp hsome
  refine ⟨.manager e, hthread, ?_⟩
  rw [step_of_manager hcrashed hm]
  rfl

/-- At rest no thread can go on. -/
theorem not_exists_step_of_atRest (hcrashed : s.crashed = false)
    (hrest : AtRest step OnlyThreads s) :
    ¬ ∃ e : ManagerEvent, e.isThread = true ∧ (s.manager.step e).isSome = true := by
  intro hex
  obtain ⟨e, hthread, hsome⟩ := exists_step_of_manager hcrashed hex
  rw [hrest e hthread] at hsome
  cases hsome

/-- The place of a call of `stop` after the events `es`; none if it has returned. -/
def callAfter (k : ℕ) (es : List PipelineEvent) : Option ℕ := es.foldlM PipelineEvent.placeOfCall k

/-- A call is followed event by event. -/
theorem callAfter_concat (k : ℕ) (es : List PipelineEvent) (e : PipelineEvent) :
    callAfter k (es ++ [e]) = (callAfter k es).bind fun k' => e.placeOfCall k' := by
  unfold callAfter
  rw [List.foldlM_append]
  congr 1
  funext k'
  rw [List.foldlM_cons]
  exact bind_pure _

/-- **Run lemma.**  A call of `stop` is followed through a run, where nobody calls `start`. -/
theorem ending_run {k : ℕ} (hending : s.manager.Ending (some k)) (h : Runs step LeftAlone s es s') :
    s'.manager.Ending (callAfter k es) := by
  refine h.trace (R := fun es s => s.manager.Ending (callAfter k es)) hending ?_
  intro es s₁ e s₂ _ hs₁ hP hstep
  rw [callAfter_concat]
  cases e with
  | manager e =>
    obtain ⟨m, eff, hm, rfl⟩ := step_manager hstep
    rw [apply_manager]
    cases hcall : callAfter k es with
    | some k' => exact LatencyStatManager.ending_step (hcall ▸ hs₁) (ne_of_leftAlone hP).1 hm
    | none => exact LatencyStatManager.ended_step (hcall ▸ hs₁) (ne_of_leftAlone hP).1 hm
  | request env req rep =>
    have hsame : ((callAfter k es).bind fun k' =>
        (PipelineEvent.request env req rep).placeOfCall k') = callAfter k es := by
      cases callAfter k es <;> rfl
    rw [step_request hstep, hsame]
    exact hs₁

/-- **`stop` returns.**  Whatever the threads were doing when `stop` was called, while no
call of `start` was under way: as long as nobody calls `start` or `stop` again, the
threads have a bounded number of events left, apart from wake-ups without a reason and
the tests of the queue they bring; as long as this call is under way, or another one, one
of these events is enabled, unless a null handler was dereferenced; and from when this
call has returned all threads have ended and hold nothing. -/
theorem stop_returns (n : ℕ) (docRoot : Bytes) (es : List PipelineEvent) (s₀ s : StatPipeline)
    (hrun : Runs step anyStep (initial n docRoot) es s₀) (hstarts : s₀.manager.starts = [])
    (hstop : s₀.step (.manager .stop) = some s) (es' : List PipelineEvent) (s' : StatPipeline)
    (hrest : Runs step LeftAlone s es' s') :
    es'.countP PipelineEvent.isThread + s'.manager.work
        ≤ s.manager.work + Tally.total (PipelineEvent.brings false) es'
      ∧ ((callAfter s₀.manager.stops.length es').isSome = true → s'.manager.stops ≠ [])
      ∧ (s'.manager.stops ≠ [] → s'.crashed = false →
        ∃ e : PipelineEvent, e.isThread = true ∧ (s'.step e).isSome = true)
      ∧ (callAfter s₀.manager.stops.length es' = none →
        s'.manager.AllFinished ∧ s'.manager.inHand = 0) := by
  have hcalled : s.manager.isAlive_ = false
      ∧ s.manager.Ending (some s₀.manager.stops.length) := by
    obtain ⟨m, eff, hm, rfl⟩ := step_manager hstop
    cases hm
    exact ⟨rfl, hstarts, .interrupting 0, List.getElem?_concat_length, trivial⟩
  obtain ⟨halive, hending⟩ := hcalled
  have hall : Runs step anyStep (initial n docRoot) (es ++ [.manager .stop] ++ es') s' :=
    (Runs.snoc hrun trivial hstop).append (hrest.mono fun _ _ _ => trivial)
  have hending' := ending_run hending hrest
  refine ⟨work_run halive hrest, ?_, ?_, ?_⟩
  · intro hcall
    obtain ⟨k, hk⟩ := Option.isSome_iff_exists.mp hcall
    rw [hk] at hending'
    obtain ⟨-, x, hx, -⟩ := hending'
    exact List.ne_nil_of_mem (List.mem_of_getElem? hx)
  · intro hstops hcrashed
    obtain ⟨hwakes, hjoins⟩ := joinsInterrupted_run hall
    exact exists_step_of_manager hcrashed
      (LatencyStatManager.exists_step_of_stop hwakes hjoins hstops)
  · intro hreturned
    rw [hreturned] at hending'
    obtain ⟨-, hfinished⟩ := hending'
    refine ⟨hfinished, LatencyStatManager.inHand_eq_zero_of_asleep ?_⟩
    intro c hc
    simp [Consumer.awake, hfinished c hc]

/-- A consumer waits and another one holds a stat when `stop` is called. -/
def busyAtStop : List PipelineEvent :=
  [.manager .setReqHandler, .manager .start, .manager (.createThread 0),
    .manager (.createThread 0), .manager (.startReturns 0), .manager (.loopTest 0),
    .manager (.take 0), .manager (.loopTest 1),
    .manager (.onLatencyUpdate ⟨str "1", 897669200000, 4⟩), .manager (.push 0 (some 0)),
    .manager (.take 1), .manager (.take 0)]

/-- `interrupt_all` reaches both, the second one adds its stat, and both end. -/
def stopped : List PipelineEvent :=
  [.manager (.interrupt 0), .manager (.interrupt 0), .manager (.interrupt 0),
    .manager (.addStat 1), .manager (.take 0), .manager (.loopTest 1),
    .manager (.stopReturns 0)]

theorem busyAtStop_runs : (run step anyStep (initial 2 []) busyAtStop).isSome = true := by
  decide +kernel

theorem busyAtStop_stop :
    (((run step anyStep (initial 2 []) busyAtStop).get busyAtStop_runs).step
      (.manager .stop)).isSome = true := by
  decide +kernel

theorem stopped_runs :
    (run step LeftAlone ((((run step anyStep (initial 2 []) busyAtStop).get busyAtStop_runs).step
      (.manager .stop)).get busyAtStop_stop) stopped).isSome = true := by
  decide +kernel

/-- Then this call has returned, and both threads have ended. -/
theorem stop_returns_stopped :
    ((run step LeftAlone ((((run step anyStep (initial 2 []) busyAtStop).get
      busyAtStop_runs).step (.manager .stop)).get busyAtStop_stop)
      stopped).get stopped_runs).manager.AllFinished :=
  ((stop_returns 2 [] busyAtStop _ _ (runs_get busyAtStop_runs) (by decide +kernel)
    (Option.some_get busyAtStop_stop).symm stopped _ (runs_get stopped_runs)).2.2.2
      (by decide +kernel)).1

/-! ## The pipeline drains -/

/-- No call is under way, nothing is in the queue or in hands, and every stat that was
accepted is in `statQ_` or in a reply. -/
structure Drained (s : StatPipeline) : Prop where
  updates : s.manager.updates = []
  starts : s.manager.starts = []
  stops : s.manager.stops = []
  latencyStatQ : s.manager.latencyStatQ_ = []
  inHand : s.manager.inHand = 0
  accepted : (s.accepted : Multiset LatencyStat.Ptr) = s.reqHandler.statQ_ + s.delivered

instance (s : StatPipeline) : Decidable (Drained s) :=
  decidable_of_iff
    (s.manager.updates = [] ∧ s.manager.starts = [] ∧ s.manager.stops = []
      ∧ s.manager.latencyStatQ_ = [] ∧ s.manager.inHand = 0
      ∧ (s.accepted : Multiset LatencyStat.Ptr) = s.reqHandler.statQ_ + s.delivered)
    ⟨fun ⟨h₁, h₂, h₃, h₄, h₅, h₆⟩ => ⟨h₁, h₂, h₃, h₄, h₅, h₆⟩,
      fun ⟨h₁, h₂, h₃, h₄, h₅, h₆⟩ => ⟨h₁, h₂, h₃, h₄, h₅, h₆⟩⟩

/-- The handler is set when a stat is added, and `start` is called while no call of `stop`
is under way. -/
def WellUsed (s : StatPipeline) (e : PipelineEvent) : Prop := HandlerSet s e ∧ StartsApart s e

instance : DecidableRel WellUsed := fun s e =>
  inferInstanceAs (Decidable (HandlerSet s e ∧ StartsApart s e))

/-- **At rest everything has arrived.** -/
theorem drained_of_atRest (hn : 0 < n) (h : Runs step WellUsed (initial n docRoot) es s)
    (halive : s.manager.isAlive_ = true) (hrest : AtRest step OnlyThreads s) : Drained s := by
  have hcrashed : s.crashed = false := not_crashed_run (h.mono fun _ _ hP => hP.1)
  have hnone := not_exists_step_of_atRest hcrashed hrest
  have hmanned : s.manager.Manned := manned_run hn (h.mono fun _ _ hP => hP.2)
  have hstops := hmanned.stops_eq_nil halive
  have hstarts : s.manager.starts = [] := by
    by_contra hne
    exact hnone (LatencyStatManager.exists_step_of_start hne)
  have hasleep : ∀ c ∈ s.manager.consumerThreadGroup_, c.awake = false := by
    intro c hc
    by_contra hawake
    obtain ⟨i, hi⟩ := List.mem_iff_getElem?.mp hc
    exact hnone (LatencyStatManager.exists_step_of_awake hi (by simpa using hawake))
  have hhand := LatencyStatManager.inHand_eq_zero_of_asleep hasleep
  have hq : s.manager.latencyStatQ_ = [] := by
    -- somebody is there and waits, so the queue has no more stats than awake consumers
    rcases hmanned.someone halive with ⟨c, hc, -, hfinished⟩ | ⟨left, hleft, -⟩
    · have hwaiting : c.pc = .waiting := by
        by_contra hpc
        have hawake : c.awake = true := decide_eq_true ⟨hpc, hfinished⟩
        rw [hasleep c hc] at hawake
        cases hawake
      have hnot : NotInterrupting s.manager.stops := by
        rw [hstops]
        exact fun i hi => absurd hi List.not_mem_nil
      have hle := length_le_awake (h.mono fun _ _ _ => trivial) hnot ⟨c, hc, hwaiting⟩
      have hzero : s.manager.consumerThreadGroup_.countP Consumer.awake = 0 :=
        List.countP_eq_zero.mpr fun c hc => by rw [hasleep c hc]; exact Bool.false_ne_true
      exact List.length_eq_zero_iff.mp (by omega)
    · rw [hstarts] at hleft
      cases hleft
  refine ⟨?_, hstarts, hstops, hq, hhand, ?_⟩
  · by_contra hne
    exact hnone (LatencyStatManager.exists_step_of_update hne)
  · have hconserved : (s.accepted : Multiset LatencyStat.Ptr)
        = s.manager.latencyStatQ_ + s.manager.inHand + s.reqHandler.statQ_ + s.delivered :=
      conserved_run (h.mono fun _ _ hP => hP.1)
    rw [hconserved, hq, hhand]
    simp

/-- While nobody calls `start` or `stop`, the manager stays alive and has its handler. -/
theorem leftAlone_step (hset : s.manager.reqHandlerSet = true) (halive : s.manager.isAlive_ = true)
    (hP : LeftAlone s e) (hstep : s.step e = some s') :
    s'.manager.reqHandlerSet = true ∧ s'.manager.isAlive_ = true := by
  refine manager_step (J := fun m => m.reqHandlerSet = true ∧ m.isAlive_ = true)
    (P := LeftAlone) ?_ ⟨hset, halive⟩ hP hstep
  intro s e m eff hs hP hm
  have hne := ne_of_leftAlone hP
  exact ⟨(LatencyStatManager.step_keeps hm).2.1 hs.1,
    ((LatencyStatManager.step_goesOn hm).isAlive hne.1 hne.2).trans hs.2⟩

/-- So the conditions on the calls keep being met. -/
theorem wellUsed_of_leftAlone (hset : s.manager.reqHandlerSet = true)
    (halive : s.manager.isAlive_ = true) (h : Runs step LeftAlone s es s') :
    Runs step WellUsed s es s' ∧ s'.manager.isAlive_ = true := by
  have hkeep : ∀ (s : StatPipeline) (e : PipelineEvent) (s' : StatPipeline),
      s.manager.reqHandlerSet = true ∧ s.manager.isAlive_ = true → LeftAlone s e →
      s.step e = some s' → s'.manager.reqHandlerSet = true ∧ s'.manager.isAlive_ = true :=
    fun _ _ _ hs hP hstep => leftAlone_step hs.1 hs.2 hP hstep
  refine ⟨h.strengthen ⟨hset, halive⟩ hkeep ?_, (h.invariant ⟨hset, halive⟩ hkeep).2⟩
  intro s e s' hs hP _
  exact ⟨fun _ _ => hs.1, fun hstart => by rw [hP.1] at hstart; cases hstart⟩

/-- Whenever the threads come to rest in a manager that is alive and was left alone,
everything has arrived. -/
theorem drained_of_leftAlone (hn : 0 < n) (hrun : Runs step WellUsed (initial n docRoot) es s)
    (hset : s.manager.reqHandlerSet = true) (halive : s.manager.isAlive_ = true)
    {es' : List PipelineEvent} (h : Runs step LeftAlone s es' s')
    (hrest : AtRest step OnlyThreads s') : Drained s' := by
  obtain ⟨hused, halive'⟩ := wellUsed_of_leftAlone hset halive h
  exact drained_of_atRest hn (hrun.append hused) halive' hrest

/-- And the threads do come to rest. -/
theorem exists_drained (hn : 0 < n) (hrun : Runs step WellUsed (initial n docRoot) es s)
    (hset : s.manager.reqHandlerSet = true) (halive : s.manager.isAlive_ = true) :
    ∃ es' s', Runs step OnlyThreads s es' s' ∧ AtRest step OnlyThreads s' ∧ Drained s' := by
  obtain ⟨es', s', hes', hs'⟩ := exists_rest (I := fun _ => True) (fun _ _ _ _ _ _ => trivial)
    (fun _ _ _ _ hP hstep => work_lt hP hstep) trivial
  exact ⟨es', s', hes', hs', drained_of_leftAlone hn hrun hset halive
    (hes'.mono fun _ _ => leftAlone_of_onlyThreads) hs'⟩

/-- **The pipeline drains.**  In a manager with at least one consumer that is alive and whose
handler is set, if `start` was only called when no call of `stop` was under way: as long as
nobody calls `start` or `stop`, the threads' events are bounded by the work there is and what
updates and wake-ups bring; whenever the threads are at rest, every update that was accepted
has arrived at the request handler; and if nothing else happens the threads come to rest. -/
theorem drains (n : ℕ) (docRoot : Bytes) (hn : 0 < n) (es : List PipelineEvent)
    (s : StatPipeline) (hrun : Runs step WellUsed (initial n docRoot) es s)
    (hset : s.manager.reqHandlerSet = true) (halive : s.manager.isAlive_ = true) :
    (∀ es' s', Runs step LeftAlone s es' s' →
      es'.countP PipelineEvent.isThread + s'.manager.work
          ≤ s.manager.work + Tally.total (PipelineEvent.brings true) es'
        ∧ (AtRest step OnlyThreads s' → Drained s'))
      ∧ ∃ es' s', Runs step OnlyThreads s es' s' ∧ AtRest step OnlyThreads s' ∧ Drained s' :=
  ⟨fun _ _ h => ⟨work_run halive h, drained_of_leftAlone hn hrun hset halive h⟩,
    exists_drained hn hrun hset halive⟩

/-- A consumer holds an update, and another one is in the queue. -/
def twoUnderWay : List PipelineEvent :=
  [.manager .setReqHandler, .manager .start, .manager (.createThread 0),
    .manager (.startReturns 0), .manager (.loopTest 0),
    .manager (.onLatencyUpdate ⟨str "1", 897669200000, 4⟩), .manager (.push 0 none),
    .manager (.onLatencyUpdate ⟨str "1", 898669200000, 2⟩), .manager (.take 0),
    .manager (.push 0 none)]

theorem twoUnderWay_runs : (run step WellUsed (initial 1 []) twoUnderWay).isSome = true := by
  decide +kernel

/-- The consumer adds both and waits. -/
theorem drains_twoUnderWay :
    ∃ es' s', Runs step OnlyThreads ((run step WellUsed (initial 1 []) twoUnderWay).get
      twoUnderWay_runs) es' s' ∧ AtRest step OnlyThreads s' ∧ Drained s' :=
  (drains 1 [] Nat.one_pos twoUnderWay _ (runs_get twoUnderWay_runs) (by decide +kernel)
    (by decide +kernel)).2

end StatPipeline

end Unichannel
