/-
# The program (ChannelTest.cpp)

`main` makes a manager of two consumers and starts it, makes the server, which sets the
handler, starts the server, feeds seven updates and then sleeps.  Each call is made when
the one before has returned; the consumers, the clients and the page go on in any order
in between and afterwards.  No signal comes that would stop the server, but a reply can fail
to come in.

No interleaving makes a call throw or a consumer dereference null, and the points come at
most one place early (`program_safe`).  When everything has come in and nothing was lost, the
chart shows the last four updates (`final_chart`).
-/
import Unichannel.Dashboard
import Unichannel.NullHandler
import Unichannel.SeveralConsumers

namespace Unichannel

open GuardedSystem FloatFormat

/-! ## `main` -/

/-- The updates; the conversion to `long` drops the fraction of a latency. -/
def mainUpdates : List LatencyStat :=
  [⟨str "1", 897669200000, Int.tdiv 45 10⟩, ⟨str "1", 898669200000, 2⟩,
    ⟨str "1", 899669200000, 8⟩, ⟨str "1", 899769200000, Int.tdiv 12 10⟩,
    ⟨str "1", 899869200000, 5⟩, ⟨str "1", 899969200000, 19⟩,
    ⟨str "1", 899979200000, Int.tdiv 28 10⟩]

/-- The calls. -/
inductive MainCall
  /-- `manager->start()`. -/
  | start
  /-- The constructor of the server, which sets the handler. -/
  | newServer
  /-- `server.start()`. -/
  | serverStart
  /-- `manager->onLatencyUpdate`. -/
  | onLatencyUpdate (stat : LatencyStat)
  deriving DecidableEq, Repr

/-- They, in order. -/
def mainCalls : List MainCall :=
  [.start, .newServer, .serverStart] ++ mainUpdates.map .onLatencyUpdate

/-- What a call is to the manager. -/
def MainCall.event : MainCall → Option ManagerEvent
  | .start => some .start
  | .newServer => some .setReqHandler
  | .serverStart => none
  | .onLatencyUpdate stat => some (.onLatencyUpdate stat)

/-! ## The program -/

/-- The server and the page, and the number of calls `main` has made. -/
structure ChannelTest where
  dashboard : Dashboard
  called : ℕ

/-- The events: the next call of `main`, or anything else. -/
inductive ChannelTestEvent
  | main
  | other (e : DashboardEvent)

/-- The calls from outside, which only `main` makes. -/
def ManagerEvent.isCall : ManagerEvent → Bool
  | .setReqHandler | .onLatencyUpdate _ | .start | .stop => true
  | _ => false

/-- What can happen besides, when `called` calls have been made: the manager's threads go
on, and clients are answered once the server has been started. -/
def DashboardEvent.happens (called : ℕ) : DashboardEvent → Bool
  | .pipeline (.manager e) => !e.isCall
  | .pipeline (.request _ _ _) | .giveMeValues _ _ _ | .updateValues _ _ _ => 3 ≤ called
  | .success _ | .error _ => true

namespace ChannelTest

/-- The pipeline. -/
def pipeline (t : ChannelTest) : StatPipeline := t.dashboard.pipeline

/-- The manager. -/
def manager (t : ChannelTest) : LatencyStatManager := t.pipeline.manager

/-- One event; `none` if it is not enabled. -/
def step (num : ℚ → ℚ) (t : ChannelTest) : ChannelTestEvent → Option ChannelTest
  | .main =>
    -- the call before has returned
    if t.manager.starts = [] ∧ t.manager.updates = [] then
      match mainCalls[t.called]? with
      | some call =>
        match call.event with
        | some e => (t.dashboard.step num (.pipeline (.manager e))).map fun d => ⟨d, t.called + 1⟩
        | none => some ⟨t.dashboard, t.called + 1⟩
      | none => none
    else none
  | .other e =>
    if e.happens t.called then (t.dashboard.step num e).map fun d => ⟨d, t.called⟩ else none

/-- The program when it starts. -/
def initial (docRoot : Bytes) : ChannelTest := ⟨Dashboard.initial 2 docRoot, 0⟩

end ChannelTest

/-! ## What a step does -/

/-- The stat an effect accepts. -/
def StatEffect.accepted : StatEffect → List LatencyStat.Ptr
  | .accepts stat => [stat]
  | _ => []

/-- An effect accepts what it says. -/
theorem StatPipeline.apply_accepted (s : StatPipeline) (eff : StatEffect) :
    (s.apply eff).accepted = s.accepted ++ eff.accepted := by
  cases eff with
  | none => exact (List.append_nil _).symm
  | accepts stat => rfl
  | takes => exact (List.append_nil _).symm
  | adds stat =>
    rw [apply_adds_accepted]
    exact (List.append_nil _).symm

namespace LatencyStatManager

variable {m m' : LatencyStatManager} {e : ManagerEvent} {eff : StatEffect}

/-- Only `onLatencyUpdate` makes stats, and only a push accepts one of them. -/
theorem step_updates (he : e.isCall = false) (hstep : m.step e = some (m', eff)) :
    (eff.accepted ++ m'.updates).Perm m.updates := by
  have hdoes := step_does hstep
  cases eff with
  | none =>
    obtain ⟨-, -, ⟨hupdates, -⟩ | ⟨stat, hupdates, hallocated⟩⟩ := hdoes
    · rw [hupdates]
      exact List.Perm.refl _
    · have hsame := (step_goesOn hstep).allocated fun stat hcall => by
        rw [hcall] at he
        cases he
      omega
  | accepts stat => exact hdoes.2.2.1
  | takes =>
    obtain ⟨-, hupdates, -⟩ := hdoes
    rw [hupdates]
    exact List.Perm.refl _
  | adds stat =>
    obtain ⟨-, ⟨hupdates, -⟩, -, -⟩ := hdoes
    rw [hupdates]
    exact List.Perm.refl _

/-- With one update under way there is no order to lose. -/
theorem step_updates_eq (he : e.isCall = false) (hone : m.updates.length ≤ 1)
    (hstep : m.step e = some (m', eff)) : eff.accepted ++ m'.updates = m.updates := by
  have hperm := step_updates he hstep
  cases hupdates : m.updates with
  | nil =>
    rw [hupdates] at hperm
    exact hperm.eq_nil
  | cons stat rest =>
    obtain rfl : rest = [] := by
      rw [hupdates, List.length_cons] at hone
      exact List.length_eq_zero_iff.mp (by omega)
    rw [hupdates] at hperm
    exact List.perm_singleton.mp hperm

/-- Only the calls of `main` start and stop the manager. -/
theorem ne_of_not_isCall (he : e.isCall = false) : e ≠ .start ∧ e ≠ .stop := by
  constructor <;> rintro rfl <;> cases he

/-- Only `stop` makes a call of `stop`. -/
theorem step_stops (hstep : m.step e = some (m', eff)) (he : e ≠ .stop) (hnone : m.stops = []) :
    m'.stops = [] := by
  cases (step_goesOn hstep).stops with
  | same _ h => rw [h, hnone]
  | stop hstop h => exact absurd hstop he
  | interrupt k i _ hk h =>
    rw [hnone] at hk
    cases hk
  | interruptDone k i _ hk hi h =>
    rw [hnone] at hk
    cases hk
  | stopReturns k n _ hk hall hsame h =>
    rw [hnone] at hk
    cases hk

end LatencyStatManager

namespace ChannelTest

variable {num : ℚ → ℚ} {docRoot : Bytes} {t t' : ChannelTest} {e : ChannelTestEvent}
  {es : List ChannelTestEvent}

/-- The next call of `main` is made when the one before has returned. -/
theorem step_main (hstep : t.step num .main = some t') :
    t.manager.starts = [] ∧ t.manager.updates = [] ∧ t'.called = t.called + 1
      ∧ ∃ call, mainCalls[t.called]? = some call
        ∧ ((call.event = none ∧ t'.dashboard = t.dashboard)
          ∨ ∃ e, call.event = some e
            ∧ t.dashboard.step num (.pipeline (.manager e)) = some t'.dashboard) := by
  simp only [step] at hstep
  split_ifs at hstep with hreturned
  refine ⟨hreturned.1, hreturned.2, ?_⟩
  cases hcall : mainCalls[t.called]? with
  | none =>
    rw [hcall] at hstep
    cases hstep
  | some call =>
    rw [hcall] at hstep
    cases hevent : call.event with
    | none =>
      simp only [hevent] at hstep
      cases hstep
      exact ⟨rfl, call, rfl, Or.inl ⟨hevent, rfl⟩⟩
    | some e =>
      simp only [hevent] at hstep
      obtain ⟨d, hd, rfl⟩ := Option.map_eq_some_iff.mp hstep
      exact ⟨rfl, call, rfl, Or.inr ⟨e, hevent, hd⟩⟩

/-- Whatever else happens leaves `main` where it is. -/
theorem step_other {e : DashboardEvent} (hstep : t.step num (.other e) = some t') :
    e.happens t.called = true ∧ t'.called = t.called
      ∧ t.dashboard.step num e = some t'.dashboard := by
  simp only [step] at hstep
  split_ifs at hstep with hhappens
  obtain ⟨d, hd, rfl⟩ := Option.map_eq_some_iff.mp hstep
  exact ⟨hhappens, rfl, hd⟩

theorem step_of_other {d d' : Dashboard} {called : ℕ} {e : DashboardEvent}
    (hhappens : e.happens called = true) (hstep : d.step num e = some d') :
    step num ⟨d, called⟩ (.other e) = some ⟨d', called⟩ := by
  simp only [step]
  rw [if_pos hhappens, hstep]
  rfl

/-- The calls, by their numbers. -/
theorem mainCalls_cases {called : ℕ} {call : MainCall} (h : mainCalls[called]? = some call) :
    (called = 0 ∧ call = .start) ∨ (called = 1 ∧ call = .newServer)
      ∨ (called = 2 ∧ call = .serverStart)
      ∨ ∃ j stat, called = j + 3 ∧ call = .onLatencyUpdate stat ∧ mainUpdates[j]? = some stat := by
  match called with
  | 0 => exact Or.inl ⟨rfl, (Option.some.inj h).symm⟩
  | 1 => exact Or.inr (Or.inl ⟨rfl, (Option.some.inj h).symm⟩)
  | 2 => exact Or.inr (Or.inr (Or.inl ⟨rfl, (Option.some.inj h).symm⟩))
  | j + 3 =>
    have hget : (mainUpdates.map MainCall.onLatencyUpdate)[j]? = some call := h
    rw [List.getElem?_map] at hget
    obtain ⟨stat, hstat, rfl⟩ := Option.map_eq_some_iff.mp hget
    exact Or.inr (Or.inr (Or.inr ⟨j, stat, rfl, rfl, hstat⟩))

/-! ## The invariant -/

/-- What `main` guarantees to the pipeline. -/
def Used (s : StatPipeline) (e : PipelineEvent) : Prop :=
  FewConsumers 2 s e ∧ StatPipeline.WellUsed s e

/-- What holds when `called` calls have been made. -/
structure MainInv (docRoot : Bytes) (called : ℕ) (s : StatPipeline) : Prop where
  run : ∃ ps, Runs StatPipeline.step Used (StatPipeline.initial 2 docRoot) ps s
  le : called ≤ mainCalls.length
  isAlive : 1 ≤ called → s.manager.isAlive_ = true
  handlerSet : 2 ≤ called → s.manager.reqHandlerSet = true
  handlerOrEmpty : s.manager.HandlerOrEmpty
  threads : s.manager.threads = if called = 0 then 0 else 2
  stops : s.manager.stops = []
  one : s.manager.updates.length ≤ 1
  fed : (s.accepted ++ s.manager.updates).map LatencyStat.Ptr.stat = mainUpdates.take (called - 3)

section Invariant

variable {called : ℕ} {s s' : StatPipeline} {pe : PipelineEvent}

/-- Where the invariant holds the pipeline is used as assumed. -/
theorem MainInv.used (h : MainInv docRoot called s) (hstep : s.step pe = some s') : Used s pe := by
  have hset := StatPipeline.handlerSet_of_handlerOrEmpty h.handlerOrEmpty hstep
  have hfew : s.manager.consumerThreadGroup_.countP Consumer.live ≤ 2 := by
    have hthreads := h.threads
    have hle := List.countP_le_length (p := Consumer.live) (l := s.manager.consumerThreadGroup_)
    unfold LatencyStatManager.threads at hthreads
    split_ifs at hthreads <;> omega
  exact ⟨⟨hset, hfew⟩, hset, fun _ => h.stops⟩

theorem MainInv.snoc (h : MainInv docRoot called s) (hstep : s.step pe = some s') :
    ∃ ps, Runs StatPipeline.step Used (StatPipeline.initial 2 docRoot) ps s' := by
  obtain ⟨ps, hps⟩ := h.run
  exact ⟨_, hps.snoc (h.used hstep) hstep⟩

/-- An update under way was fed, so the handler has been set. -/
theorem MainInv.handlerSet_of_update (h : MainInv docRoot called s)
    (hupdates : s.manager.updates ≠ []) : s.manager.reqHandlerSet = true := by
  apply h.handlerSet
  by_contra hlt
  have hfed := h.fed
  rw [show called - 3 = 0 by omega, List.take_zero, List.map_eq_nil_iff] at hfed
  exact hupdates (List.append_eq_nil_iff.mp hfed).2

/-- The handler is set before there is anything to add to it. -/
theorem MainInv.handlerOrEmpty_step (h : MainInv docRoot called s) {e : ManagerEvent}
    {m : LatencyStatManager} {eff : StatEffect} (hm : s.manager.step e = some (m, eff)) :
    m.HandlerOrEmpty := by
  refine LatencyStatManager.handlerOrEmpty_step h.handlerOrEmpty ?_ hm
  rintro k woken rfl
  obtain ⟨stat, consumers, hk, -⟩ := LatencyStatManager.step_push hm
  exact h.handlerSet_of_update (List.ne_nil_of_mem (List.mem_of_getElem? hk))

/-- **Step lemma**, for what is not a call. -/
theorem mainInv_other (h : MainInv docRoot called s)
    (hcall : ∀ e, pe = .manager e → e.isCall = false) (hstep : s.step pe = some s') :
    MainInv docRoot called s' := by
  have hrun := h.snoc hstep
  cases pe with
  | request env req rep =>
    obtain rfl := StatPipeline.step_request hstep
    exact { h with run := hrun }
  | manager e =>
    have he := hcall e rfl
    have hne := LatencyStatManager.ne_of_not_isCall he
    obtain ⟨m, eff, hm, rfl⟩ := StatPipeline.step_manager hstep
    have hgoes := LatencyStatManager.step_goesOn hm
    have hupdates := LatencyStatManager.step_updates_eq he h.one hm
    refine ⟨hrun, h.le, ?_, ?_, ?_, ?_, ?_, ?_, ?_⟩
    all_goals simp only [StatPipeline.apply_manager, StatPipeline.apply_accepted]
    · exact fun hcalled => (hgoes.isAlive hne.1 hne.2).trans (h.isAlive hcalled)
    · exact fun hcalled => (LatencyStatManager.step_keeps hm).2.1 (h.handlerSet hcalled)
    · exact h.handlerOrEmpty_step hm
    · exact (hgoes.count hne.1).trans h.threads
    · exact LatencyStatManager.step_stops hm hne.2 h.stops
    · have hone := h.one
      rw [← hupdates, List.length_append] at hone
      omega
    · rw [List.append_assoc, hupdates]
      exact h.fed

/-- **Step lemma**, for a call. -/
theorem mainInv_call (h : MainInv docRoot called s) (hupdates : s.manager.updates = [])
    {call : MainCall} (hcall : mainCalls[called]? = some call) {e : ManagerEvent}
    (hevent : call.event = some e) (hstep : s.step (.manager e) = some s') :
    MainInv docRoot (called + 1) s' := by
  have hrun := h.snoc hstep
  obtain ⟨m, eff, hm, rfl⟩ := StatPipeline.step_manager hstep
  have hempty := h.handlerOrEmpty_step hm
  obtain ⟨ps, hps⟩ := h.run
  have hcount := StatPipeline.numOfConsumerThreads_run hps
  have hle : called + 1 ≤ mainCalls.length := (List.getElem?_eq_some_iff.mp hcall).1
  rcases mainCalls_cases hcall with ⟨rfl, rfl⟩ | ⟨rfl, rfl⟩ | ⟨rfl, rfl⟩ | ⟨j, stat, rfl, rfl, hj⟩
  · cases hevent
    cases hm
    have hthreads : s.manager.threads = 0 := h.threads
    refine { h with
      run := hrun
      le := hle
      isAlive := fun _ => rfl
      handlerSet := fun hcalled => absurd hcalled (by omega)
      handlerOrEmpty := hempty
      threads := ?_ }
    show s.manager.consumerThreadGroup_.length
      + Tally.total id (s.manager.starts ++ [s.manager.numOfConsumerThreads_]) = 2
    unfold LatencyStatManager.threads at hthreads
    rw [Tally.total_append, Tally.total_cons, Tally.total_nil, hcount, id]
    omega
  · cases hevent
    cases hm
    exact { h with
      run := hrun
      le := hle
      isAlive := fun _ => h.isAlive le_rfl
      handlerSet := fun _ => rfl
      handlerOrEmpty := hempty }
  · cases hevent
  · cases hevent
    cases hm
    have halive := h.isAlive (by omega)
    have hfed := h.fed
    rw [hupdates, List.append_nil, show j + 3 - 3 = j by omega] at hfed
    unfold LatencyStatManager.onLatencyUpdate at hrun hempty ⊢
    rw [if_pos halive] at hrun hempty ⊢
    refine { h with
      run := hrun
      le := hle
      isAlive := fun _ => halive
      handlerSet := fun _ => h.handlerSet (by omega)
      handlerOrEmpty := hempty
      one := ?_
      fed := ?_ }
    · show (s.manager.updates ++ [_]).length ≤ 1
      rw [hupdates, List.nil_append, List.length_singleton]
    · show (s.accepted ++ (s.manager.updates ++ [_])).map LatencyStat.Ptr.stat = _
      rw [hupdates, List.nil_append, List.map_append, hfed, show j + 3 + 1 - 3 = j + 1 by omega,
        List.take_add_one, hj]
      rfl

end Invariant

/-- **Step lemma.** -/
theorem mainInv_step (h : MainInv docRoot t.called t.pipeline) (hstep : t.step num e = some t') :
    MainInv docRoot t'.called t'.pipeline := by
  cases e with
  | main =>
    obtain ⟨-, hupdates, hcalled, call, hcall, ⟨hevent, hsame⟩ | ⟨e, hevent, hd⟩⟩ := step_main hstep
    · -- `server.start()` is nothing to the manager
      obtain ⟨htwo, rfl⟩ : t.called = 2 ∧ call = .serverStart := by
        rcases mainCalls_cases hcall with ⟨-, rfl⟩ | ⟨-, rfl⟩ | hstart | ⟨j, stat, -, rfl, -⟩
        · cases hevent
        · cases hevent
        · exact hstart
        · cases hevent
      have hpipeline : t'.pipeline = t.pipeline := congrArg Dashboard.pipeline hsame
      rw [htwo] at h hcalled
      rw [hcalled, hpipeline]
      exact { h with
        le := by decide
        isAlive := fun _ => h.isAlive (by omega)
        handlerSet := fun _ => h.handlerSet le_rfl }
    · rw [hcalled]
      obtain ⟨s, hs, hd'⟩ := Option.map_eq_some_iff.mp hd
      have hpipeline : t'.pipeline = s := by rw [pipeline, ← hd']
      rw [hpipeline]
      exact mainInv_call h hupdates hcall hevent hs
  | other e =>
    obtain ⟨hhappens, hcalled, hd⟩ := step_other hstep
    rw [hcalled]
    rcases Dashboard.step_pipeline hd with hsame | ⟨pe, he, hpe⟩
    · rw [pipeline, hsame]
      exact h
    · refine mainInv_other h ?_ hpe
      rintro e' rfl
      cases e with
      | pipeline e =>
        cases he
        simpa [DashboardEvent.happens] using hhappens
      | _ => cases he

/-- **Run lemma.** -/
theorem mainInv_run {P : ChannelTest → ChannelTestEvent → Prop}
    (h : Runs (step num) P (initial docRoot) es t) : MainInv docRoot t.called t.pipeline := by
  refine h.invariant (I := fun t => MainInv docRoot t.called t.pipeline) ?_
    fun t e t' ht _ hstep => mainInv_step ht hstep
  exact ⟨⟨[], Runs.nil _⟩, Nat.zero_le _, fun h => absurd h (Nat.not_succ_le_zero 0),
    fun h => absurd h (Nat.not_succ_le_zero 1), Or.inr ⟨rfl, rfl⟩, rfl, rfl, Nat.zero_le 1,
    rfl⟩

/-- No null handler was dereferenced. -/
theorem MainInv.not_crashed {called : ℕ} {s : StatPipeline} (h : MainInv docRoot called s) :
    s.crashed = false := by
  obtain ⟨ps, hps⟩ := h.run
  exact StatPipeline.not_crashed_run (hps.mono fun _ _ hP => hP.1.1)

/-- The stats that were accepted are the first updates. -/
theorem MainInv.accepted {called : ℕ} {s : StatPipeline} (h : MainInv docRoot called s) :
    s.accepted.map LatencyStat.Ptr.stat <+: mainUpdates := by
  have hfed := h.fed
  rw [List.map_append] at hfed
  exact (List.prefix_append _ _).trans (hfed ▸ List.take_prefix _ _)

/-- **The program is safe.**  In every state of every run, whatever the threads and the
clients do: the program has not ended; the calls of `onLatencyUpdate` have all made their
stats, and these have been accepted in the order of the calls; and the point in place `j`
of those that requests get is one of the first `j + 2` updates. -/
theorem program_safe (num : ℚ → ℚ) (docRoot : Bytes) (es : List ChannelTestEvent)
    (t : ChannelTest) (hrun : Runs (step num) anyStep (initial docRoot) es t) :
    t.pipeline.crashed = false
      ∧ (t.pipeline.accepted ++ t.manager.updates).map LatencyStat.Ptr.stat
        = mainUpdates.take (t.called - 3)
      ∧ ∀ (j : ℕ) (stat : LatencyStat.Ptr), t.pipeline.handedOver[j]? = some stat →
        ∃ i < j + 2, mainUpdates[i]? = some stat.stat := by
  have h := mainInv_run hrun
  obtain ⟨ps, hps⟩ := h.run
  refine ⟨h.not_crashed, h.fed, ?_⟩
  intro j stat hj
  obtain ⟨i, hi, hstat⟩ := (StatPipeline.early_run (hps.mono fun _ _ hP => hP.1)).early j stat hj
  refine ⟨i, hi, ?_⟩
  have hget : (t.pipeline.accepted.map LatencyStat.Ptr.stat)[i]? = some stat.stat := by
    rw [List.getElem?_map, show t.pipeline.accepted[i]? = some stat from hstat]
    rfl
  obtain ⟨rest, hrest⟩ := h.accepted
  rw [← hrest, List.getElem?_append_left]
  · exact hget
  · exact (List.getElem?_eq_some_iff.mp hget).1

/-- Both consumers have popped, and the second one adds its stat first. -/
def overtaking : List ChannelTestEvent :=
  [.main, .other (.pipeline (.manager (.createThread 0))),
    .other (.pipeline (.manager (.createThread 0))),
    .other (.pipeline (.manager (.startReturns 0))), .main, .main, .main,
    .other (.pipeline (.manager (.push 0 none))), .main,
    .other (.pipeline (.manager (.push 0 none))),
    .other (.pipeline (.manager (.loopTest 0))), .other (.pipeline (.manager (.take 0))),
    .other (.pipeline (.manager (.loopTest 1))), .other (.pipeline (.manager (.take 1))),
    .other (.pipeline (.manager (.addStat 1)))]

theorem overtaking_runs :
    (run (step binary64.round) anyStep (initial []) overtaking).isSome = true := by
  decide +kernel

/-- The stat handed over first is that of the second update. -/
theorem program_safe_overtaking :
    ((run (step binary64.round) anyStep (initial []) overtaking).get
        overtaking_runs).pipeline.crashed = false
      ∧ ((run (step binary64.round) anyStep (initial []) overtaking).get
        overtaking_runs).pipeline.handedOver = [⟨1, ⟨str "1", 898669200000, 2⟩⟩]
      ∧ ∃ i < 0 + 2, mainUpdates[i]? = some ⟨str "1", 898669200000, 2⟩ := by
  obtain ⟨hcrashed, -, hearly⟩ :=
    program_safe binary64.round [] overtaking _ (runs_get overtaking_runs)
  have hhanded : ((run (step binary64.round) anyStep (initial []) overtaking).get
      overtaking_runs).pipeline.handedOver = [⟨1, ⟨str "1", 898669200000, 2⟩⟩] := by
    decide +kernel
  exact ⟨hcrashed, hhanded, hearly 0 _ (by rw [hhanded]; rfl)⟩

/-! ## The final chart -/

/-- What the page is drawn with in the end. -/
def finalChart : List ChartPoint :=
  [⟨899769200000, 1⟩, ⟨899869200000, 5⟩, ⟨899969200000, 19⟩, ⟨899979200000, 2⟩]

/-- The points of the updates. -/
def mainPoints : List ChartPoint :=
  mainUpdates.map fun stat => ⟨stat.dateTime_, stat.latencyInMicro_⟩

/-- The numbers of the updates are read as they are written. -/
theorem mainPoints_eq (num : ℚ → ℚ) (hnum : ExactIntegers num) :
    (mainUpdates.map fun stat => (⟨num stat.dateTime_, num stat.latencyInMicro_⟩ : ChartPoint))
      = mainPoints := by
  have hsmall : ∀ stat ∈ mainUpdates,
      |stat.dateTime_| < 2 ^ 53 ∧ |stat.latencyInMicro_| < 2 ^ 53 := by
    decide
  refine List.map_congr_left fun stat hstat => ?_
  rw [hnum _ (hsmall stat hstat).1, hnum _ (hsmall stat hstat).2]

/-- The last four updates are the latest points of all. -/
theorem latest_finalChart (num : ℚ → ℚ) (hnum : ExactIntegers num) :
    LatestWindow.Latest ChartPoint.x (fixedChart num + mainPoints : Multiset ChartPoint)
      finalChart := by
  have hsplit : mainPoints = mainPoints.take 3 ++ finalChart := by decide +kernel
  refine ⟨?_, (fixedChart num ++ mainPoints.take 3 : List ChartPoint), ?_, ?_⟩
  · unfold LatestWindow.InOrder
    rw [← List.pairwise_map]
    decide +kernel
  · rw [Multiset.coe_add, Multiset.coe_add, List.append_assoc, ← hsplit]
  · have hdates : ∀ x ∈ (fixedChart num ++ mainPoints.take 3).map ChartPoint.x,
        ∀ y ∈ finalChart.map ChartPoint.x, x ≤ y := by
      rw [List.map_append, map_x_fixedChart hnum]
      decide +kernel
    intro a ha b hb
    exact hdates _ (List.mem_map_of_mem (Multiset.mem_coe.mp ha)) _ (List.mem_map_of_mem hb)

/-- No two points have the same date. -/
theorem nodup_dates (num : ℚ → ℚ) (hnum : ExactIntegers num) :
    ((fixedChart num ++ mainPoints).map ChartPoint.x).Nodup := by
  rw [List.map_append, map_x_fixedChart hnum]
  decide +kernel

/-- Only the page asks for `updateValues`. -/
def OnlyPageAsks (t : ChannelTest) : ChannelTestEvent → Prop
  | .main => True
  | .other e => OnlyPage t.dashboard e

instance : DecidableRel OnlyPageAsks := fun t e =>
  match e with
  | .main => isTrue trivial
  | .other e => inferInstanceAs (Decidable (OnlyPage t.dashboard e))

/-- The program and the page go on by themselves, while the other clients are quiet and no
reply fails. -/
def ByItself (_ : ChannelTest) : ChannelTestEvent → Prop
  | .main => True
  | .other (.pipeline e) => e.isThread = true
  | .other (.error _) => False
  | .other _ => True

/-- What happens by itself asks for nothing. -/
theorem onlyPageAsks_of_byItself (h : ByItself t e) : OnlyPageAsks t e := by
  cases e with
  | main => trivial
  | other e =>
    cases e with
    | pipeline e =>
      cases e with
      | manager e => trivial
      | request env req rep => cases h
    | _ => trivial

/-- A run of the program is one of its page. -/
theorem dashboard_run (h : Runs (step num) OnlyPageAsks (initial docRoot) es t) :
    ∃ ds, Runs (Dashboard.step num) OnlyPage (Dashboard.initial 2 docRoot) ds t.dashboard := by
  refine h.part ChannelTest.dashboard fun t e t' hP hstep => ?_
  cases e with
  | main =>
    obtain ⟨-, -, -, call, -, ⟨-, hsame⟩ | ⟨e, -, hd⟩⟩ := step_main hstep
    · exact Or.inl hsame
    · exact Or.inr ⟨.pipeline (.manager e), trivial, hd⟩
  | other e => exact Or.inr ⟨e, hP, (step_other hstep).2.2⟩

/-- **When everything has come in**, the chart is the final one. -/
theorem series_of_done (hnum : ExactIntegers num)
    (h : Runs (step num) OnlyPageAsks (initial docRoot) es t)
    (hcalled : t.called = mainCalls.length) (hdone : t.dashboard.Done)
    (hlost : t.dashboard.lost = 0) {series : List ChartPoint}
    (hseries : t.dashboard.series = some series) : series = finalChart := by
  obtain ⟨ds, hds⟩ := dashboard_run h
  obtain ⟨hlength, hlatest⟩ := (Dashboard.charted_of_done hnum hds hdone hlost).chart series hseries
  have hpoints : t.pipeline.accepted.map (ChartPoint.ofStat num) = mainPoints := by
    have hfed := (mainInv_run h).fed
    have hupdates : t.pipeline.manager.updates = [] := hdone.drained.updates
    rw [hupdates, List.append_nil, hcalled, show mainCalls.length - 3 = mainUpdates.length from rfl,
      List.take_length] at hfed
    rw [← mainPoints_eq num hnum, ← hfed, List.map_map]
    rfl
  rw [Multiset.map_coe, show t.dashboard.pipeline.accepted.map (ChartPoint.ofStat num) = mainPoints
    from hpoints] at hlatest
  refine hlatest.unique (latest_finalChart num hnum) hlength ?_
  intro a ha b hb hab
  rw [Multiset.coe_add, Multiset.mem_coe] at ha hb
  exact List.inj_on_of_nodup_map (nodup_dates num hnum) ha hb hab

/-! ### The program gets there -/

/-- What the page does by itself, the program does by itself. -/
theorem runs_of_dashboard {P : Dashboard → DashboardEvent → Prop} {called : ℕ}
    (hP : ∀ d e, P d e → e.happens called = true ∧ ∀ t, ByItself t (.other e)) {d d' : Dashboard}
    {ds : List DashboardEvent} (h : Runs (Dashboard.step num) P d ds d') :
    Runs (step num) ByItself ⟨d, called⟩ (ds.map .other) ⟨d', called⟩ := by
  induction h with
  | nil => exact Runs.nil _
  | @snoc d' d'' ds e h hPe hstep ih =>
    obtain ⟨hhappens, hself⟩ := hP d' e hPe
    rw [List.map_append, List.map_singleton]
    exact ih.snoc (hself _) (step_of_other hhappens hstep)

/-- The threads go on at any time. -/
theorem happens_of_isThread {e : PipelineEvent} (h : e.isThread = true) (called : ℕ) :
    (DashboardEvent.pipeline e).happens called = true := by
  cases e with
  | request env req rep => cases h
  | manager e => cases e <;> first | rfl | cases h

/-- So does the page, once `main` has made three calls. -/
theorem happens_of_unattended {d : Dashboard} {e : DashboardEvent} (h : Dashboard.Unattended d e)
    {called : ℕ} (hcalled : 3 ≤ called) : e.happens called = true := by
  cases e with
  | pipeline e => exact happens_of_isThread h called
  | giveMeValues env req rep => cases h
  | updateValues env req rep => exact decide_eq_true hcalled
  | success k => rfl
  | error k => rfl

/-- No call of `main` is among that. -/
theorem byItself_of_unattended {d : Dashboard} {e : DashboardEvent}
    (h : Dashboard.Unattended d e) (t : ChannelTest) : ByItself t (.other e) := by
  cases e with
  | pipeline e => exact h
  | error k => cases h
  | _ => trivial

/-- Nothing is lost while no reply fails. -/
theorem lost_byItself (hP : ByItself t e) (hstep : t.step num e = some t') :
    t'.dashboard.lost = t.dashboard.lost := by
  have hpipeline : ∀ {pe : PipelineEvent} {d : Dashboard},
      t.dashboard.step num (.pipeline pe) = some d → d.lost = t.dashboard.lost := by
    intro pe d hd
    obtain ⟨s, -, rfl⟩ := Option.map_eq_some_iff.mp hd
    rfl
  cases e with
  | main =>
    obtain ⟨-, -, -, call, -, ⟨-, hsame⟩ | ⟨e, -, hd⟩⟩ := step_main hstep
    · rw [hsame]
    · exact hpipeline hd
  | other e =>
    obtain ⟨-, -, hd⟩ := step_other hstep
    cases e with
    | pipeline e => exact hpipeline hd
    | giveMeValues env req rep =>
      obtain ⟨-, -, s, -, heq⟩ := Dashboard.step_giveMeValues hd
      rw [heq]
    | updateValues env req rep =>
      have hP' : Dashboard.Unattended t.dashboard (.updateValues env req rep) := trivial
      exact Dashboard.lost_unattended hP' hd
    | success k =>
      have hP' : Dashboard.Unattended t.dashboard (.success k) := trivial
      exact Dashboard.lost_unattended hP' hd
    | error k => cases hP

/-- Every call returns. -/
theorem exists_idle (num : ℚ → ℚ) (h : MainInv docRoot t.called t.pipeline) :
    ∃ es' t', Runs (step num) ByItself t es' t' ∧ t'.called = t.called
      ∧ t'.manager.starts = [] ∧ t'.manager.updates = [] := by
  obtain ⟨ps, s, hps, hrest⟩ := exists_rest (I := fun _ => True)
    (P := OnlyThreads) (s := t.pipeline) (fun _ _ _ _ _ _ => trivial)
    (fun _ _ _ _ hP hstep => StatPipeline.work_lt hP hstep) trivial
  have hpage := Dashboard.runs_of_onlyThreads num
    (P := fun _ e => ∃ pe, e = .pipeline pe ∧ pe.isThread = true)
    (fun _ pe hthread => ⟨pe, rfl, hthread⟩) hps t.dashboard
  have hrun : Runs (step num) ByItself t ((ps.map .pipeline).map .other)
      ⟨{ t.dashboard with pipeline := s }, t.called⟩ := by
    refine runs_of_dashboard (d := t.dashboard) ?_ hpage
    rintro d e ⟨pe, rfl, hthread⟩
    exact ⟨happens_of_isThread hthread t.called, fun _ => hthread⟩
  have hinv := hrun.invariant (I := fun t => MainInv docRoot t.called t.pipeline) h
    fun t e t' ht _ hstep => mainInv_step ht hstep
  have hnone := StatPipeline.not_exists_step_of_atRest hinv.not_crashed hrest
  refine ⟨_, _, hrun, rfl, ?_, ?_⟩
  · by_contra hne
    exact hnone (LatencyStatManager.exists_step_of_start hne)
  · by_contra hne
    exact hnone (LatencyStatManager.exists_step_of_update hne)

/-- And `main` can make the next one. -/
theorem exists_next (num : ℚ → ℚ) (h : MainInv docRoot t.called t.pipeline)
    (hcalled : t.called < mainCalls.length) (hstarts : t.manager.starts = [])
    (hupdates : t.manager.updates = []) :
    ∃ t', t.step num .main = some t' ∧ t'.called = t.called + 1 := by
  have hcall := List.getElem?_eq_getElem hcalled
  have hmanager : ∀ e, mainCalls[t.called].event = some e → (t.manager.step e).isSome = true := by
    intro e he
    rcases mainCalls_cases hcall with ⟨-, heq⟩ | ⟨-, heq⟩ | ⟨-, heq⟩ | ⟨j, stat, -, heq, -⟩
    all_goals rw [heq] at he; cases he
    all_goals rfl
  simp only [step]
  rw [if_pos ⟨hstarts, hupdates⟩, hcall]
  cases hevent : mainCalls[t.called].event with
  | none => exact ⟨⟨t.dashboard, t.called + 1⟩, by simp only [hevent], rfl⟩
  | some e =>
    obtain ⟨⟨m, eff⟩, hm⟩ := Option.isSome_iff_exists.mp (hmanager e hevent)
    have hd : (t.dashboard.step num (.pipeline (.manager e))).isSome = true := by
      rw [Dashboard.step, Option.isSome_map]
      rw [show t.dashboard.pipeline.step (.manager e) = _ from
        StatPipeline.step_of_manager h.not_crashed hm]
      rfl
    obtain ⟨d, hd⟩ := Option.isSome_iff_exists.mp hd
    refine ⟨⟨d, t.called + 1⟩, ?_, rfl⟩
    simp only [hevent, hd]
    rfl

/-- So it makes all of them. -/
theorem exists_called (num : ℚ → ℚ) (h : MainInv docRoot t.called t.pipeline) (left : ℕ)
    (hleft : t.called + left = mainCalls.length) :
    ∃ es' t', Runs (step num) ByItself t es' t' ∧ t'.called = mainCalls.length := by
  induction left generalizing t with
  | zero => exact ⟨[], t, Runs.nil t, hleft⟩
  | succ left ih =>
    obtain ⟨es₁, t₁, hidle, hcalled₁, hstarts, hupdates⟩ := exists_idle num h
    have h₁ := hidle.invariant (I := fun t => MainInv docRoot t.called t.pipeline) h
      fun t e t' ht _ hstep => mainInv_step ht hstep
    obtain ⟨t₂, hmain, hcalled₂⟩ := exists_next num h₁ (by omega) hstarts hupdates
    obtain ⟨es₃, t₃, hrest, hcalled₃⟩ := ih (mainInv_step h₁ hmain) (by omega)
    exact ⟨_, t₃, hidle.append (Runs.cons (show ByItself t₁ .main from trivial) hmain hrest),
      hcalled₃⟩

/-- The page can have its chart. -/
theorem exists_series (num : ℚ → ℚ) (h : MainInv docRoot t.called t.pipeline)
    (hcalled : 3 ≤ t.called) :
    ∃ es' t', Runs (step num) ByItself t es' t' ∧ t'.called = t.called
      ∧ t'.dashboard.series ≠ none := by
  by_cases hseries : t.dashboard.series = none
  · have hroute : route (str "/giveMeValues") = .giveMeValues := by decide +kernel
    have hd : (t.dashboard.step num (.giveMeValues ⟨fun _ _ => [], fun _ => none⟩
        ⟨str "GET", str "/giveMeValues", 1, 0, []⟩ ⟨.ok, [], []⟩)).isSome = true := by
      rw [Dashboard.step, if_pos ⟨hseries, hroute⟩, Option.isSome_map]
      rw [show t.dashboard.pipeline.step _ = _ from
        StatPipeline.step_request_eq h.not_crashed _ _ _]
      rfl
    obtain ⟨d, hd⟩ := Option.isSome_iff_exists.mp hd
    obtain ⟨-, -, s, -, rfl⟩ := Dashboard.step_giveMeValues hd
    exact ⟨_, _, Runs.single (show ByItself t (.other (.giveMeValues _ _ _)) from trivial)
      (step_of_other (d := t.dashboard) (decide_eq_true hcalled) hd), rfl, fun h => by cases h⟩
  · exact ⟨[], t, Runs.nil t, rfl, hseries⟩

end ChannelTest

end Unichannel
