/-
# The null handler

A consumer calls `reqHandler_->addStat` without a test, and `onLatencyUpdate` asks for
`isAlive_` only, so an update that is queued before `setReqHandler` makes a consumer
dereference null.  No other call order does: if the handler is set whenever a stat is
pushed, the program goes on, and a stat pushed before that can end it
(`no_null_dereference`).
-/
import Unichannel.Conservation

namespace Unichannel

open GuardedSystem

/-! ## Call orders -/

/-- The stat of a call of `onLatencyUpdate`. -/
def PipelineEvent.update : PipelineEvent → Option LatencyStat
  | .manager (.onLatencyUpdate stat) => some stat
  | _ => none

/-- The call of `onLatencyUpdate` that pushes. -/
def PipelineEvent.pushes : PipelineEvent → Option ℕ
  | .manager (.push k _) => some k
  | _ => none

/-- `onLatencyUpdate` does not throw: it is only called while the manager is alive. -/
def NoThrow (s : StatPipeline) (e : PipelineEvent) : Prop :=
  ∀ _stat ∈ e.update, s.manager.isAlive_ = true

/-- When a stat is pushed, the handler has been set. -/
def PushedToHandler (s : StatPipeline) (e : PipelineEvent) : Prop :=
  ∀ _k ∈ e.pushes, s.manager.reqHandlerSet = true

instance : DecidableRel NoThrow := fun s e =>
  inferInstanceAs (Decidable (∀ _stat ∈ e.update, s.manager.isAlive_ = true))

instance : DecidableRel PushedToHandler := fun s e =>
  inferInstanceAs (Decidable (∀ _k ∈ e.pushes, s.manager.reqHandlerSet = true))

namespace LatencyStatManager

variable {m m' : LatencyStatManager} {e : ManagerEvent} {eff : StatEffect}

/-- The handler is set, or there is nothing that could be handed over to it. -/
def HandlerOrEmpty (m : LatencyStatManager) : Prop :=
  m.reqHandlerSet = true ∨ (m.latencyStatQ_ = [] ∧ m.inHand = 0)

/-- **Step lemma.** -/
theorem handlerOrEmpty_step (h : HandlerOrEmpty m)
    (hpush : ∀ k woken, e = .push k woken → m.reqHandlerSet = true)
    (hstep : m.step e = some (m', eff)) : HandlerOrEmpty m' := by
  rcases h with hset | ⟨hq, hhand⟩
  · exact Or.inl ((step_keeps hstep).2.1 hset)
  · have hdoes := step_does hstep
    have heffect := step_effect hstep
    cases eff with
    | none =>
      obtain ⟨hq', hhand', -⟩ := hdoes
      exact Or.inr ⟨hq'.trans hq, hhand'.trans hhand⟩
    | accepts stat =>
      obtain ⟨k, woken, heq⟩ := heffect
      exact Or.inl ((step_keeps hstep).2.1 (hpush k woken heq))
    | takes =>
      obtain ⟨⟨stat, hq', -⟩, -, -⟩ := hdoes
      rw [hq] at hq'
      cases hq'
    | adds stat =>
      obtain ⟨⟨-, hhand'⟩, -, -, -⟩ := hdoes
      rw [hhand] at hhand'
      exact absurd hhand'.symm Multiset.cons_ne_zero

end LatencyStatManager

namespace StatPipeline

variable {n : ℕ} {docRoot : Bytes} {s s' : StatPipeline} {e : PipelineEvent}

/-! ## The handler is set in time -/

/-- A stat that is handed over is in hands, so then the handler is set. -/
theorem handlerSet_of_handlerOrEmpty (h : s.manager.HandlerOrEmpty) (hstep : s.step e = some s') :
    HandlerSet s e := by
  intro stat hover
  cases e with
  | request env req rep => cases hover
  | manager e =>
    obtain ⟨m, eff, hm, -⟩ := step_manager hstep
    cases e with
    | addStat i =>
      have hdoes := LatencyStatManager.step_does hm
      obtain ⟨c, stat', -, -, -, rfl⟩ := LatencyStatManager.step_addStat hm
      obtain ⟨⟨-, hhand⟩, -, -, -⟩ := hdoes
      refine h.resolve_right ?_
      rintro ⟨-, hempty⟩
      rw [hempty] at hhand
      exact absurd hhand.symm Multiset.cons_ne_zero
    | _ => cases hover

/-- If the handler is set whenever a stat is pushed, it is set whenever one is added. -/
theorem handlerSet_of_pushedToHandler {es : List PipelineEvent}
    (h : Runs step PushedToHandler (initial n docRoot) es s) :
    Runs step HandlerSet (initial n docRoot) es s := by
  refine manager_strengthen h (Or.inr ⟨rfl, rfl⟩) ?_ fun _ _ _ hs _ hstep =>
    handlerSet_of_handlerOrEmpty hs hstep
  intro s e m eff hm hP hstep
  refine LatencyStatManager.handlerOrEmpty_step hm ?_ hstep
  rintro k woken rfl
  exact hP k rfl

end StatPipeline

/-! ## A stat that is pushed too early -/

namespace LatencyStatManager

/-- The manager after `start` was called. -/
def started (m : LatencyStatManager) : LatencyStatManager :=
  { m with isAlive_ := true, starts := m.starts ++ [m.numOfConsumerThreads_] }

/-- The manager after that call has created a thread, which is now at `pc`, with `q` in
the queue. -/
def withNewThread (m : LatencyStatManager) (pc : ConsumerPc) (q : List LatencyStat.Ptr) :
    LatencyStatManager :=
  { m with
    latencyStatQ_ := q
    isAlive_ := true
    consumerThreadGroup_ := m.consumerThreadGroup_ ++ [⟨pc, false⟩]
    starts := m.starts ++ [m.numOfConsumerThreads_ - 1] }

variable (m : LatencyStatManager)

/-- `start` is never refused. -/
theorem step_start : m.step .start = some (m.started, .none) := rfl

/-- The call of `start` makes a thread. -/
theorem started_createThread (hn : 0 < m.numOfConsumerThreads_) :
    m.started.step (.createThread m.starts.length)
      = some (m.withNewThread .loopTest m.latencyStatQ_, .none) := by
  obtain ⟨p, hp⟩ := Nat.exists_eq_succ_of_ne_zero (Nat.ne_of_gt hn)
  simp [step, started, withNewThread, Consumer.new, hp]

/-- The new thread finds the manager alive. -/
theorem withNewThread_loopTest (q : List LatencyStat.Ptr) :
    (m.withNewThread .loopTest q).step (.loopTest m.consumerThreadGroup_.length)
      = some (m.withNewThread .queueTest q, .none) := by
  simp [step, setConsumer, withNewThread, Consumer.loopTest]

/-- It takes the front of the queue. -/
theorem withNewThread_take (stat : LatencyStat.Ptr) (rest : List LatencyStat.Ptr) :
    (m.withNewThread .queueTest (stat :: rest)).step (.take m.consumerThreadGroup_.length)
      = some (m.withNewThread (.holding stat) rest, .takes) := by
  simp [step, setConsumer, withNewThread, Consumer.takeSection]

theorem withNewThread_addStat (stat : LatencyStat.Ptr) (q : List LatencyStat.Ptr) :
    (m.withNewThread (.holding stat) q).step (.addStat m.consumerThreadGroup_.length)
      = some (m.withNewThread .loopTest q, .adds stat) := by
  simp [step, setConsumer, withNewThread]

end LatencyStatManager

namespace StatPipeline

variable {n : ℕ} {docRoot : Bytes} {s s' : StatPipeline} {e : PipelineEvent}

/-- Only a call of `onLatencyUpdate` can throw. -/
theorem noThrow_of_update (h : e.update = none) : NoThrow s e := by
  intro stat hstat
  rw [h] at hstat
  cases hstat

/-- Adding a stat to a null handler ends the program. -/
theorem apply_adds_of_null (hnull : s.manager.reqHandlerSet = false) (stat : LatencyStat.Ptr) :
    s.apply (.adds stat) = { s with crashed := true } :=
  if_neg (by rw [hnull]; exact Bool.false_ne_true)

/-- Without a handler, a stat in the queue can end the program: a new consumer takes the
front and adds it. -/
theorem exists_crash (hcrashed : s.crashed = false) (hnull : s.manager.reqHandlerSet = false)
    (hn : 0 < s.manager.numOfConsumerThreads_) (hq : s.manager.latencyStatQ_ ≠ []) :
    ∃ es s', Runs step NoThrow s es s' ∧ s'.crashed = true := by
  obtain ⟨stat, rest, hq⟩ := List.exists_cons_of_ne_nil hq
  have hcreate := s.manager.started_createThread hn
  rw [hq] at hcreate
  have hadd : ({ s with manager := s.manager.withNewThread (.holding stat) rest } :
        StatPipeline).step (.manager (.addStat s.manager.consumerThreadGroup_.length))
      = some { s with manager := s.manager.withNewThread .loopTest rest, crashed := true } := by
    rw [step_of_manager (s := { s with manager := s.manager.withNewThread (.holding stat) rest })
      hcrashed (s.manager.withNewThread_addStat stat rest)]
    exact congrArg some (apply_adds_of_null
      (s := { s with manager := s.manager.withNewThread .loopTest rest }) hnull stat)
  refine ⟨_, _, Runs.cons (noThrow_of_update rfl) (step_of_manager hcrashed s.manager.step_start)
    (Runs.cons (noThrow_of_update rfl) (step_of_manager hcrashed hcreate)
    (Runs.cons (noThrow_of_update rfl)
      (step_of_manager hcrashed (s.manager.withNewThread_loopTest (stat :: rest)))
    (Runs.cons (noThrow_of_update rfl)
      (step_of_manager hcrashed (s.manager.withNewThread_take stat rest))
    (Runs.single (noThrow_of_update rfl) hadd)))), rfl⟩

/-- The number of threads is that of the constructor. -/
theorem numOfConsumerThreads_run {P : StatPipeline → PipelineEvent → Prop}
    {es : List PipelineEvent} (h : Runs step P (initial n docRoot) es s) :
    s.manager.numOfConsumerThreads_ = n :=
  manager_run (J := fun m => m.numOfConsumerThreads_ = n) h rfl
    fun _ _ _ _ hm _ hstep => (LatencyStatManager.step_keeps hstep).1.trans hm

/-- A push without a handler leaves a stat in the queue, and no handler. -/
theorem of_not_pushedToHandler (hnot : ¬ PushedToHandler s e) (hstep : s.step e = some s') :
    s'.crashed = false ∧ s'.manager.reqHandlerSet = false ∧ s'.manager.latencyStatQ_ ≠ [] := by
  obtain ⟨k, hk, hnull⟩ : ∃ k, e.pushes = some k ∧ s.manager.reqHandlerSet = false := by
    by_contra hnone
    refine hnot fun k hk => ?_
    by_contra hnull
    exact hnone ⟨k, hk, Bool.eq_false_iff.mpr hnull⟩
  have hcrashed := not_crashed_of_step hstep
  cases e with
  | request env req rep => cases hk
  | manager e =>
    cases e with
    | push k' woken =>
      obtain ⟨m, eff, hm, rfl⟩ := step_manager hstep
      obtain ⟨stat, consumers, -, -, rfl, rfl⟩ := LatencyStatManager.step_push hm
      exact ⟨hcrashed, hnull, List.append_ne_nil_of_right_ne_nil _ (List.cons_ne_nil stat [])⟩
    | _ => cases hk

/-- **When no null handler is dereferenced.**  In every run in which the handler is set
whenever a stat is pushed, no consumer dereferences null; and after any other push in a
run without a throw the program can go on, without a throw, until one does. -/
theorem no_null_dereference (n : ℕ) (docRoot : Bytes) :
    (∀ es s, Runs step PushedToHandler (initial n docRoot) es s → s.crashed = false)
      ∧ (0 < n → ∀ es s e s', Runs step NoThrow (initial n docRoot) es s → s.step e = some s' →
        ¬ PushedToHandler s e → ∃ es' s'', Runs step NoThrow s' es' s'' ∧ s''.crashed = true) := by
  constructor
  · intro es s hrun
    exact not_crashed_run (handlerSet_of_pushedToHandler hrun)
  · intro hn es s e s' hrun hstep hnot
    obtain ⟨hcrashed, hnull, hq⟩ := of_not_pushedToHandler hnot hstep
    have hrun' : Runs step anyStep (initial n docRoot) (es ++ [e]) s' :=
      Runs.snoc (hrun.mono fun _ _ _ => trivial) trivial hstep
    exact exists_crash hcrashed hnull (by rw [numOfConsumerThreads_run hrun']; exact hn) hq

/-- A consumer is started, the handler is set, and an update is pushed and added. -/
def handlerFirst : List PipelineEvent :=
  [.manager .start, .manager (.createThread 0), .manager .setReqHandler,
    .manager (.onLatencyUpdate ⟨str "1", 897669200000, 4⟩), .manager (.push 0 none),
    .manager (.loopTest 0), .manager (.take 0), .manager (.addStat 0)]

/-- The manager is started, and an update is on its way. -/
def updateFirst : List PipelineEvent :=
  [.manager .start, .manager (.onLatencyUpdate ⟨str "1", 897669200000, 4⟩)]

theorem handlerFirst_runs :
    (run step PushedToHandler (initial 1 []) handlerFirst).isSome = true := by
  decide +kernel

theorem updateFirst_runs : (run step NoThrow (initial 1 []) updateFirst).isSome = true := by
  decide +kernel

theorem updateFirst_push :
    (((run step NoThrow (initial 1 []) updateFirst).get updateFirst_runs).step
      (.manager (.push 0 none))).isSome = true := by
  decide +kernel

/-- With the handler set first the update is added; if the update is pushed first, the
program can end. -/
theorem no_null_dereference_example :
    ((run step PushedToHandler (initial 1 []) handlerFirst).get handlerFirst_runs).crashed = false
      ∧ ∃ es' s'', Runs step NoThrow
        ((((run step NoThrow (initial 1 []) updateFirst).get updateFirst_runs).step
          (.manager (.push 0 none))).get updateFirst_push) es' s''
        ∧ s''.crashed = true :=
  ⟨(no_null_dereference 1 []).1 _ _ (runs_get handlerFirst_runs),
    (no_null_dereference 1 []).2 Nat.one_pos _ _ _ _ (runs_get updateFirst_runs)
      (Option.some_get updateFirst_push).symm (by decide +kernel)⟩

/-- The consumer takes the update and calls `addStat` on null. -/
def nullDereferenced : List PipelineEvent :=
  updateFirst ++ [.manager (.push 0 none), .manager (.createThread 0), .manager (.loopTest 0),
    .manager (.take 0), .manager (.addStat 0)]

theorem nullDereferenced_runs :
    (run step NoThrow (initial 1 []) nullDereferenced).isSome = true := by
  decide +kernel

/-- Without a throw, a consumer can dereference null. -/
theorem not_never_null :
    ¬ ∀ (n : ℕ) (docRoot : Bytes) (es : List PipelineEvent) (s : StatPipeline),
      Runs step NoThrow (initial n docRoot) es s → s.crashed = false := by
  intro h
  have hcrashed := h 1 [] _ _ (runs_get nullDereferenced_runs)
  exact absurd hcrashed (by decide +kernel)

end StatPipeline

end Unichannel
