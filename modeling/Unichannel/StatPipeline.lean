/-
# From an update to a reply

The manager's threads and the request handler together: stats go from
`onLatencyUpdate` through `latencyStatQ_` and the hands of the consumers to
`statQ_`, and from there into the replies to `updateValues`.  `accepted` records
the stats in the order in which they were pushed, and `replies` what was answered.

The pipeline is a `Relay` (`step_relay`).  So no update is lost or duplicated, and
only a request that is routed to `updateValues` removes a stat.
-/
import Unichannel.LatencyStatManager
import Unichannel.Lib.Relay

namespace Unichannel

open GuardedSystem

/-! ## The pipeline -/

/-- A reply of `handle_request`, and the stat whose point it carries, if any. -/
structure Served where
  rep : HttpReply
  point : Option LatencyStat.Ptr
  deriving DecidableEq, Repr

/-- The manager and the handler its `reqHandler_` points to, if it is set; a null
`reqHandler_` that is dereferenced ends the program. -/
structure StatPipeline where
  manager : LatencyStatManager
  reqHandler : HttpReqHandler
  crashed : Bool
  accepted : List LatencyStat.Ptr
  replies : List Served
  deriving DecidableEq, Repr

/-- The events: one of the manager's threads, or a request of the dashboard. -/
inductive PipelineEvent
  | manager (e : ManagerEvent)
  | request (env : Env) (req : HttpRequest) (rep : HttpReply)

/-- The stat a request takes from `statQ_`. -/
def latestPoint (h : HttpReqHandler) (req : HttpRequest) : Option LatencyStat.Ptr :=
  if route req.uri_ = .updateValues then h.statQ_.head? else none

namespace StatPipeline

/-- What an event of the manager does outside of it. -/
def apply (s : StatPipeline) : StatEffect → StatPipeline
  | .none => s
  | .accepts stat => { s with accepted := s.accepted ++ [stat] }
  | .takes => s
  | .adds stat =>
    if s.manager.reqHandlerSet then { s with reqHandler := s.reqHandler.addStat stat }
    else { s with crashed := true }

/-- One event; `none` if it is not enabled. -/
def step (s : StatPipeline) (e : PipelineEvent) : Option StatPipeline :=
  if s.crashed then none
  else
    match e with
    | .manager e =>
      (s.manager.step e).map fun m => ({ s with manager := m.1 } : StatPipeline).apply m.2
    | .request env req rep =>
      let handled := handleRequest env s.reqHandler req rep
      some { s with
        reqHandler := handled.handler
        replies := s.replies ++ [⟨handled.rep, latestPoint s.reqHandler req⟩] }

/-- The pipeline when the program starts. -/
def initial (consumerThreadCount : ℕ) (docRoot : Bytes) : StatPipeline where
  manager := LatencyStatManager.new consumerThreadCount
  reqHandler := ⟨docRoot, []⟩
  crashed := false
  accepted := []
  replies := []

/-- The stats whose points were written into replies, in order. -/
def delivered (s : StatPipeline) : List LatencyStat.Ptr := s.replies.filterMap Served.point

/-- The pipeline as a relay. -/
def relay (s : StatPipeline) : Relay LatencyStat.Ptr where
  accepted := s.accepted
  first := s.manager.latencyStatQ_
  hands := s.manager.inHand
  second := s.reqHandler.statQ_
  out := s.delivered

end StatPipeline

/-! ## What the manager does to the stats -/

namespace Consumer

/-- A consumer that holds no stat has empty hands. -/
theorem hand_of_not_holding {c : Consumer} (h : ∀ stat, c.pc ≠ .holding stat) : c.hand = 0 := by
  unfold hand held
  split
  · rename_i stat hpc
    exact absurd hpc (h stat)
  · rfl

/-- One that holds a stat has it in its hands. -/
theorem hand_of_holding {c : Consumer} {stat : LatencyStat.Ptr} (h : c.pc = .holding stat) :
    c.hand = {stat} := by
  rw [hand, held, h]
  rfl

/-- Waking leaves the hands as they are. -/
theorem hand_wake {c : Consumer} (hpc : c.pc = .waiting) : c.wake.hand = c.hand := by
  rw [hand, hand, held, held, hpc, wake]

theorem hand_loopTest {c : Consumer} (hpc : c.pc = .loopTest) (isAlive_ : Bool) :
    (c.loopTest isAlive_).hand = c.hand := by
  rw [hand, hand, held, held, hpc, loopTest]
  cases isAlive_ <;> rfl

theorem hand_interrupt (c : Consumer) : c.interrupt.hand = c.hand := by
  unfold hand held interrupt
  dsimp only
  split_ifs with hpc
  · rw [hpc]
  · rfl

/-- The locked section pops the front of the queue, or leaves the queue and the
hands as they are. -/
theorem takeSection_cases {c : Consumer} (hpc : c.pc = .queueTest ∨ c.pc = .notified)
    (q : List LatencyStat.Ptr) :
    c.hand = 0
      ∧ (((c.takeSection q).2 = (q, .none) ∧ (c.takeSection q).1.hand = 0)
        ∨ ∃ stat rest, q = stat :: rest ∧ (c.takeSection q).2 = (rest, .takes)
          ∧ (c.takeSection q).1.hand = {stat}) := by
  have hhand : c.hand = 0 := by
    apply hand_of_not_holding
    intro stat hstat
    rcases hpc with h | h <;> rw [h] at hstat <;> cases hstat
  refine ⟨hhand, ?_⟩
  rcases takeSection_eq c q with ⟨-, heq⟩ | ⟨hq, -, heq⟩ | ⟨stat, rest, hq, heq⟩
  · rw [heq]
    exact Or.inl ⟨rfl, rfl⟩
  · rw [heq, hq]
    exact Or.inl ⟨rfl, rfl⟩
  · rw [heq]
    exact Or.inr ⟨stat, rest, hq, rfl, rfl⟩

end Consumer

/-- The stats of the calls of `onLatencyUpdate` under way are as they were, or one
has been made. -/
def Allocates (m m' : LatencyStatManager) : Prop :=
  (m'.updates = m.updates ∧ m'.allocated = m.allocated)
    ∨ ∃ stat, m'.updates = m.updates ++ [⟨m.allocated, stat⟩] ∧ m'.allocated = m.allocated + 1

/-- What an effect of the event `e` says about the manager before and after. -/
def StatEffect.Does (e : ManagerEvent) (m m' : LatencyStatManager) : StatEffect → Prop
  | .none =>
    m'.latencyStatQ_ = m.latencyStatQ_ ∧ m'.inHand = m.inHand ∧ Allocates m m'
  | .accepts stat =>
    m'.latencyStatQ_ = m.latencyStatQ_ ++ [stat] ∧ m'.inHand = m.inHand
      ∧ (stat :: m'.updates).Perm m.updates ∧ m'.allocated = m.allocated
  | .takes =>
    (∃ stat, m.latencyStatQ_ = stat :: m'.latencyStatQ_ ∧ m'.inHand = stat ::ₘ m.inHand)
      ∧ m'.updates = m.updates ∧ m'.allocated = m.allocated
  | .adds stat =>
    (m'.latencyStatQ_ = m.latencyStatQ_ ∧ m.inHand = stat ::ₘ m'.inHand)
      ∧ (m'.updates = m.updates ∧ m'.allocated = m.allocated)
      ∧ m'.reqHandlerSet = m.reqHandlerSet
      ∧ e.handsOver m = some stat

namespace LatencyStatManager

variable {m m' : LatencyStatManager} {i : ℕ} {c₀ c : Consumer}

/-- When a thread moves, its hands are exchanged in the total. -/
theorem inHand_setConsumer (hc : m.consumerThreadGroup_[i]? = some c₀) (c : Consumer) :
    (m.setConsumer i c).inHand + c₀.hand = m.inHand + c.hand :=
  Tally.total_set Consumer.hand c hc

theorem inHand_setConsumer_of_eq (hc : m.consumerThreadGroup_[i]? = some c₀)
    (hhand : c.hand = c₀.hand) : (m.setConsumer i c).inHand = m.inHand :=
  Tally.total_set_of_eq Consumer.hand hc hhand

/-- Waking a thread does not change the hands. -/
theorem total_hand_notifyOne {consumers consumers' : List Consumer} {woken : Option ℕ}
    (h : notifyOne consumers woken = some consumers') :
    Tally.total Consumer.hand consumers' = Tally.total Consumer.hand consumers := by
  rcases notifyOne_cases h with ⟨rfl, -⟩ | ⟨i, c, hc, hpc, rfl⟩
  · rfl
  · exact Tally.total_set_of_eq Consumer.hand hc (Consumer.hand_wake hpc)

/-- **Step lemma**: the effect an event reports is what it does. -/
theorem step_does {e : ManagerEvent} {eff : StatEffect} (hstep : m.step e = some (m', eff)) :
    eff.Does e m m' := by
  have hkept : ∀ m : LatencyStatManager, Allocates m m := fun m => Or.inl ⟨rfl, rfl⟩
  cases e with
  | setReqHandler =>
    cases hstep
    exact ⟨rfl, rfl, hkept m⟩
  | onLatencyUpdate stat =>
    cases hstep
    unfold onLatencyUpdate
    split_ifs with halive
    · exact ⟨rfl, rfl, Or.inr ⟨stat, rfl, rfl⟩⟩
    · exact ⟨rfl, rfl, hkept m⟩
  | push k woken =>
    obtain ⟨stat, consumers, hk, hnotify, rfl, rfl⟩ := step_push hstep
    obtain ⟨hlt, rfl⟩ := List.getElem?_eq_some_iff.mp hk
    exact ⟨rfl, total_hand_notifyOne hnotify, List.getElem_cons_eraseIdx_perm hlt, rfl⟩
  | loopTest i =>
    obtain ⟨c, hc, hpc, rfl, rfl⟩ := step_loopTest hstep
    exact ⟨rfl, inHand_setConsumer_of_eq hc (Consumer.hand_loopTest hpc m.isAlive_), hkept m⟩
  | take i =>
    obtain ⟨c, hc, hpc, rfl, rfl⟩ := step_take hstep
    obtain ⟨hhand, htake⟩ := Consumer.takeSection_cases hpc m.latencyStatQ_
    have hset := inHand_setConsumer hc (c.takeSection m.latencyStatQ_).1
    rw [hhand, add_zero] at hset
    rcases htake with ⟨hrest, hnone⟩ | ⟨stat, rest, hq, hrest, hsome⟩
    · rw [hrest]
      rw [hnone, add_zero] at hset
      exact ⟨rfl, hset, hkept m⟩
    · rw [hrest]
      rw [hsome, add_comm, Multiset.singleton_add] at hset
      exact ⟨⟨stat, hq, hset⟩, rfl, rfl⟩
  | wake i =>
    obtain ⟨c, hc, hpc, rfl, rfl⟩ := step_wake hstep
    exact ⟨rfl, inHand_setConsumer_of_eq hc (Consumer.hand_wake hpc), hkept m⟩
  | addStat i =>
    obtain ⟨c, stat, hc, hpc, rfl, rfl⟩ := step_addStat hstep
    have hset := inHand_setConsumer hc { c with pc := .loopTest }
    rw [Consumer.hand_of_holding hpc] at hset
    refine ⟨⟨rfl, ?_⟩, ⟨rfl, rfl⟩, rfl, ?_⟩
    · rw [← Multiset.singleton_add, add_comm, hset]
      exact (add_zero _).symm
    · rw [ManagerEvent.handsOver, hc, Option.bind_some, Consumer.held, hpc]
  | start =>
    cases hstep
    exact ⟨rfl, rfl, hkept m⟩
  | createThread k =>
    obtain ⟨n, hk, rfl, rfl⟩ := step_createThread hstep
    refine ⟨rfl, ?_, hkept m⟩
    rw [inHand, Tally.total_append]
    exact add_zero _
  | startReturns k =>
    obtain ⟨hk, rfl, rfl⟩ := step_startReturns hstep
    exact ⟨rfl, rfl, hkept m⟩
  | stop =>
    cases hstep
    exact ⟨rfl, rfl, hkept m⟩
  | interrupt k =>
    obtain ⟨i, hk, rfl, ⟨c, hc, rfl⟩ | ⟨hnone, rfl⟩⟩ := step_interrupt hstep
    · exact ⟨rfl, inHand_setConsumer_of_eq (c := c.interrupt) hc c.hand_interrupt, hkept m⟩
    · exact ⟨rfl, rfl, hkept m⟩
  | stopReturns k =>
    obtain ⟨n, hk, -, rfl, rfl⟩ := step_stopReturns hstep
    exact ⟨rfl, rfl, hkept m⟩

end LatencyStatManager

/-! ## What a request does to the stats -/

/-- A request takes the front of `statQ_` if it is routed to `updateValues`, and
then its reply carries this point; otherwise it leaves `statQ_` alone. -/
theorem handleRequest_point (env : Env) (h : HttpReqHandler) (req : HttpRequest)
    (rep : HttpReply) :
    h.statQ_ = (latestPoint h req).toList ++ (handleRequest env h req rep).handler.statQ_
      ∧ ∀ stat ∈ latestPoint h req,
        (handleRequest env h req rep).rep.content_ = pointText stat.stat := by
  rw [handleRequest_eq, latestPoint]
  cases hroute : route req.uri_ with
  | updateValues =>
    rw [if_pos rfl]
    dsimp only
    cases hq : h.statQ_ with
    | nil => simp [HttpReqHandler.getLatestPoint_of_nil hq, hq]
    | cons stat rest =>
      rw [HttpReqHandler.getLatestPoint_of_cons hq]
      refine ⟨rfl, ?_⟩
      intro stat' hstat'
      cases hstat'
      rfl
  | file request_path =>
    rw [if_neg (fun h => Route.noConfusion h)]
    dsimp only
    cases env.openFile (cStr (h.doc_root_ ++ request_path)) with
    | none => exact ⟨rfl, fun _ h => by cases h⟩
    | some file => exact ⟨rfl, fun _ h => by cases h⟩
  | reject => exact ⟨rfl, fun _ h => by cases h⟩
  | page => exact ⟨rfl, fun _ h => by cases h⟩
  | giveMeValues => exact ⟨rfl, fun _ h => by cases h⟩

/-- A request that is not routed to `updateValues` leaves the handler as it is. -/
theorem handleRequest_handler (env : Env) (h : HttpReqHandler) (req : HttpRequest)
    (rep : HttpReply) (hroute : route req.uri_ ≠ .updateValues) :
    (handleRequest env h req rep).handler = h := by
  rw [handleRequest_eq]
  cases hr : route req.uri_ with
  | updateValues => exact absurd hr hroute
  | file request_path =>
    dsimp only
    cases env.openFile (cStr (h.doc_root_ ++ request_path)) <;> rfl
  | reject => rfl
  | page => rfl
  | giveMeValues => rfl

/-- An error reply is not one of `updateValues`. -/
theorem route_ne_of_error {env : Env} {h : HttpReqHandler} {req : HttpRequest} {rep : HttpReply}
    (hstatus : (handleRequest env h req rep).rep.status_ ≠ .ok) :
    route req.uri_ ≠ .updateValues := by
  intro hr
  rw [handleRequest_eq, hr] at hstatus
  exact hstatus rfl

/-! ## The pipeline is a relay -/

/-- The stat that an event adds to the request handler. -/
def PipelineEvent.handsOver (s : StatPipeline) : PipelineEvent → Option LatencyStat.Ptr
  | .manager e => e.handsOver s.manager
  | .request _ _ _ => none

/-- The handler is set before a consumer adds a stat to it. -/
def HandlerSet (s : StatPipeline) (e : PipelineEvent) : Prop :=
  ∀ _stat ∈ e.handsOver s, s.manager.reqHandlerSet = true

instance : DecidableRel HandlerSet := fun s e =>
  inferInstanceAs (Decidable (∀ _stat ∈ e.handsOver s, s.manager.reqHandlerSet = true))

namespace StatPipeline

variable {s s' : StatPipeline} {e : PipelineEvent}

/-! ### What an effect leaves alone -/

/-- An effect leaves the manager alone. -/
@[simp] theorem apply_manager (s : StatPipeline) (eff : StatEffect) :
    (s.apply eff).manager = s.manager := by
  cases eff with
  | adds stat =>
    unfold apply
    dsimp only
    split_ifs <;> rfl
  | _ => rfl

@[simp] theorem apply_replies (s : StatPipeline) (eff : StatEffect) :
    (s.apply eff).replies = s.replies := by
  cases eff with
  | adds stat =>
    unfold apply
    dsimp only
    split_ifs <;> rfl
  | _ => rfl

/-- Adding a stat accepts none. -/
@[simp] theorem apply_adds_accepted (s : StatPipeline) (stat : LatencyStat.Ptr) :
    (s.apply (.adds stat)).accepted = s.accepted := by
  unfold apply
  dsimp only
  split_ifs <;> rfl

/-- With the handler set, the stat reaches it. -/
theorem apply_adds_of_set (hset : s.manager.reqHandlerSet = true) (stat : LatencyStat.Ptr) :
    s.apply (.adds stat) = { s with reqHandler := s.reqHandler.addStat stat } := if_pos hset

/-! ### Steps -/

/-- An event of the manager is a step of the manager and its effect. -/
theorem step_manager {e : ManagerEvent} (hstep : s.step (.manager e) = some s') :
    ∃ m eff, s.manager.step e = some (m, eff)
      ∧ s' = ({ s with manager := m } : StatPipeline).apply eff := by
  simp only [step] at hstep
  split_ifs at hstep with hcrashed
  obtain ⟨⟨m, eff⟩, hm, rfl⟩ := Option.map_eq_some_iff.mp hstep
  exact ⟨m, eff, hm, rfl⟩

/-- As long as the program runs, what the manager can do can be done. -/
theorem step_of_manager {e : ManagerEvent} {m : LatencyStatManager} {eff : StatEffect}
    (hcrashed : s.crashed = false) (hm : s.manager.step e = some (m, eff)) :
    s.step (.manager e) = some (({ s with manager := m } : StatPipeline).apply eff) := by
  unfold step
  rw [if_neg (by rw [hcrashed]; exact Bool.false_ne_true)]
  show (s.manager.step e).map _ = _
  rw [hm, Option.map_some]

/-- A request is answered, and noted with the point that it takes. -/
theorem step_request {env : Env} {req : HttpRequest} {rep : HttpReply}
    (hstep : s.step (.request env req rep) = some s') :
    s' = { s with
      reqHandler := (handleRequest env s.reqHandler req rep).handler
      replies := s.replies
        ++ [⟨(handleRequest env s.reqHandler req rep).rep, latestPoint s.reqHandler req⟩] } := by
  simp only [step] at hstep
  split_ifs at hstep with hcrashed
  exact (Option.some.inj hstep).symm

/-- A program that has ended does nothing. -/
theorem not_crashed_of_step (hstep : s.step e = some s') : s.crashed = false := by
  unfold step at hstep
  split_ifs at hstep with hcrashed
  exact Bool.eq_false_iff.mpr hcrashed

section Manager

variable {n : ℕ} {docRoot : Bytes} {P Q : StatPipeline → PipelineEvent → Prop}
  {J : LatencyStatManager → Prop} {es : List PipelineEvent}

/-- What the events of the manager preserve, every event preserves. -/
theorem manager_step
    (hJ : ∀ s e m eff, J s.manager → P s (.manager e) → s.manager.step e = some (m, eff) → J m)
    (hs : J s.manager) (hP : P s e) (hstep : s.step e = some s') : J s'.manager := by
  cases e with
  | manager e =>
    obtain ⟨m, eff, hm, rfl⟩ := step_manager hstep
    rw [apply_manager]
    exact hJ s e m eff hs hP hm
  | request env req rep =>
    rw [step_request hstep]
    exact hs

/-- **The rule for invariants of the manager.** -/
theorem manager_run (h : Runs step P (initial n docRoot) es s) (h₀ : J (LatencyStatManager.new n))
    (hJ : ∀ s e m eff, J s.manager → P s (.manager e) → s.manager.step e = some (m, eff) → J m) :
    J s.manager :=
  h.invariant (I := fun s => J s.manager) h₀ fun _ _ _ hs hP hstep => manager_step hJ hs hP hstep

/-- **The rule for conditions** that follow from an invariant of the manager. -/
theorem manager_strengthen (h : Runs step P (initial n docRoot) es s)
    (h₀ : J (LatencyStatManager.new n))
    (hJ : ∀ s e m eff, J s.manager → P s (.manager e) → s.manager.step e = some (m, eff) → J m)
    (hQ : ∀ s e s', J s.manager → P s e → s.step e = some s' → Q s e) :
    Runs step Q (initial n docRoot) es s :=
  h.strengthen (I := fun s => J s.manager) h₀
    (fun _ _ _ hs hP hstep => manager_step hJ hs hP hstep) hQ

end Manager

/-- **The pipeline refines the relay.**  An event that does not end the program
accepts, takes, hands over or puts out one stat, or none of these. -/
theorem step_relay (hstep : s.step e = some s') (hcrashed : s'.crashed = false) :
    s'.relay = s.relay ∨ ∃ b, s.relay.step b = some s'.relay
      ∧ (∀ stat, b = .handOver stat → e.handsOver s = some stat)
      ∧ (b = .take → ∃ i, e = .manager (.take i)) := by
  cases e with
  | manager e =>
    obtain ⟨m, eff, hm, rfl⟩ := step_manager hstep
    have hdoes := LatencyStatManager.step_does hm
    have heffect := LatencyStatManager.step_effect hm
    cases eff with
    | none =>
      left
      obtain ⟨hq, hhand, -⟩ := hdoes
      simp only [apply, relay, hq, hhand]
      rfl
    | accepts stat =>
      right
      obtain ⟨hq, hhand, -, -⟩ := hdoes
      refine ⟨.accept stat, ?_, (fun _ h => by cases h), fun h => by cases h⟩
      simp only [apply, relay, Relay.step, hq, hhand]
      rfl
    | takes =>
      right
      obtain ⟨⟨stat, hq, hhand⟩, -, -⟩ := hdoes
      obtain ⟨i, rfl⟩ := heffect
      refine ⟨.take, ?_, (fun _ h => by cases h), fun _ => ⟨i, rfl⟩⟩
      simp only [apply, relay, Relay.step, hq, hhand]
      rfl
    | adds stat =>
      right
      -- the hands lose the stat that `statQ_` gains
      obtain ⟨⟨hq, hhand⟩, -, -, hhandsOver⟩ := hdoes
      -- otherwise the call on a null handler would have ended the program
      have hset : m.reqHandlerSet = true := by
        by_contra hnull
        simp [apply, hnull] at hcrashed
      refine ⟨.handOver stat, ?_, ?_, fun h => by cases h⟩
      · have hmem : stat ∈ stat ::ₘ m.inHand := Multiset.mem_cons_self stat _
        simp only [apply, relay, Relay.step, hq, hhand, hset, if_pos hmem, if_true,
          Multiset.erase_cons_head]
        rfl
      · rintro stat' h
        cases h
        exact hhandsOver
  | request env req rep =>
    rw [step_request hstep]
    obtain ⟨hq, -⟩ := handleRequest_point env s.reqHandler req rep
    cases hpoint : latestPoint s.reqHandler req with
    | none =>
      left
      have hq' : s.reqHandler.statQ_
          = (handleRequest env s.reqHandler req rep).handler.statQ_ := by
        rw [hq, hpoint]
        rfl
      simp only [relay, delivered, List.filterMap_append, ← hq']
      simp
    | some stat =>
      right
      have hq' : s.reqHandler.statQ_
          = stat :: (handleRequest env s.reqHandler req rep).handler.statQ_ := by
        rw [hq, hpoint]
        rfl
      refine ⟨.putOut, ?_, (fun _ h => by cases h), fun h => by cases h⟩
      simp only [relay, delivered, List.filterMap_append, Relay.step, hq']
      simp

/-- Ending the program delivers nothing and accepts nothing. -/
theorem step_crash (hstep : s.step e = some s') (hcrashed : s'.crashed = true) :
    s'.accepted = s.accepted ∧ s'.delivered = s.delivered := by
  have hrunning := not_crashed_of_step hstep
  cases e with
  | manager e =>
    obtain ⟨m, eff, -, rfl⟩ := step_manager hstep
    cases eff with
    | none => exact ⟨rfl, rfl⟩
    | accepts stat => exact absurd (hrunning.symm.trans hcrashed) Bool.false_ne_true
    | takes => exact ⟨rfl, rfl⟩
    | adds stat =>
      refine ⟨apply_adds_accepted _ stat, ?_⟩
      rw [delivered, apply_replies]
      rfl
  | request env req rep =>
    rw [step_request hstep] at hcrashed
    exact absurd (hrunning.symm.trans hcrashed) Bool.false_ne_true

/-- With the handler set the program does not end. -/
theorem not_crashed_step (hP : HandlerSet s e) (hstep : s.step e = some s') :
    s'.crashed = false := by
  have hrunning := not_crashed_of_step hstep
  cases e with
  | manager e =>
    obtain ⟨m, eff, hm, rfl⟩ := step_manager hstep
    have hdoes := LatencyStatManager.step_does hm
    cases eff with
    | none => exact hrunning
    | accepts stat => exact hrunning
    | takes => exact hrunning
    | adds stat =>
      obtain ⟨-, -, hset, hhandsOver⟩ := hdoes
      rw [apply_adds_of_set (hset.trans (hP stat hhandsOver))]
      exact hrunning
  | request env req rep =>
    rw [step_request hstep]
    exact hrunning

end StatPipeline

end Unichannel
