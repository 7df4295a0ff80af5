/-
# The order of the points

Both queues are first in, first out, but a consumer holds no lock between its pop
from `latencyStatQ_` and its `addStat`.  With two consumers the one that popped
later may add first, and the dashboard then gets the later point first.  This is the
only way: as long as no consumer adds its stat while another holds an earlier one,
the points come in feed order, and one that does is enough for requests to get them
out of order.
-/
import Unichannel.Conservation

namespace Unichannel

open GuardedSystem
open scoped List

namespace StatPipeline

variable {n : ℕ} {docRoot : Bytes} {s s' : StatPipeline} {e : PipelineEvent}

/-- Stats are delivered in the order in which they were queued: if `a` was pushed
before `b` and `b` has been delivered, then `a` was delivered before. -/
def InFeedOrder (s : StatPipeline) : Prop :=
  ∀ a b, [a, b] <+ s.accepted → b ∈ s.delivered → [a, b] <+ s.delivered

/-- When a consumer adds its stat, no consumer holds one that was pushed earlier. -/
def OldestHandedOver (s : StatPipeline) (e : PipelineEvent) : Prop :=
  ∀ stat ∈ e.handsOver s, ∀ earlier ∈ s.manager.inHand, ¬ [earlier, stat] <+ s.accepted

instance : DecidableRel OldestHandedOver := fun s e =>
  inferInstanceAs (Decidable
    (∀ stat ∈ e.handsOver s, ∀ earlier ∈ s.manager.inHand, ¬ [earlier, stat] <+ s.accepted))

/-- The pipeline is one queue, as long as the program runs, and has delivered the
beginning of what was accepted. -/
structure InLine (s : StatPipeline) : Prop where
  relay : s.crashed = false → Relay.InLine s.relay
  isPrefix : s.delivered <+: s.accepted

/-- **Step lemma.** -/
theorem inLine_step (h : InLine s) (hP : OldestHandedOver s e) (hstep : s.step e = some s') :
    InLine s' := by
  have hrelay := h.relay (not_crashed_of_step hstep)
  cases hcrashed : s'.crashed with
  | true =>
    -- the stat in hands is lost with the program, but nothing was delivered
    obtain ⟨haccepted, hdelivered⟩ := step_crash hstep hcrashed
    refine ⟨fun hrunning => absurd (hrunning.symm.trans hcrashed) Bool.false_ne_true, ?_⟩
    rw [haccepted, hdelivered]
    exact h.isPrefix
  | false =>
    have hline : Relay.InLine s'.relay := by
      rcases step_relay hstep hcrashed with heq | ⟨b, hb, hover, -⟩
      · rw [heq]
        exact hrelay
      · refine Relay.inLine_step hrelay ?_ hb
        rintro stat rfl earlier hearlier
        exact hP stat (hover stat rfl) earlier hearlier
    exact ⟨fun _ => hline, hline.out_isPrefix⟩

/-- In the runs that meet the condition the pipeline is one queue. -/
theorem inLine_run {es : List PipelineEvent}
    (h : Runs step OldestHandedOver (initial n docRoot) es s) : InLine s :=
  h.invariant (I := InLine) ⟨fun _ => ⟨[], rfl, rfl⟩, List.prefix_rfl⟩
    fun _ _ _ h hP hstep => inLine_step h hP hstep

/-! ## Requests deliver what has been added -/

/-- What requests can change. -/
structure OnlyDelivers (s s' : StatPipeline) : Prop where
  accepted : s'.accepted = s.accepted
  manager : s'.manager = s.manager
  crashed : s'.crashed = s.crashed

/-- Some request is routed to `updateValues`. -/
theorem exists_updateValues : ∃ req : HttpRequest, route req.uri_ = .updateValues :=
  ⟨⟨str "GET", str "/updateValues", 1, 0, []⟩, by decide +kernel⟩

theorem step_request_eq (hcrashed : s.crashed = false) (env : Env) (req : HttpRequest)
    (rep : HttpReply) :
    s.step (.request env req rep) = some { s with
      reqHandler := (handleRequest env s.reqHandler req rep).handler
      replies := s.replies
        ++ [⟨(handleRequest env s.reqHandler req rep).rep, latestPoint s.reqHandler req⟩] } := by
  unfold step
  rw [if_neg (by rw [hcrashed]; exact Bool.false_ne_true)]

/-- A request for `updateValues` delivers the front of `statQ_`. -/
theorem exists_deliver {stat : LatencyStat.Ptr} {rest : List LatencyStat.Ptr}
    (hcrashed : s.crashed = false) (hq : s.reqHandler.statQ_ = stat :: rest) :
    ∃ e s', HandlerSet s e ∧ s.step e = some s' ∧ OnlyDelivers s s'
      ∧ s'.reqHandler.statQ_ = rest ∧ s'.delivered = s.delivered ++ [stat] := by
  obtain ⟨req, hroute⟩ := exists_updateValues
  have hpoint : latestPoint s.reqHandler req = some stat := by
    rw [latestPoint, if_pos hroute, hq]
    rfl
  obtain ⟨hstatQ, -⟩ := handleRequest_point ⟨fun _ _ => [], fun _ => none⟩ s.reqHandler req
    ⟨.ok, [], []⟩
  rw [hpoint, hq] at hstatQ
  refine ⟨.request ⟨fun _ _ => [], fun _ => none⟩ req ⟨.ok, [], []⟩, _, ?_,
    step_request_eq hcrashed _ _ _, ⟨rfl, rfl, rfl⟩, ?_, ?_⟩
  · intro stat hstat
    cases hstat
  · exact (List.cons.inj hstatQ).2.symm
  · rw [delivered, List.filterMap_append, hpoint]
    rfl

/-- So requests can deliver all of `statQ_`. -/
theorem exists_deliver_all (hcrashed : s.crashed = false) :
    ∃ es s', Runs step HandlerSet s es s' ∧ OnlyDelivers s s'
      ∧ s'.delivered = s.delivered ++ s.reqHandler.statQ_ := by
  generalize hq : s.reqHandler.statQ_ = q
  induction q generalizing s with
  | nil => exact ⟨[], s, Runs.nil s, ⟨rfl, rfl, rfl⟩, (List.append_nil _).symm⟩
  | cons stat rest ih =>
    obtain ⟨e, s₁, hP, hstep, hsame, hrest, hdelivered⟩ := exists_deliver hcrashed hq
    obtain ⟨es, s₂, hrun, hsame', hdelivered'⟩ := ih (hsame.crashed.trans hcrashed) hrest
    refine ⟨e :: es, s₂, Runs.cons hP hstep hrun, ?_, ?_⟩
    · exact ⟨hsame'.accepted.trans hsame.accepted, hsame'.manager.trans hsame.manager,
        hsame'.crashed.trans hsame.crashed⟩
    · rw [hdelivered', hdelivered, List.append_assoc]
      rfl

/-! ## Overtaking -/

/-- Only `addStat` hands over, and then the stat is at the back of `statQ_`. -/
theorem step_handsOver {stat : LatencyStat.Ptr} (hover : e.handsOver s = some stat)
    (hP : HandlerSet s e) (hstep : s.step e = some s') :
    s'.accepted = s.accepted ∧ stat ∈ s'.reqHandler.statQ_
      ∧ s.manager.inHand = stat ::ₘ s'.manager.inHand := by
  cases e with
  | request env req rep => cases hover
  | manager e =>
    obtain ⟨m, eff, hm, rfl⟩ := step_manager hstep
    have hdoes := LatencyStatManager.step_does hm
    cases e with
    | addStat i =>
      obtain ⟨c, stat', -, -, -, rfl⟩ := LatencyStatManager.step_addStat hm
      obtain ⟨⟨-, hhand⟩, -, hset, hover'⟩ := hdoes
      have heq : stat' = stat := Option.some.inj (hover'.symm.trans hover)
      subst heq
      refine ⟨apply_adds_accepted _ stat', ?_, ?_⟩
      · rw [apply_adds_of_set (hset.trans (hP stat' hover))]
        simp [HttpReqHandler.addStat]
      · rw [apply_manager]
        exact hhand
    | _ => cases hover

/-- **Overtaking shows.**  If a consumer adds its stat while another holds an earlier
one, requests can get the later one first. -/
theorem exists_out_of_order {es : List PipelineEvent}
    (hrun : Runs step HandlerSet (initial n docRoot) es s) (hP : HandlerSet s e)
    (hstep : s.step e = some s') (hnot : ¬ OldestHandedOver s e) :
    ∃ es' s'', Runs step HandlerSet s' es' s'' ∧ ¬ InFeedOrder s'' := by
  obtain ⟨stat, hover, earlier, hearlier, hbefore⟩ : ∃ stat, e.handsOver s = some stat
      ∧ ∃ earlier ∈ s.manager.inHand, [earlier, stat] <+ s.accepted := by
    by_contra hnone
    apply hnot
    intro stat hover earlier hearlier hbefore
    exact hnone ⟨stat, hover, earlier, hearlier, hbefore⟩
  obtain ⟨haccepted, hadded, hhand⟩ := step_handsOver hover hP hstep
  have hrun' := Runs.snoc hrun hP hstep
  -- no consumer moves while requests empty `statQ_`
  obtain ⟨es', s'', hes', hsame, hdelivered⟩ := exists_deliver_all (not_crashed_run hrun')
  refine ⟨es', s'', hes', ?_⟩
  have hrun'' := hrun'.append hes'
  have hnodup : s''.accepted.Nodup := nodup_accepted hrun''
  have hbefore'' : [earlier, stat] <+ s''.accepted := by
    rw [hsame.accepted, haccepted]
    exact hbefore
  -- the earlier stat is another one, so a consumer still holds it
  have hne : earlier ≠ stat := by
    rintro rfl
    exact absurd (hbefore''.nodup hnodup) (by simp)
  have hheld : earlier ∈ s''.relay.hands := by
    show earlier ∈ s''.manager.inHand
    rw [hsame.manager]
    rw [hhand] at hearlier
    exact (Multiset.mem_cons.mp hearlier).resolve_left hne
  have hout : earlier ∉ s''.delivered := (conserved_run hrun'').notMem_out hnodup hheld
  intro hinorder
  have hstat : stat ∈ s''.delivered := by
    rw [hdelivered]
    exact List.mem_append_right _ hadded
  exact hout ((hinorder earlier stat hbefore'' hstat).subset (by simp))

/-- **When the points come in feed order.**  In every run in which no consumer adds
its stat while another holds an earlier one, every state is in feed order; and after
any other hand-over requests can get the points out of order. -/
theorem delivered_in_feed_order (n : ℕ) (docRoot : Bytes) :
    (∀ es s, Runs step OldestHandedOver (initial n docRoot) es s → InFeedOrder s)
      ∧ ∀ es s e s', Runs step HandlerSet (initial n docRoot) es s → HandlerSet s e →
        s.step e = some s' → ¬ OldestHandedOver s e →
        ∃ es' s'', Runs step HandlerSet s' es' s'' ∧ ¬ InFeedOrder s'' := by
  constructor
  · intro es s hrun a b hab hb
    exact Relay.precedes_of_isPrefix (nodup_accepted hrun) (inLine_run hrun).isPrefix hab hb
  · intro es s e s' hrun hP hstep hnot
    exact exists_out_of_order hrun hP hstep hnot

/-- Two consumers are started, the handler is set, two updates are pushed, and each
consumer pops one of them. -/
def twoPopped : List PipelineEvent :=
  [.manager .start, .manager (.createThread 0), .manager (.createThread 0),
    .manager (.startReturns 0), .manager .setReqHandler,
    .manager (.onLatencyUpdate ⟨str "1", 899669200000, 8⟩), .manager (.push 0 none),
    .manager (.onLatencyUpdate ⟨str "1", 899769200000, 1⟩), .manager (.push 0 none),
    .manager (.loopTest 0), .manager (.take 0), .manager (.loopTest 1), .manager (.take 1)]

/-- The dashboard asks for a point. -/
def askForPoint : PipelineEvent :=
  .request ⟨fun _ _ => [], fun _ => none⟩ ⟨str "GET", str "/updateValues", 1, 0, []⟩ ⟨.ok, [], []⟩

theorem twoPopped_runs : (run step HandlerSet (initial 2 []) twoPopped).isSome = true := by
  decide +kernel

theorem twoPopped_inOrder_runs :
    (run step OldestHandedOver (initial 2 [])
      (twoPopped ++ [.manager (.addStat 0), askForPoint])).isSome = true := by
  decide +kernel

theorem twoPopped_overtaking_step :
    (((run step HandlerSet (initial 2 []) twoPopped).get twoPopped_runs).step
      (.manager (.addStat 1))).isSome = true := by
  decide +kernel

/-- The first consumer adds first, and its stat is delivered in order; if the second
one adds first, requests can get its stat first. -/
theorem delivered_in_feed_order_twoPopped :
    InFeedOrder ((run step OldestHandedOver (initial 2 [])
        (twoPopped ++ [.manager (.addStat 0), askForPoint])).get twoPopped_inOrder_runs)
      ∧ ∃ es' s'', Runs step HandlerSet
        ((((run step HandlerSet (initial 2 []) twoPopped).get twoPopped_runs).step
          (.manager (.addStat 1))).get twoPopped_overtaking_step) es' s''
        ∧ ¬ InFeedOrder s'' :=
  ⟨(delivered_in_feed_order 2 []).1 _ _ (runs_get twoPopped_inOrder_runs),
    (delivered_in_feed_order 2 []).2 _ _ _ _ (runs_get twoPopped_runs) (by decide +kernel)
      (Option.some_get twoPopped_overtaking_step).symm (by decide +kernel)⟩

theorem twoPopped_overtaken_runs :
    (run step HandlerSet (initial 2 [])
      (twoPopped ++ [.manager (.addStat 1), .manager (.addStat 0), askForPoint])).isSome
      = true := by
  decide +kernel

/-- With two consumers the points do not always come in feed order: the second
consumer adds its stat before the first one, and the dashboard gets it first. -/
theorem not_always_in_feed_order :
    ¬ ∀ (n : ℕ) (docRoot : Bytes) (es : List PipelineEvent) (s : StatPipeline), 2 ≤ n →
      Runs step HandlerSet (initial n docRoot) es s → InFeedOrder s := by
  intro h
  have hinorder := h 2 [] _ _ le_rfl (runs_get twoPopped_overtaken_runs)
    ⟨0, ⟨str "1", 899669200000, 8⟩⟩ ⟨1, ⟨str "1", 899769200000, 1⟩⟩
  exact absurd (hinorder (by decide +kernel) (by decide +kernel)) (by decide +kernel)

end StatPipeline

end Unichannel
