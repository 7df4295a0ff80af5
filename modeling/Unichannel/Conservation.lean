/-
# No update is lost or duplicated

Whatever the number of threads and in whatever order they run, each update that
`onLatencyUpdate` accepted is in exactly one place: in `latencyStatQ_`, in the
hands of one consumer, in `statQ_`, or in one reply.
-/
import Unichannel.StatPipeline

namespace Unichannel

open GuardedSystem

namespace StatPipeline

variable {n : ℕ} {docRoot : Bytes} {s s' : StatPipeline} {e : PipelineEvent}

/-- With the handler set, the program does not end. -/
theorem not_crashed_run {es : List PipelineEvent}
    (h : Runs step HandlerSet (initial n docRoot) es s) : s.crashed = false :=
  h.invariant (I := fun s => s.crashed = false) rfl
    fun _ _ _ _ hP hstep => not_crashed_step hP hstep

/-- **The rule for the relay**: a run in which the program does not end shows as a run of
the relay, whose events meet what the steps of the pipeline guarantee. -/
theorem relay_run {P : StatPipeline → PipelineEvent → Prop}
    {Q : Relay LatencyStat.Ptr → Relay.Event LatencyStat.Ptr → Prop} {es : List PipelineEvent}
    (h : Runs step P (initial n docRoot) es s)
    (hsafe : ∀ s e s', P s e → s.step e = some s' → s'.crashed = false)
    (hQ : ∀ s e s' b, P s e → s.step e = some s' → (b = .take → ∃ i, e = .manager (.take i)) →
      Q s.relay b) :
    ∃ bs, Runs Relay.step Q Relay.initial bs s.relay := by
  have hproject : ∃ v bs, v = Relay.initial ∧ Runs Relay.step Q v bs s.relay := by
    refine Runs.project (fun s => some (relay s)) (fun v => v = Relay.initial) ?_ ?_ h s.relay rfl
    · intro s e s' v' hP hstep hv'
      cases hv'
      refine Or.inr ⟨s.relay, rfl, ?_⟩
      rcases step_relay hstep (hsafe s e s' hP hstep) with heq | ⟨b, hb, -, htake⟩
      · exact Or.inl heq
      · exact Or.inr ⟨b, hQ s e s' b hP hstep htake, hb⟩
    · intro v hv
      exact (Option.some.inj hv).symm
  obtain ⟨v, bs, rfl, hbs⟩ := hproject
  exact ⟨bs, hbs⟩

/-! ## Stats are told apart -/

/-- The stats accepted and under way are different objects, made before the next
one. -/
structure Fresh (s : StatPipeline) : Prop where
  nodup : (s.accepted ++ s.manager.updates).Nodup
  addr_lt : ∀ stat ∈ s.accepted ++ s.manager.updates, stat.addr < s.manager.allocated

/-- What matters for `Fresh` is what was accepted and what is under way. -/
theorem Fresh.of_eq (h : Fresh s) (haccepted : s'.accepted = s.accepted)
    (hmanager : Allocates s.manager s'.manager) : Fresh s' := by
  rcases hmanager with ⟨hupdates, hallocated⟩ | ⟨stat, hupdates, hallocated⟩
  · constructor
    · rw [haccepted, hupdates]
      exact h.nodup
    · rw [haccepted, hupdates, hallocated]
      exact h.addr_lt
  · -- the new stat has an address of its own
    have hnew : (⟨s.manager.allocated, stat⟩ : LatencyStat.Ptr)
        ∉ s.accepted ++ s.manager.updates := by
      intro hmem
      exact absurd (h.addr_lt _ hmem) (Nat.lt_irrefl _)
    constructor
    · rw [haccepted, hupdates, ← List.append_assoc]
      exact List.nodup_append.mpr ⟨h.nodup, List.nodup_singleton _, by
        rintro a ha b hb rfl
        rw [List.mem_singleton.mp hb] at ha
        exact hnew ha⟩
    · rw [haccepted, hupdates, hallocated, ← List.append_assoc]
      intro p hp
      rcases List.mem_append.mp hp with hp | hp
      · have hlt := h.addr_lt p hp
        omega
      · rw [List.mem_singleton.mp hp]
        exact Nat.lt_succ_self _

/-- **Step lemma.** -/
theorem fresh_step (h : Fresh s) (hstep : s.step e = some s') : Fresh s' := by
  cases e with
  | manager e =>
    obtain ⟨m, eff, hm, rfl⟩ := step_manager hstep
    have hdoes := LatencyStatManager.step_does hm
    cases eff with
    | none =>
      obtain ⟨-, -, hallocates⟩ := hdoes
      exact h.of_eq rfl hallocates
    | accepts stat =>
      obtain ⟨-, -, hperm, hallocated⟩ := hdoes
      -- the stat moves from the calls under way to what was accepted
      have hall : (s.accepted ++ [stat] ++ m.updates).Perm (s.accepted ++ s.manager.updates) := by
        rw [List.append_assoc]
        exact hperm.append_left s.accepted
      refine ⟨hall.nodup_iff.mpr h.nodup, ?_⟩
      intro p hp
      show p.addr < m.allocated
      rw [hallocated]
      exact h.addr_lt p (hall.subset hp)
    | takes =>
      obtain ⟨-, hupdates⟩ := hdoes
      exact h.of_eq rfl (Or.inl hupdates)
    | adds stat =>
      obtain ⟨-, hupdates, -, -⟩ := hdoes
      refine h.of_eq (apply_adds_accepted _ stat) ?_
      rw [apply_manager]
      exact Or.inl hupdates
  | request env req rep =>
    rw [step_request hstep]
    exact ⟨h.nodup, h.addr_lt⟩

/-- In every run, no address is given twice. -/
theorem fresh_run {P : StatPipeline → PipelineEvent → Prop} {es : List PipelineEvent}
    (h : Runs step P (initial n docRoot) es s) : Fresh s :=
  h.invariant (I := Fresh) ⟨List.nodup_nil, fun _ hp => absurd hp List.not_mem_nil⟩
    fun _ _ _ h _ hstep => fresh_step h hstep

/-! ## Replies carry what they took -/

/-- A reply that took a stat has its point as content. -/
def PointsWritten (s : StatPipeline) : Prop :=
  ∀ r ∈ s.replies, ∀ stat ∈ r.point, r.rep.content_ = pointText stat.stat

/-- **Step lemma.** -/
theorem pointsWritten_step (h : PointsWritten s) (hstep : s.step e = some s') :
    PointsWritten s' := by
  cases e with
  | manager e =>
    obtain ⟨m, eff, -, rfl⟩ := step_manager hstep
    rw [PointsWritten, apply_replies]
    exact h
  | request env req rep =>
    rw [step_request hstep]
    exact forall_mem_concat h (handleRequest_point env s.reqHandler req rep).2

/-! ## Conservation -/

/-- In every run with the handler set, nothing is lost or duplicated. -/
theorem conserved_run {es : List PipelineEvent}
    (h : Runs step HandlerSet (initial n docRoot) es s) : Relay.Conserved s.relay := by
  obtain ⟨bs, hrelay⟩ := relay_run (Q := anyStep) h
    (fun _ _ _ hP hstep => not_crashed_step hP hstep) fun _ _ _ _ _ _ _ => trivial
  exact Relay.conserved_run hrelay

/-- No stat is accepted twice. -/
theorem nodup_accepted {P : StatPipeline → PipelineEvent → Prop} {es : List PipelineEvent}
    (h : Runs step P (initial n docRoot) es s) : s.accepted.Nodup :=
  (List.nodup_append.mp (fresh_run h).nodup).1

/-- **No update is lost or duplicated.**  In every state of every run, for any
number of consumer threads, the updates accepted are those in `latencyStatQ_`, in
the hands of consumers, in `statQ_` and in replies, counted with multiplicity; they
are different objects, so each delivered stat is in exactly one reply, whose content
is its point; and a request on any other route, in particular one that gets an error
reply, leaves the handler as it is. -/
theorem conservation (n : ℕ) (docRoot : Bytes) (es : List PipelineEvent) (s : StatPipeline)
    (hrun : Runs step HandlerSet (initial n docRoot) es s) :
    (s.accepted : Multiset LatencyStat.Ptr)
        = s.manager.latencyStatQ_ + s.manager.inHand + s.reqHandler.statQ_ + s.delivered
      ∧ s.accepted.Nodup
      ∧ (∀ stat ∈ s.delivered, s.replies.countP (fun r => r.point = some stat) = 1)
      ∧ (∀ r ∈ s.replies, ∀ stat ∈ r.point, r.rep.content_ = pointText stat.stat)
      ∧ (∀ env req rep, route req.uri_ ≠ .updateValues →
        (handleRequest env s.reqHandler req rep).handler = s.reqHandler)
      ∧ ∀ env req rep, (handleRequest env s.reqHandler req rep).rep.status_ ≠ .ok →
        (handleRequest env s.reqHandler req rep).handler = s.reqHandler := by
  have hconserved : Relay.Conserved s.relay := conserved_run hrun
  have hnodup : s.accepted.Nodup := nodup_accepted hrun
  have hwritten : PointsWritten s :=
    hrun.invariant (I := PointsWritten) (fun _ hr => absurd hr List.not_mem_nil)
      fun _ _ _ h _ hstep => pointsWritten_step h hstep
  refine ⟨hconserved, hnodup, ?_, hwritten, ?_, ?_⟩
  · intro stat hstat
    -- what was delivered is part of what was accepted, where every stat occurs once
    have hdelivered : s.delivered.Nodup := by
      have hle : (s.delivered : Multiset LatencyStat.Ptr) ≤ s.accepted := by
        rw [show (s.accepted : Multiset LatencyStat.Ptr) = _ from hconserved]
        exact Multiset.le_add_left _ _
      exact Multiset.coe_nodup.mp (Multiset.nodup_of_le hle (Multiset.coe_nodup.mpr hnodup))
    have hcount : s.delivered.count stat = 1 := List.count_eq_one_of_mem hdelivered hstat
    rw [delivered, List.count_filterMap] at hcount
    rw [← hcount]
    apply List.countP_congr
    intro r _
    rw [decide_eq_true_iff, beq_iff_eq]
  · intro env req rep hroute
    exact handleRequest_handler env s.reqHandler req rep hroute
  · intro env req rep hstatus
    exact handleRequest_handler env s.reqHandler req rep (route_ne_of_error hstatus)

/-- One consumer is started, the handler is set, two updates are pushed, and the
first of them is added and delivered. -/
def oneDelivered : List PipelineEvent :=
  [.manager .start, .manager (.createThread 0), .manager (.startReturns 0),
    .manager .setReqHandler,
    .manager (.onLatencyUpdate ⟨str "1", 897669200000, 4⟩), .manager (.push 0 none),
    .manager (.onLatencyUpdate ⟨str "1", 898669200000, 2⟩), .manager (.push 0 none),
    .manager (.loopTest 0), .manager (.take 0), .manager (.addStat 0),
    .request ⟨fun _ _ => [], fun _ => none⟩ ⟨str "GET", str "/updateValues", 1, 0, []⟩
      ⟨.ok, [], []⟩]

theorem oneDelivered_runs : (run step HandlerSet (initial 1 []) oneDelivered).isSome = true := by
  decide +kernel

/-- After `oneDelivered` the first update is in one reply, and the second one is in
`latencyStatQ_`. -/
theorem conservation_oneDelivered :
    ((run step HandlerSet (initial 1 []) oneDelivered).get oneDelivered_runs).replies.countP
        (fun r => r.point = some ⟨0, ⟨str "1", 897669200000, 4⟩⟩) = 1 := by
  obtain ⟨-, -, hone, -⟩ := conservation 1 [] oneDelivered _ (runs_get oneDelivered_runs)
  exact hone _ (by decide +kernel)

end StatPipeline

end Unichannel
