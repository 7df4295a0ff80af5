/-
# How far a point can be ahead

With several consumers the points need not come in feed order, but none comes far too
early: with `k` consumers the point in place `j` is one of the first `j + k` updates that
were accepted, and with any number of consumers a point can be as far ahead as that
(`nearly_in_order`).  A point can be late without a bound, since its consumer may be held
up for as long as it likes.
-/
import Unichannel.FeedOrder
import Unichannel.SingleConsumer

namespace Unichannel

open GuardedSystem

/-- The handler is set when a stat is added, and at most `k` consumer threads exist. -/
def FewConsumers (k : ℕ) (s : StatPipeline) (e : PipelineEvent) : Prop :=
  HandlerSet s e ∧ s.manager.consumerThreadGroup_.countP Consumer.live ≤ k

instance (k : ℕ) : DecidableRel (FewConsumers k) := fun s e =>
  inferInstanceAs (Decidable
    (HandlerSet s e ∧ s.manager.consumerThreadGroup_.countP Consumer.live ≤ k))

/-- A thread that has not ended holds at most one stat, and the others none. -/
theorem Consumer.card_hand (c : Consumer) : c.hand.card ≤ if c.live = true then 1 else 0 := by
  cases hpc : c.pc with
  | holding stat =>
    rw [hand_of_holding hpc, if_pos (by simp [live, hpc])]
    exact le_rfl
  | _ =>
    rw [hand_of_not_holding (by simp [hpc])]
    exact Nat.zero_le _

/-- Each live consumer holds one stat at most. -/
theorem LatencyStatManager.card_inHand (m : LatencyStatManager) :
    m.inHand.card ≤ m.consumerThreadGroup_.countP Consumer.live := by
  rw [inHand, ← Tally.total_indicator]
  induction m.consumerThreadGroup_ with
  | nil => exact le_rfl
  | cons c l ih =>
    rw [Tally.total_cons, Tally.total_cons, Multiset.card_add]
    exact Nat.add_le_add c.card_hand ih

namespace StatPipeline

variable {n k : ℕ} {docRoot : Bytes} {s : StatPipeline} {es : List PipelineEvent}

/-- The points in the order in which requests get them, as far as they are known. -/
def handedOver (s : StatPipeline) : List LatencyStat.Ptr := s.delivered ++ s.reqHandler.statQ_

/-- With few consumers no stat is handed over much before its turn. -/
theorem early_run (h : Runs step (FewConsumers k) (initial n docRoot) es s) :
    Relay.Early k s.relay := by
  obtain ⟨bs, hbs⟩ := relay_run (Q := Relay.AtMost k) h
    (fun _ _ _ hP hstep => not_crashed_step hP.1 hstep)
    fun s _ _ _ hP _ _ => s.manager.card_inHand.trans hP.2
  exact Relay.early_run hbs

/-! ## A run in which a point is as far ahead as it can be -/

/-- The pipeline after `setReqHandler` and `start` were called, while `start` has `left`
threads to create. -/
def loaded (n left : ℕ) (docRoot : Bytes) (consumers : List Consumer)
    (accepted latencyStatQ_ statQ_ : List LatencyStat.Ptr) : StatPipeline where
  manager := {
    numOfConsumerThreads_ := n
    latencyStatQ_ := latencyStatQ_
    isAlive_ := true
    reqHandlerSet := true
    consumerThreadGroup_ := consumers
    updates := []
    starts := [left]
    stops := []
    allocated := accepted.length }
  reqHandler := ⟨docRoot, statQ_⟩
  crashed := false
  accepted := accepted
  replies := []

/-- A manager that was loaded has no more than its threads. -/
theorem fewConsumers_loaded {left : ℕ} {consumers : List Consumer}
    {accepted q statQ_ : List LatencyStat.Ptr} (h : consumers.length ≤ n)
    (e : PipelineEvent) :
    FewConsumers n (loaded n left docRoot consumers accepted q statQ_) e :=
  ⟨fun _ _ => rfl, List.countP_le_length.trans h⟩

/-- The manager is started. -/
theorem loaded_start (n : ℕ) (docRoot : Bytes) :
    Runs step (FewConsumers n) (initial n docRoot) [.manager .setReqHandler, .manager .start]
      (loaded n n docRoot [] [] [] []) :=
  Runs.cons ⟨fun _ h => (by cases h), Nat.zero_le n⟩ rfl
    (Runs.single ⟨fun _ h => (by cases h), Nat.zero_le n⟩ rfl)

/-- `start` creates the threads that are left. -/
theorem loaded_createThreads (docRoot : Bytes) (left : ℕ) (consumers : List Consumer)
    (h : consumers.length + left ≤ n) :
    ∃ es, Runs step (FewConsumers n) (loaded n left docRoot consumers [] [] []) es
      (loaded n 0 docRoot (consumers ++ List.replicate left Consumer.new) [] [] []) := by
  induction left generalizing consumers with
  | zero =>
    rw [List.replicate_zero, List.append_nil]
    exact ⟨[], Runs.nil _⟩
  | succ left ih =>
    obtain ⟨es, hes⟩ := ih (consumers ++ [Consumer.new])
      (by rw [List.length_append, List.length_singleton]; omega)
    rw [List.append_assoc, List.singleton_append, ← List.replicate_succ] at hes
    exact ⟨_, Runs.cons (a := .manager (.createThread 0)) (fewConsumers_loaded (by omega) _) rfl
      hes⟩

/-- The stat of the update number `i`. -/
def update (i : ℕ) : LatencyStat.Ptr := ⟨i, ⟨str "1", 897669200000, 4⟩⟩

/-- Updates are pushed while no consumer waits. -/
theorem loaded_push (docRoot : Bytes) {consumers : List Consumer} (h : consumers.length ≤ n)
    (hawake : ∀ c ∈ consumers, c.pc ≠ .waiting) (count : ℕ) :
    ∃ es, Runs step (FewConsumers n) (loaded n 0 docRoot consumers [] [] []) es
      (loaded n 0 docRoot consumers ((List.range count).map update)
        ((List.range count).map update) []) := by
  induction count with
  | zero => exact ⟨[], Runs.nil _⟩
  | succ count ih =>
    obtain ⟨es, hes⟩ := ih
    have hnone : ¬ (consumers.any fun c => c.pc = .waiting) = true := by
      intro hany
      obtain ⟨c, hc, hpc⟩ := List.any_eq_true.mp hany
      exact hawake c hc (of_decide_eq_true hpc)
    refine ⟨_, (hes.snoc (fewConsumers_loaded h _)
      (a := .manager (.onLatencyUpdate ⟨str "1", 897669200000, 4⟩)) rfl).snoc ?_
        (a := .manager (.push 0 none)) ?_⟩
    · exact ⟨fun _ h => (by cases h), List.countP_le_length.trans h⟩
    · simp [step, loaded, LatencyStatManager.step, LatencyStatManager.onLatencyUpdate,
        LatencyStatManager.notifyOne, apply, List.range_succ, update, hnone]

/-- A new consumer takes the front of the queue. -/
theorem loaded_take (docRoot : Bytes) (consumers rest : List Consumer) (stat : LatencyStat.Ptr)
    (accepted q : List LatencyStat.Ptr) (h : (consumers ++ Consumer.new :: rest).length ≤ n) :
    ∃ es, Runs step (FewConsumers n)
      (loaded n 0 docRoot (consumers ++ Consumer.new :: rest) accepted (stat :: q) []) es
      (loaded n 0 docRoot (consumers ++ ⟨.holding stat, false⟩ :: rest) accepted q []) := by
  have htest : (loaded n 0 docRoot (consumers ++ Consumer.new :: rest) accepted (stat :: q)
        []).step (.manager (.loopTest consumers.length))
      = some (loaded n 0 docRoot (consumers ++ ⟨.queueTest, false⟩ :: rest) accepted
        (stat :: q) []) := by
    simp [step, loaded, LatencyStatManager.step, LatencyStatManager.setConsumer,
      Consumer.loopTest, Consumer.new, apply]
  have htake : (loaded n 0 docRoot (consumers ++ ⟨.queueTest, false⟩ :: rest) accepted
        (stat :: q) []).step (.manager (.take consumers.length))
      = some (loaded n 0 docRoot (consumers ++ ⟨.holding stat, false⟩ :: rest) accepted q
        []) := by
    simp [step, loaded, LatencyStatManager.step, LatencyStatManager.setConsumer,
      Consumer.takeSection, apply]
  refine ⟨_, Runs.cons (fewConsumers_loaded h _) htest
    (Runs.single (fewConsumers_loaded ?_ _) htake)⟩
  rw [List.length_append, List.length_cons] at h ⊢
  exact h

/-- So do all of them, one after the other. -/
theorem loaded_takeAll (docRoot : Bytes) (accepted : List LatencyStat.Ptr)
    (consumers : List Consumer) (q : List LatencyStat.Ptr) (h : consumers.length + q.length ≤ n) :
    ∃ es, Runs step (FewConsumers n)
      (loaded n 0 docRoot (consumers ++ List.replicate q.length Consumer.new) accepted q []) es
      (loaded n 0 docRoot (consumers ++ q.map fun stat => ⟨.holding stat, false⟩) accepted
        [] []) := by
  induction q generalizing consumers with
  | nil => exact ⟨[], Runs.nil _⟩
  | cons stat q ih =>
    rw [List.length_cons] at h
    obtain ⟨es, hes⟩ := loaded_take (n := n) docRoot consumers
      (List.replicate q.length Consumer.new) stat accepted q (by simp; omega)
    obtain ⟨es', hes'⟩ := ih (consumers ++ [⟨.holding stat, false⟩])
      (by rw [List.length_append, List.length_singleton]; omega)
    rw [List.append_assoc, List.append_assoc] at hes'
    exact ⟨_, hes.append hes'⟩

/-- The last of them adds its stat first. -/
theorem loaded_addStat (docRoot : Bytes) (consumers : List Consumer) (stat : LatencyStat.Ptr)
    (accepted : List LatencyStat.Ptr) (h : consumers.length < n) :
    ∃ es, Runs step (FewConsumers n)
      (loaded n 0 docRoot (consumers ++ [⟨.holding stat, false⟩]) accepted [] []) es
      (loaded n 0 docRoot (consumers ++ [Consumer.new]) accepted [] [stat]) := by
  refine ⟨_, Runs.single (fewConsumers_loaded (by rw [List.length_append]; exact h) _)
    (a := .manager (.addStat consumers.length)) ?_⟩
  simp [step, loaded, LatencyStatManager.step, LatencyStatManager.setConsumer, apply,
    HttpReqHandler.addStat, Consumer.new]

/-- A run of `n` consumers in which the update number `n - 1` is handed over first. -/
theorem exists_early (hn : 0 < n) :
    ∃ es s, Runs step (FewConsumers n) (initial n docRoot) es s
      ∧ s.handedOver[0]? = s.accepted[n - 1]? ∧ s.handedOver[0]?.isSome = true := by
  obtain ⟨p, rfl⟩ := Nat.exists_eq_succ_of_ne_zero (Nat.ne_of_gt hn)
  have hsplit : (List.range (p + 1)).map update = (List.range p).map update ++ [update p] := by
    rw [List.range_succ, List.map_append, List.map_singleton]
  obtain ⟨es₁, hcreate⟩ := loaded_createThreads (n := p + 1) docRoot (p + 1) [] (by simp)
  obtain ⟨es₂, hpush⟩ := loaded_push docRoot
    (show (List.replicate (p + 1) Consumer.new).length ≤ p + 1 by simp)
    (fun c hc => by rw [List.eq_of_mem_replicate hc]; simp [Consumer.new]) (p + 1)
  obtain ⟨es₃, htake⟩ := loaded_takeAll (n := p + 1) docRoot
    ((List.range (p + 1)).map update) [] ((List.range (p + 1)).map update) (by simp)
  rw [List.length_map, List.length_range, List.nil_append] at htake
  obtain ⟨es₄, hadd⟩ := loaded_addStat (n := p + 1) docRoot
    (((List.range p).map update).map fun stat => ⟨.holding stat, false⟩) (update p)
    ((List.range (p + 1)).map update) (by simp)
  have hlast : (((List.range (p + 1)).map update).map fun stat =>
        (⟨.holding stat, false⟩ : Consumer))
      = (((List.range p).map update).map fun stat => ⟨.holding stat, false⟩)
        ++ [⟨.holding (update p), false⟩] := by
    rw [hsplit, List.map_append, List.map_singleton]
  rw [List.nil_append, hlast] at htake
  refine ⟨_, _, (loaded_start (p + 1) docRoot).append (hcreate.append (hpush.append
    (htake.append hadd))), ?_, rfl⟩
  show some (update p) = ((List.range (p + 1)).map update)[p]?
  simp

/-- **Nearly in order.**  In every run with at most `k` consumers at a time, the point in
place `j` of those that requests get is one of the first `j + k` updates that were
accepted; and with any number of consumers the last of as many updates can come first. -/
theorem nearly_in_order (docRoot : Bytes) :
    (∀ n k es s, Runs step (FewConsumers k) (initial n docRoot) es s →
      ∀ (j : ℕ) (stat : LatencyStat.Ptr), s.handedOver[j]? = some stat →
        ∃ i < j + k, s.accepted[i]? = some stat)
      ∧ ∀ n, 0 < n → ∃ es s, Runs step (FewConsumers n) (initial n docRoot) es s
        ∧ s.handedOver[0]? = s.accepted[n - 1]? ∧ s.handedOver[0]?.isSome = true :=
  ⟨fun _ _ _ _ hrun => (early_run hrun).early, fun _ hn => exists_early hn⟩

theorem twoPopped_overtaking_runs :
    (run step (FewConsumers 2) (initial 2 []) (twoPopped ++ [.manager (.addStat 1)])).isSome
      = true := by
  decide +kernel

/-- The second update is handed over first, and it is one of the first two. -/
theorem nearly_in_order_twoPopped :
    ∃ i < 0 + 2, ((run step (FewConsumers 2) (initial 2 [])
      (twoPopped ++ [.manager (.addStat 1)])).get twoPopped_overtaking_runs).accepted[i]?
        = some ⟨1, ⟨str "1", 899769200000, 1⟩⟩ :=
  (nearly_in_order []).1 2 2 _ _ (runs_get twoPopped_overtaking_runs) 0 _ (by decide +kernel)

end StatPipeline

end Unichannel
