/-
# No connection is stuck

From every state of every run, a connection in the set of the manager can still be
served: the bytes it has received can be completed to a request, its answer can be
written, and then its socket is closed and it leaves the set, while the others stay as
they are (`exists_served`).  So the clients can be served one after the other until
none is left, and the server accepts as before (`all_served`).
-/
import Unichannel.Delivery
import Unichannel.ViablePrefix

namespace Unichannel

open GuardedSystem

/-- Clients send, and the network delivers. -/
def Delivers (_ : HttpServerTransport) : Event → Prop
  | .readDone _ _ ec _ _ => ec = .success
  | .writeDone _ _ ec => ec = .success
  | _ => False

instance : DecidableRel Delivers := fun _ e =>
  match e with
  | .readDone _ _ ec _ _ => inferInstanceAs (Decidable (ec = .success))
  | .writeDone _ _ ec => inferInstanceAs (Decidable (ec = .success))
  | .acceptDone _ _ | .stopAll | .signal | .addStat _ => isFalse id

/-- What is delivered is not aborted. -/
theorem abortedOnlyClosed_of_delivers {s : HttpServerTransport} {e : Event} (h : Delivers s e) :
    AbortedOnlyClosed s e := by
  intro i hi
  cases e with
  | readDone j k ec r env =>
    obtain rfl : ec = .success := h
    cases hi
  | writeDone j k ec =>
    obtain rfl : ec = .success := h
    cases hi
  | _ => cases h

namespace HttpServerTransport

variable {docRoot : Bytes} {s s' : HttpServerTransport} {e : Event} {es : List Event} {i : ℕ}
  {c : HttpClientConnection}

/-! ## Registered connections -/

/-- The set holds only connections that were made. -/
def Registered (s : HttpServerTransport) : Prop :=
  ∀ i ∈ s.clientConnections_, i < s.connections.length

/-- **Step lemma.** -/
theorem registered_step (h : Registered s) (hstep : s.step e = some s') : Registered s' := by
  have hkeep : ∀ t : HttpServerTransport, t.clientConnections_ ⊆ s.clientConnections_ →
      t.connections.length = s.connections.length → Registered t := by
    intro t hsub hlength i hi
    rw [hlength]
    exact h i (hsub hi)
  cases e with
  | acceptDone ec u =>
    obtain ⟨-, rfl⟩ := step_acceptDone hstep
    unfold onAccept
    split_ifs with hopen hec
    · exact h
    · intro i hi
      show i < (s.connections ++ [(HttpClientConnection.new u).start]).length
      rw [List.length_append, List.length_singleton]
      rcases Finset.mem_insert.mp hi with rfl | hi
      · exact Nat.lt_succ_self _
      · exact Nat.lt_succ_of_lt (h i hi)
    · exact h
  | readDone j k ec r env =>
    obtain ⟨c, -, -, rfl⟩ := step_readDone hstep
    cases ec with
    | success => exact hkeep _ (Finset.Subset.refl _) (List.length_set ..)
    | operationAborted => exact hkeep _ (Finset.Subset.refl _) (List.length_set ..)
    | other =>
      refine hkeep _ (Finset.erase_subset _ _) ?_
      show ((s.connections.set j _).modify j _).length = _
      rw [List.length_modify, List.length_set]
  | writeDone j k ec =>
    obtain ⟨c, -, -, rfl⟩ := step_writeDone hstep
    cases ec with
    | operationAborted => exact hkeep _ (Finset.Subset.refl _) (List.length_set ..)
    | _ =>
      refine hkeep _ (Finset.erase_subset _ _) ?_
      show ((s.connections.set j _).modify j _).length = _
      rw [List.length_modify, List.length_set]
  | stopAll =>
    cases hstep
    exact fun i hi => absurd hi (Finset.notMem_empty i)
  | signal =>
    obtain ⟨-, rfl⟩ := step_signal hstep
    rw [stop_eq]
    exact fun i hi => absurd hi (Finset.notMem_empty i)
  | addStat stat =>
    cases hstep
    exact h

/-- A connection in the set has an open socket and waits for one operation. -/
theorem exists_registered (hrun : Runs step AbortedOnlyClosed (initial docRoot) es s)
    (hi : i ∈ s.clientConnections_) :
    ∃ c, s.connections[i]? = some c ∧ Phase c ∧ c.pending.length = 1 := by
  have hregistered : Registered s :=
    hrun.invariant (I := Registered) (fun j hj => absurd hj (Finset.notMem_empty j))
      fun _ _ _ h _ hstep => registered_step h hstep
  obtain ⟨c, hc⟩ : ∃ c, s.connections[i]? = some c :=
    ⟨_, List.getElem?_eq_getElem (hregistered i hi)⟩
  have hin : InStep ⟨c, i ∈ s.clientConnections_⟩ :=
    session_invariant (Q := Session.AbortedOnlyClosed) (I := InStep)
      (fun _ _ _ _ _ hP hv hb => abortedOnlyClosed_forSession hP hv hb)
      (fun u => ⟨Phase.start u, rfl, fun _ => rfl⟩)
      (fun _ _ _ h hb hstep => inStep_step h hb hstep) hrun (view_of_connection hc)
  exact ⟨c, hc, hin.phase, hin.pending_eq_one (decide_eq_true hi)⟩

/-! ## Serving one -/

/-- The connection has answered, its socket is closed, and it has left the set. -/
def IsOver (s : HttpServerTransport) (i : ℕ) : Prop :=
  ∃ v, s.view i = some v ∧ Answering v.conn.history ∧ v.conn.socketOpen = false
    ∧ v.registered = false

/-- What serving connection `i` leaves alone. -/
structure ServesOnly (i : ℕ) (s s' : HttpServerTransport) : Prop where
  acceptorOpen : s'.acceptorOpen = s.acceptorOpen
  pendingAccepts : s'.pendingAccepts = s.pendingAccepts
  others : ∀ j, i ≠ j → s'.view j = s.view j

/-- Serving a connection can go on. -/
theorem ServesOnly.trans {s'' : HttpServerTransport} (h : ServesOnly i s s')
    (h' : ServesOnly i s' s'') : ServesOnly i s s'' :=
  ⟨h'.acceptorOpen.trans h.acceptorOpen, h'.pendingAccepts.trans h.pendingAccepts,
    fun j hj => (h'.others j hj).trans (h.others j hj)⟩

/-- An answer that is being written arrives, and the connection is over. -/
theorem exists_written (hc : s.connections[i]? = some c) (hanswer : Answering c.history)
    (hwrite : c.awaitsWrite 0 = true) :
    ∃ s', s.step (.writeDone i 0 .success) = some s' ∧ ServesOnly i s s'
      ∧ s'.clientConnections_ = s.clientConnections_.erase i ∧ IsOver s' i := by
  have hstep : s.step (.writeDone i 0 .success) = some (s.onWrite i (c.complete 0) .success) := by
    simp only [step, hc]
    rw [if_pos hwrite]
  have hview := view_onWrite_self (c := c.complete 0) (view_of_connection hc) .success
  exact ⟨_, hstep, ⟨rfl, rfl, fun j hij => view_onWrite_ne hij .success⟩, rfl, _, hview,
    hanswer.append_shutdown, rfl, rfl⟩

/-- A request that is being read can be completed, and is answered. -/
theorem exists_decided (hc : s.connections[i]? = some c) (hphase : Phase c)
    (hread : c.awaitsRead 0 = true) (env : Env) :
    ∃ r s', s.step (.readDone i 0 .success r env) = some s' ∧ ServesOnly i s s'
      ∧ s'.clientConnections_ = s.clientConnections_
      ∧ ∃ c', s'.connections[i]? = some c' ∧ Answering c'.history ∧ c'.awaitsWrite 0 = true := by
  have hlength : c.reqParser_.completion.length ≤ bufferSize := by
    cases c.reqParser_ <;> decide
  obtain ⟨-, ⟨b, hpending⟩, hreading⟩ := hphase.of_awaitsRead hread
  have hgood : ((c.complete 0).receive ⟨c.reqParser_.completion, hlength⟩).result = .good := by
    have hverdict : (parserScanner.scan (c.reqParser_, c.req_) c.reqParser_.completion).verdict
        = some .good := (decides_completion c.reqParser_ c.req_).1
    rw [(receive_eq_scan _ _).1]
    show (parserScanner.scan (c.reqParser_, c.req_) c.reqParser_.completion).verdict.getD _ = _
    rw [hverdict]
    rfl
  have hstep : s.step (.readDone i 0 .success ⟨c.reqParser_.completion, hlength⟩ env)
      = some (s.onRead i (c.complete 0) .success ⟨c.reqParser_.completion, hlength⟩ env) := by
    simp only [step, hc]
    rw [if_pos hread]
  have hview := view_onRead_self (c := c.complete 0) (view_of_connection hc) .success
    ⟨c.reqParser_.completion, hlength⟩ env
  have hanswer := answering_onReadSuccess (c := c.complete 0) hreading env s.reqHandler_
    ⟨c.reqParser_.completion, hlength⟩
  rw [hgood] at hanswer
  refine ⟨_, _, hstep, ⟨rfl, rfl, fun j hij => view_onRead_ne hij .success _ env⟩, rfl, _,
    (connection_of_view hview).1, hanswer.1, ?_⟩
  -- the connection has answered, so the one operation it has started is its write
  have hphase' := phase_onReadSuccess (Phase.complete_zero hpending) hreading env s.reqHandler_
    ⟨c.reqParser_.completion, hlength⟩
  obtain ⟨kind, hone⟩ := onReadSuccess_pending (Phase.complete_zero hpending) env s.reqHandler_
    ⟨c.reqParser_.completion, hlength⟩
  show HttpClientConnection.awaitsWrite _ 0 = true
  cases hphase' with
  | reading b _ hhistory => exact absurd hanswer.1 hhistory.not_answering
  | writing b hpending' _ => simp [HttpClientConnection.awaitsWrite, Session.onRead, hpending']
  | ended hpending' _ =>
    rw [hone] at hpending'
    cases hpending'

/-- **A connection in the set can be served.** -/
theorem exists_served (hrun : Runs step AbortedOnlyClosed (initial docRoot) es s)
    (hi : i ∈ s.clientConnections_) (env : Env) :
    ∃ es' s', Runs step Delivers s es' s' ∧ es'.length ≤ 2 ∧ ServesOnly i s s'
      ∧ s'.clientConnections_ = s.clientConnections_.erase i ∧ IsOver s' i := by
  obtain ⟨c, hc, hphase, hone⟩ := exists_registered hrun hi
  cases hphase with
  | reading b hpending hhistory =>
    have hread : c.awaitsRead 0 = true := by simp [HttpClientConnection.awaitsRead, hpending]
    obtain ⟨r, s₁, hstep₁, honly₁, hset₁, c₁, hc₁, hanswer, hwrite⟩ :=
      exists_decided hc (.reading b hpending hhistory) hread env
    obtain ⟨s₂, hstep₂, honly₂, hset₂, hover⟩ := exists_written hc₁ hanswer hwrite
    refine ⟨_, s₂, Runs.cons (show Delivers s (.readDone i 0 .success r env) from rfl) hstep₁
      (Runs.single (show Delivers s₁ (.writeDone i 0 .success) from rfl) hstep₂), le_rfl,
      honly₁.trans honly₂, ?_, hover⟩
    rw [hset₂, hset₁]
  | writing b hpending hhistory =>
    have hwrite : c.awaitsWrite 0 = true := by simp [HttpClientConnection.awaitsWrite, hpending]
    obtain ⟨s₁, hstep₁, honly₁, hset₁, hover⟩ := exists_written hc hhistory hwrite
    exact ⟨_, s₁, Runs.single (show Delivers s (.writeDone i 0 .success) from rfl) hstep₁,
      Nat.le_succ 1, honly₁, hset₁, hover⟩
  | ended hpending _ =>
    rw [hpending] at hone
    cases hone

/-! ## Serving all -/

/-- **No connection is stuck.**  From every state of every run in which operations are
aborted only on closed sockets, the clients can complete their requests: there are bytes for
each of them to send (`State.completion`) with which, by two events at most for each
connection in the set, all of them have their answer, with their sockets closed and the set
empty; the acceptor and all other connections stay as they are. -/
theorem all_served (docRoot : Bytes) (env : Env) (es : List Event) (s : HttpServerTransport)
    (hrun : Runs step AbortedOnlyClosed (initial docRoot) es s) :
    ∃ es' s', Runs step Delivers s es' s' ∧ es'.length ≤ 2 * s.clientConnections_.card
      ∧ s'.clientConnections_ = ∅ ∧ s'.acceptorOpen = s.acceptorOpen
      ∧ s'.pendingAccepts = s.pendingAccepts ∧ (∀ i ∈ s.clientConnections_, IsOver s' i)
      ∧ ∀ j, j ∉ s.clientConnections_ → s'.view j = s.view j := by
  induction hn : s.clientConnections_.card generalizing s es with
  | zero =>
    have hempty := Finset.card_eq_zero.mp hn
    refine ⟨[], s, Runs.nil s, Nat.zero_le _, hempty, rfl, rfl, ?_, fun _ _ => rfl⟩
    intro i hi
    rw [hempty] at hi
    exact absurd hi (Finset.notMem_empty i)
  | succ n ih =>
    obtain ⟨i, hi⟩ := Finset.card_pos.mp (by omega : 0 < s.clientConnections_.card)
    obtain ⟨es₁, s₁, h₁, hlength₁, honly, hset, hover⟩ := exists_served hrun hi env
    have hcard : s₁.clientConnections_.card = n := by
      rw [hset, Finset.card_erase_of_mem hi, hn, Nat.add_sub_cancel]
    have hrun₁ := hrun.append (h₁.mono fun _ _ => abortedOnlyClosed_of_delivers)
    obtain ⟨es₂, s₂, h₂, hlength₂, hempty, hopen, haccepts, hall, hothers⟩ := ih _ s₁ hrun₁ hcard
    refine ⟨es₁ ++ es₂, s₂, h₁.append h₂, ?_, hempty, hopen.trans honly.acceptorOpen,
      haccepts.trans honly.pendingAccepts, ?_, ?_⟩
    · rw [List.length_append]
      omega
    · intro j hj
      by_cases hij : i = j
      · -- it has left the set, so nothing happens to it any more
        subst hij
        obtain ⟨v, hv, hrest⟩ := hover
        refine ⟨v, ?_, hrest⟩
        rw [hothers i (by rw [hset]; exact Finset.notMem_erase i _)]
        exact hv
      · exact hall j (by rw [hset]; exact Finset.mem_erase.mpr ⟨Ne.symm hij, hj⟩)
    · intro j hj
      have hij : i ≠ j := fun h => hj (h ▸ hi)
      rw [hothers j (by rw [hset]; exact fun hmem => hj (Finset.mem_of_mem_erase hmem)),
        honly.others j hij]

theorem length_halfRequest : (str "GET /js").length ≤ bufferSize := by decide

/-- A client is being answered, and another one has sent half a request. -/
def twoClients : List Event :=
  serveOne ++ [.acceptDone .success ⟨⟨List.replicate bufferSize 0, length_zeros⟩, 0, 0, .ok⟩,
    .readDone 1 0 .success ⟨str "GET /js", length_halfRequest⟩ ⟨fun _ _ => [], fun _ => none⟩]

theorem twoClients_runs :
    (run step AbortedOnlyClosed (initial []) twoClients).isSome = true := by
  decide +kernel

/-- Both can be served, by four events at most. -/
theorem all_served_twoClients :
    ∃ es' s', Runs step Delivers ((run step AbortedOnlyClosed (initial []) twoClients).get
        twoClients_runs) es' s'
      ∧ es'.length ≤ 4 ∧ IsOver s' 0 ∧ IsOver s' 1 ∧ s'.clientConnections_ = ∅ := by
  obtain ⟨es', s', hrun, hlength, hempty, -, -, hall, -⟩ :=
    all_served [] ⟨fun _ _ => [], fun _ => none⟩ twoClients _ (runs_get twoClients_runs)
  have hcard : ((run step AbortedOnlyClosed (initial []) twoClients).get
      twoClients_runs).clientConnections_.card = 2 := by
    decide +kernel
  rw [hcard] at hlength
  exact ⟨es', s', hrun, hlength, hall 0 (by decide +kernel), hall 1 (by decide +kernel), hempty⟩

end HttpServerTransport

end Unichannel
