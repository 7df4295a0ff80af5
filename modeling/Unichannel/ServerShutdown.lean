/-
# Stopping the server

When the signal handler runs `HttpServerTransport::stop`, completions may still be
queued: accepts and reads that have succeeded, writes, aborted operations.  Their
handlers run on a server whose acceptor, sockets and set are closed and empty
(`Stopped`), and this is all they can find in whatever order they run.  Nothing is
registered or accepted any more, what is started is started on closed sockets, and
the work left goes down with every completion.
-/
import Unichannel.ConnectionProtocol
import Unichannel.Lib.Tally

namespace Unichannel

open GuardedSystem

/-! ## Counting operations -/

/-- How many handlers an outstanding operation can still lead to: its own, and
that of the operation its handler may start. -/
def Op.work (op : Op) : ℕ := if op.kind = .read ∧ op.onOpen = true then 2 else 1

/-- The sum of `f` over the outstanding operations of a connection. -/
def HttpClientConnection.tally (f : Op → ℕ) (c : HttpClientConnection) : ℕ :=
  Tally.total f c.pending

/-- The sum of `f` over the outstanding operations of all connections. -/
def HttpServerTransport.tally (f : Op → ℕ) (s : HttpServerTransport) : ℕ :=
  Tally.total (HttpClientConnection.tally f) s.connections

/-- The outstanding operations of the server. -/
def HttpServerTransport.operations (s : HttpServerTransport) : ℕ :=
  s.pendingAccepts + s.tally fun _ => 1

/-- The measure: how many handlers can still run. -/
def HttpServerTransport.work (s : HttpServerTransport) : ℕ :=
  s.pendingAccepts + s.tally Op.work

section TallyLemmas

variable {f : Op → ℕ} {s : HttpServerTransport} {i : ℕ} {c₀ : HttpClientConnection}

/-- When a connection changes, its share of the count is exchanged. -/
theorem tally_setConnection (hc : s.connections[i]? = some c₀) (c : HttpClientConnection) :
    (s.setConnection i c).tally f + c₀.tally f = s.tally f + c.tally f :=
  Tally.total_set (HttpClientConnection.tally f) c hc

/-- Closing a socket leaves its operations outstanding. -/
theorem tally_managerStop : (s.managerStop i).tally f = s.tally f := by
  have hstop : ∀ c : HttpClientConnection, c.stop.tally f = c.tally f := fun _ => rfl
  exact Tally.total_modify_of_eq (HttpClientConnection.tally f) hstop s.connections i

/-- `stop_all` leaves the operations outstanding. -/
theorem tally_stopAll : s.stopAll.tally f = s.tally f := by
  refine Tally.total_mapIdx_of_eq (HttpClientConnection.tally f) ?_ s.connections
  intro j c
  split_ifs <;> rfl

theorem tally_stop : s.stop.tally f = s.tally f := by
  rw [HttpServerTransport.stop_eq]
  exact tally_stopAll

/-- The read handler changes the tally by what it changes for its connection. -/
theorem tally_onRead (hc : s.connections[i]? = some c₀) (c : HttpClientConnection)
    (registered : Bool) (ec : ErrorCode) (r : ReadBytes) (env : Env) :
    (s.onRead i c ec r env).tally f + c₀.tally f
      = s.tally f + ((⟨c, registered⟩ : Session).onRead ec r env s.reqHandler_).conn.tally f := by
  cases ec with
  | success => exact tally_setConnection hc _
  | operationAborted => exact tally_setConnection hc c
  | other =>
    rw [HttpServerTransport.onRead, tally_managerStop]
    exact tally_setConnection hc c

/-- So does the write handler. -/
theorem tally_onWrite (hc : s.connections[i]? = some c₀) (c : HttpClientConnection)
    (registered : Bool) (ec : ErrorCode) :
    (s.onWrite i c ec).tally f + c₀.tally f
      = s.tally f + ((⟨c, registered⟩ : Session).onWrite ec).conn.tally f := by
  cases ec with
  | success =>
    have hset := tally_setConnection (f := f) hc c.shutdown
    rw [← tally_managerStop (i := i)] at hset
    exact hset
  | operationAborted => exact tally_setConnection hc c
  | other =>
    have hset := tally_setConnection (f := f) hc c
    rw [← tally_managerStop (i := i)] at hset
    exact hset

end TallyLemmas

/-! ## What the handlers of connections leave alone -/

/-- The parts of the server that only the acceptor changes; the set of the manager
may have shrunk. -/
structure Frame (s s' : HttpServerTransport) : Prop where
  acceptorOpen : s'.acceptorOpen = s.acceptorOpen
  pendingAccepts : s'.pendingAccepts = s.pendingAccepts
  acceptsIssued : s'.acceptsIssued = s.acceptsIssued
  connections_length : s'.connections.length = s.connections.length
  clientConnections_subset : s'.clientConnections_ ⊆ s.clientConnections_

section FrameLemmas

variable {s : HttpServerTransport} {i : ℕ} {c : HttpClientConnection}

theorem Frame.trans {s s' s'' : HttpServerTransport} (h : Frame s s') (h' : Frame s' s'') :
    Frame s s'' :=
  ⟨h'.acceptorOpen.trans h.acceptorOpen, h'.pendingAccepts.trans h.pendingAccepts,
    h'.acceptsIssued.trans h.acceptsIssued, h'.connections_length.trans h.connections_length,
    h'.clientConnections_subset.trans h.clientConnections_subset⟩

/-- A connection that changes does not touch the acceptor. -/
theorem frame_setConnection : Frame s (s.setConnection i c) :=
  ⟨rfl, rfl, rfl, List.length_set, Finset.Subset.refl _⟩

theorem frame_managerStop : Frame s (s.managerStop i) :=
  ⟨rfl, rfl, rfl, List.length_modify _ _ _, Finset.erase_subset _ _⟩

theorem frame_stopAll : Frame s s.stopAll :=
  ⟨rfl, rfl, rfl, List.length_mapIdx, Finset.empty_subset _⟩

/-- A read handler leaves the acceptor alone. -/
theorem frame_onRead (ec : ErrorCode) (r : ReadBytes) (env : Env) :
    Frame s (s.onRead i c ec r env) := by
  cases ec with
  | success => exact ⟨rfl, rfl, rfl, List.length_set, Finset.Subset.refl _⟩
  | operationAborted => exact frame_setConnection
  | other => exact frame_setConnection.trans frame_managerStop

theorem frame_onWrite (ec : ErrorCode) : Frame s (s.onWrite i c ec) := by
  cases ec with
  | success => exact frame_setConnection.trans frame_managerStop
  | operationAborted => exact frame_setConnection
  | other => exact frame_setConnection.trans frame_managerStop

end FrameLemmas

/-! ## Closed sockets -/

/-- What was started was started on a closed socket. -/
def StartsOnClosed (acts : List Act) : Prop :=
  .readStarted true ∉ acts ∧ .writeStarted true ∉ acts

/-- The history of a connection has gone on, on closed sockets only. -/
def GoesOnClosed (c c' : HttpClientConnection) : Prop :=
  ∃ acts, c'.history = c.history ++ acts ∧ StartsOnClosed acts

theorem GoesOnClosed.refl (c : HttpClientConnection) : GoesOnClosed c c :=
  ⟨[], (List.append_nil _).symm, List.not_mem_nil, List.not_mem_nil⟩

theorem GoesOnClosed.trans {c c' c'' : HttpClientConnection} (h : GoesOnClosed c c')
    (h' : GoesOnClosed c' c'') : GoesOnClosed c c'' := by
  obtain ⟨acts, heq, hread, hwrite⟩ := h
  obtain ⟨acts', heq', hread', hwrite'⟩ := h'
  refine ⟨acts ++ acts', by rw [heq', heq, List.append_assoc], ?_, ?_⟩
  · rw [List.mem_append, not_or]
    exact ⟨hread, hread'⟩
  · rw [List.mem_append, not_or]
    exact ⟨hwrite, hwrite'⟩

/-- The read handler starts on a closed socket if it finds a closed socket. -/
theorem goesOnClosed_onReadSuccess {c : HttpClientConnection} (hclosed : c.socketOpen = false)
    (env : Env) (h : HttpReqHandler) (r : ReadBytes) :
    GoesOnClosed c (c.onReadSuccess env h r).1 := by
  have hclosed' : (c.receive r).conn.socketOpen = false := hclosed
  have hhistory' : (c.receive r).conn.history = c.history ++ [.parsed (c.receive r).result] := rfl
  rcases HttpClientConnection.onReadSuccess_cases env h c r with ⟨-, rep, heq⟩ | ⟨-, heq⟩
  · rw [heq]
    refine ⟨[.parsed (c.receive r).result, .replySet, .writeStarted false], ?_, by simp, by simp⟩
    simp [HttpClientConnection.doWrite, HttpClientConnection.setReply, hclosed', hhistory']
  · rw [heq]
    refine ⟨[.parsed (c.receive r).result, .readStarted false], ?_, by simp, by simp⟩
    simp [HttpClientConnection.doRead, hclosed', hhistory']

/-- **Step lemma**: a closed socket stays closed, and what is started on it is
started on a closed socket. -/
theorem closed_step {v v' : Session} {b : SessionEvent} (hclosed : v.conn.socketOpen = false)
    (hstep : v.step b = some v') :
    v'.conn.socketOpen = false ∧ GoesOnClosed v.conn v'.conn := by
  cases b with
  | readDone k ec r env h =>
    obtain ⟨-, rfl⟩ := Session.step_readDone hstep
    have hclosed' : (v.conn.complete k).socketOpen = false := hclosed
    cases ec with
    | success =>
      exact ⟨(onReadSuccess_socketOpen _ env h r).trans hclosed',
        goesOnClosed_onReadSuccess hclosed' env h r⟩
    | operationAborted => exact ⟨hclosed, GoesOnClosed.refl _⟩
    | other => exact ⟨rfl, GoesOnClosed.refl _⟩
  | writeDone k ec =>
    obtain ⟨-, rfl⟩ := Session.step_writeDone hstep
    cases ec with
    | success => exact ⟨rfl, [.shutdown], rfl, by simp, by simp⟩
    | operationAborted => exact ⟨hclosed, GoesOnClosed.refl _⟩
    | other => exact ⟨rfl, GoesOnClosed.refl _⟩
  | stopAll =>
    cases hstep
    rcases v.stopAll_cases with heq | ⟨-, heq⟩
    · rw [heq]
      exact ⟨rfl, GoesOnClosed.refl _⟩
    · rw [heq]
      exact ⟨hclosed, GoesOnClosed.refl _⟩

/-- A connection that is not in the set of the manager has its socket closed. -/
def Dropped (v : Session) : Prop := v.registered = false → v.conn.socketOpen = false

/-- Whether it was in the set or not, `stop_all` leaves its socket closed. -/
theorem Dropped.stopAll_closed {v : Session} (h : Dropped v) :
    v.stopAll.conn.socketOpen = false := by
  rcases v.stopAll_cases with heq | ⟨hreg, heq⟩
  · rw [heq]
    rfl
  · rw [heq]
    exact h hreg

/-- **Step lemma.** -/
theorem dropped_step {v v' : Session} {b : SessionEvent} (h : Dropped v)
    (hstep : v.step b = some v') : Dropped v' := by
  cases b with
  | readDone k ec r env hd =>
    obtain ⟨-, rfl⟩ := Session.step_readDone hstep
    cases ec with
    | success => exact fun hreg => (onReadSuccess_socketOpen _ env hd r).trans (h hreg)
    | operationAborted => exact h
    | other => exact fun _ => rfl
  | writeDone k ec =>
    obtain ⟨-, rfl⟩ := Session.step_writeDone hstep
    cases ec with
    | success => exact fun _ => rfl
    | operationAborted => exact h
    | other => exact fun _ => rfl
  | stopAll =>
    cases hstep
    exact fun _ => h.stopAll_closed

/-! ## The stopped server -/

/-- What the handlers find after `stop`. -/
structure Stopped (s : HttpServerTransport) : Prop where
  acceptor : s.acceptorOpen = false
  empty : s.clientConnections_ = ∅
  closed : ∀ i v, s.view i = some v → v.conn.socketOpen = false
  phase : ∀ i v, s.view i = some v → Phase v.conn

/-- In every run a connection that is not in the set has its socket closed. -/
theorem dropped_run {docRoot : Bytes} {P : HttpServerTransport → Event → Prop} {es : List Event}
    {s : HttpServerTransport} (hrun : Runs HttpServerTransport.step P (.initial docRoot) es s)
    {i : ℕ} {v : Session} (hv : s.view i = some v) : Dropped v := by
  refine HttpServerTransport.session_invariant (Q := anyStep) (I := Dropped)
    (fun _ _ _ _ _ _ _ _ => trivial) ?_ ?_ hrun hv
  · intro u hreg
    exact absurd hreg.symm Bool.false_ne_true
  · intro v b v' h _ hstep
    exact dropped_step h hstep

/-- `stop` leaves a stopped server, from any state the loop can be in. -/
theorem stopped_of_signal {docRoot : Bytes} {P : HttpServerTransport → Event → Prop}
    {es : List Event} {s s₁ : HttpServerTransport}
    (hrun : Runs HttpServerTransport.step P (.initial docRoot) es s)
    (hsignal : s.step .signal = some s₁) : Stopped s₁ := by
  obtain ⟨-, rfl⟩ := HttpServerTransport.step_signal hsignal
  have hview : ∀ i v, (HttpServerTransport.stop { s with signalWait := false }).view i = some v →
      ∃ v₀, s.view i = some v₀ ∧ v₀.stopAll = v := by
    intro i v hv
    rw [HttpServerTransport.view_stop, Option.map_eq_some_iff] at hv
    exact hv
  refine ⟨?_, rfl, ?_, ?_⟩
  · rw [HttpServerTransport.stop_eq]
    rfl
  · intro i v hv
    obtain ⟨v₀, hv₀, rfl⟩ := hview i v hv
    exact (dropped_run hrun hv₀).stopAll_closed
  · intro i v hv
    obtain ⟨v₀, hv₀, rfl⟩ := hview i v hv
    exact phase_step (b := .stopAll) (phase_run hrun hv₀) rfl

section StoppedServer

variable {s s' : HttpServerTransport} {e : Event}

/-- An accept that completes after `stop` is dropped. -/
theorem Stopped.step_acceptDone {ec : ErrorCode} {u : Uninitialised} (h : Stopped s)
    (hstep : s.step (.acceptDone ec u) = some s') :
    0 < s.pendingAccepts ∧ s' = { s with pendingAccepts := s.pendingAccepts - 1 } := by
  obtain ⟨hpending, rfl⟩ := HttpServerTransport.step_acceptDone hstep
  refine ⟨hpending, ?_⟩
  unfold HttpServerTransport.onAccept
  rw [if_pos (by simp [h.acceptor])]

/-- What no event changes once the server is stopped. -/
theorem Stopped.frame (h : Stopped s) (hstep : s.step e = some s') :
    s'.acceptorOpen = false ∧ s'.acceptsIssued = s.acceptsIssued
      ∧ s'.connections.length = s.connections.length ∧ s'.clientConnections_ = ∅ := by
  have hframe : ∀ t, Frame s t → t.acceptorOpen = false ∧ t.acceptsIssued = s.acceptsIssued
      ∧ t.connections.length = s.connections.length ∧ t.clientConnections_ = ∅ := by
    intro t ht
    refine ⟨ht.acceptorOpen.trans h.acceptor, ht.acceptsIssued, ht.connections_length, ?_⟩
    have hsub := ht.clientConnections_subset
    rw [h.empty] at hsub
    exact Finset.subset_empty.mp hsub
  cases e with
  | acceptDone ec u =>
    obtain ⟨-, rfl⟩ := h.step_acceptDone hstep
    exact ⟨h.acceptor, rfl, rfl, h.empty⟩
  | readDone i k ec r env =>
    obtain ⟨c, -, -, rfl⟩ := HttpServerTransport.step_readDone hstep
    exact hframe _ (frame_onRead ec r env)
  | writeDone i k ec =>
    obtain ⟨c, -, -, rfl⟩ := HttpServerTransport.step_writeDone hstep
    exact hframe _ (frame_onWrite ec)
  | stopAll =>
    cases hstep
    exact hframe _ frame_stopAll
  | signal =>
    obtain ⟨-, rfl⟩ := HttpServerTransport.step_signal hstep
    rw [HttpServerTransport.stop_eq]
    exact ⟨rfl, rfl, List.length_mapIdx, rfl⟩
  | addStat stat =>
    cases hstep
    exact ⟨h.acceptor, rfl, rfl, h.empty⟩

/-- No connection appears once the server is stopped. -/
theorem Stopped.view_of_step (h : Stopped s) (hstep : s.step e = some s') {i : ℕ} {v' : Session}
    (hv' : s'.view i = some v') :
    ∃ v, s.view i = some v ∧ (v' = v ∨ ∃ b, v.step b = some v') := by
  rcases HttpServerTransport.step_view hstep hv' with ⟨hnone, -⟩ | ⟨v, hv, hcases⟩
  · -- the connections are as many as before
    have hlen := (h.frame hstep).2.2.1
    have hlt := (List.getElem?_eq_some_iff.mp (HttpServerTransport.connection_of_view hv').1).1
    rw [hlen] at hlt
    rw [HttpServerTransport.view, Option.map_eq_none_iff, List.getElem?_eq_none_iff] at hnone
    omega
  · refine ⟨v, hv, ?_⟩
    rcases hcases with heq | ⟨b, -, hb⟩
    · exact Or.inl heq
    · exact Or.inr ⟨b, hb⟩

/-- **Step lemma**: a stopped server stays stopped. -/
theorem Stopped.step (h : Stopped s) (hstep : s.step e = some s') : Stopped s' := by
  obtain ⟨hacceptor, -, -, hempty⟩ := h.frame hstep
  refine ⟨hacceptor, hempty, ?_, ?_⟩
  · intro i v' hv'
    obtain ⟨v, hv, heq | ⟨b, hb⟩⟩ := h.view_of_step hstep hv'
    · rw [heq]
      exact h.closed i v hv
    · exact (closed_step (h.closed i v hv) hb).1
  · intro i v' hv'
    obtain ⟨v, hv, heq | ⟨b, hb⟩⟩ := h.view_of_step hstep hv'
    · rw [heq]
      exact h.phase i v hv
    · exact phase_step (h.phase i v hv) hb

end StoppedServer

/-! ## The work left -/

/-- The operation an event reports as successful. -/
def Event.succeeded : Event → Option (ℕ × ℕ)
  | .readDone i k .success _ _ => some (i, k)
  | .writeDone i k .success => some (i, k)
  | _ => none

/-- An operation that was started on a closed socket completes with an error. -/
def FailsWhenClosed (s : HttpServerTransport) (e : Event) : Prop :=
  ∀ p ∈ e.succeeded, ∀ c ∈ s.connections[p.1]?, ∀ op ∈ c.pending[p.2]?, op.onOpen = true

instance : DecidableRel FailsWhenClosed := fun s e =>
  inferInstanceAs (Decidable (∀ p ∈ e.succeeded, ∀ c ∈ s.connections[p.1]?,
    ∀ op ∈ c.pending[p.2]?, op.onOpen = true))

/-- The completions: the events that run the handler of an outstanding
operation. -/
def Event.isCompletion : Event → Bool
  | .acceptDone _ _ => true
  | .readDone _ _ _ _ _ => true
  | .writeDone _ _ _ => true
  | _ => false

/-- Every outstanding operation is some work. -/
theorem Op.work_pos (op : Op) : 0 < op.work := by
  unfold Op.work
  split_ifs <;> omega

/-- A connection whose operation was the last one leaves less work, and no more
operations. -/
theorem tally_lt_of_last {c c' : HttpClientConnection} {op : Op} (hpending : c.pending = [op])
    (hc' : c'.pending = []) :
    c'.tally Op.work < c.tally Op.work ∧ c'.tally (fun _ => 1) ≤ c.tally fun _ => 1 := by
  have hpos := op.work_pos
  simp only [HttpClientConnection.tally, hc', hpending]
  simpa using hpos

/-- On a closed socket a read handler leaves less work, and no more
operations. -/
theorem tally_read_lt {c : HttpClientConnection} {b : Bool} {ec : ErrorCode} (registered : Bool)
    (hpending : c.pending = [⟨.read, b⟩]) (hclosed : c.socketOpen = false)
    (hec : ec = .success → b = true) (r : ReadBytes) (env : Env) (h : HttpReqHandler) :
    let c' := ((⟨c.complete 0, registered⟩ : Session).onRead ec r env h).conn
    c'.tally Op.work < c.tally Op.work ∧ c'.tally (fun _ => 1) ≤ c.tally fun _ => 1 := by
  have hnone := Phase.complete_zero hpending
  intro c'
  cases ec with
  | success =>
    obtain ⟨kind, hone⟩ := onReadSuccess_pending hnone env h r
    have hc' : c'.pending = [⟨kind, (c.complete 0).socketOpen⟩] := hone
    have hclosed' : (c.complete 0).socketOpen = false := hclosed
    -- the read was started on an open socket, the operation after it is not
    simp only [HttpClientConnection.tally, hc', hpending, hclosed', hec rfl]
    simp [Op.work]
  | operationAborted => exact tally_lt_of_last hpending hnone
  | other => exact tally_lt_of_last hpending hnone

/-- So does a write handler, on any socket. -/
theorem tally_write_lt {c : HttpClientConnection} {op : Op} (registered : Bool) (ec : ErrorCode)
    (hpending : c.pending = [op]) :
    let c' := ((⟨c.complete 0, registered⟩ : Session).onWrite ec).conn
    c'.tally Op.work < c.tally Op.work ∧ c'.tally (fun _ => 1) ≤ c.tally fun _ => 1 := by
  have hnone := Phase.complete_zero hpending
  intro c'
  have hc' : c'.pending = [] := by cases ec <;> exact hnone
  exact tally_lt_of_last hpending hc'

section Work

variable {s s' : HttpServerTransport} {e : Event}

/-- What a handler changes for its connection it changes for the server. -/
theorem work_lt_of_connection {c c' : HttpClientConnection} (hframe : Frame s s')
    (htally : ∀ f : Op → ℕ, s'.tally f + c.tally f = s.tally f + c'.tally f)
    (hlt : c'.tally Op.work < c.tally Op.work ∧ c'.tally (fun _ => 1) ≤ c.tally fun _ => 1) :
    s'.work < s.work ∧ s'.operations ≤ s.operations := by
  have haccepts := hframe.pendingAccepts
  have hwork := htally Op.work
  have hops := htally fun _ => 1
  rw [HttpServerTransport.work, HttpServerTransport.work, HttpServerTransport.operations,
    HttpServerTransport.operations, haccepts]
  omega

/-- **Step lemma**: on a stopped server every completion decreases the work, and
leads to at most one further operation. -/
theorem Stopped.work_lt (h : Stopped s) (hP : FailsWhenClosed s e)
    (he : e.isCompletion = true) (hstep : s.step e = some s') :
    s'.work < s.work ∧ s'.operations ≤ s.operations := by
  cases e with
  | acceptDone ec u =>
    obtain ⟨hpending, rfl⟩ := h.step_acceptDone hstep
    show s.pendingAccepts - 1 + s.tally Op.work < s.pendingAccepts + s.tally Op.work
      ∧ s.pendingAccepts - 1 + (s.tally fun _ => 1) ≤ s.pendingAccepts + s.tally fun _ => 1
    omega
  | readDone i k ec r env =>
    obtain ⟨c, hc, hk, rfl⟩ := HttpServerTransport.step_readDone hstep
    have hphase : Phase c := h.phase i _ (HttpServerTransport.view_of_connection hc)
    have hclosed : c.socketOpen = false := h.closed i _ (HttpServerTransport.view_of_connection hc)
    obtain ⟨rfl, ⟨b, hb⟩, -⟩ := hphase.of_awaitsRead hk
    -- the read can only succeed if it was started before the socket was closed
    have hec : ec = .success → b = true := by
      rintro rfl
      exact hP (i, 0) rfl c hc ⟨.read, b⟩ (by rw [hb]; rfl)
    exact work_lt_of_connection (frame_onRead ec r env)
      (fun f => tally_onRead hc (c.complete 0) true ec r env)
      (tally_read_lt true hb hclosed hec r env s.reqHandler_)
  | writeDone i k ec =>
    obtain ⟨c, hc, hk, rfl⟩ := HttpServerTransport.step_writeDone hstep
    have hphase : Phase c := h.phase i _ (HttpServerTransport.view_of_connection hc)
    obtain ⟨rfl, ⟨op, hop⟩, -⟩ := hphase.of_awaitsWrite hk
    exact work_lt_of_connection (frame_onWrite ec)
      (fun f => tally_onWrite hc (c.complete 0) true ec) (tally_write_lt true ec hop)
  | stopAll => cases he
  | signal => cases he
  | addStat stat => cases he

/-- The events that are no completions leave the work as it is. -/
theorem work_eq (he : e.isCompletion = false) (hstep : s.step e = some s') :
    s'.work = s.work := by
  cases e with
  | acceptDone ec u => cases he
  | readDone i k ec r env => cases he
  | writeDone i k ec => cases he
  | stopAll =>
    cases hstep
    rw [HttpServerTransport.work, HttpServerTransport.work, tally_stopAll]
    rfl
  | signal =>
    obtain ⟨-, rfl⟩ := HttpServerTransport.step_signal hstep
    rw [HttpServerTransport.work, HttpServerTransport.work, tally_stop,
      HttpServerTransport.stop_eq]
    rfl
  | addStat stat =>
    cases hstep
    rfl

/-- As long as an operation is outstanding, it can complete with an error. -/
theorem exists_completion (hops : s.operations ≠ 0) :
    ∃ e, e.isCompletion = true ∧ FailsWhenClosed s e ∧ ∃ s', s.step e = some s' := by
  by_cases haccepts : s.pendingAccepts = 0
  · -- some connection has an operation outstanding
    obtain ⟨c, hmem, hc⟩ : ∃ c ∈ s.connections, c.pending ≠ [] := by
      by_contra hnone
      push Not at hnone
      apply hops
      have hzero : ∀ c ∈ s.connections, c.tally (fun _ => 1) = 0 := by
        intro c hc
        rw [HttpClientConnection.tally, hnone c hc]
        rfl
      rw [HttpServerTransport.operations, haccepts, HttpServerTransport.tally,
        Tally.total_eq_zero _ hzero]
      rfl
    obtain ⟨i, hi⟩ := List.getElem?_of_mem hmem
    obtain ⟨op, ops, hpending⟩ := List.exists_cons_of_ne_nil hc
    by_cases hkind : op.kind = .read
    · refine ⟨.readDone i 0 .other ⟨[], Nat.zero_le _⟩ ⟨fun _ _ => [], fun _ => none⟩, rfl, ?_, ?_⟩
      · intro p hp
        cases hp
      · have hk : c.awaitsRead 0 = true := by
          simp [HttpClientConnection.awaitsRead, hpending, hkind]
        simp only [HttpServerTransport.step, hi, hk, if_true]
        exact ⟨_, rfl⟩
    · refine ⟨.writeDone i 0 .other, rfl, ?_, ?_⟩
      · intro p hp
        cases hp
      · have hk : c.awaitsWrite 0 = true := by
          simp [HttpClientConnection.awaitsWrite, hpending, hkind]
        simp only [HttpServerTransport.step, hi, hk, if_true]
        exact ⟨_, rfl⟩
  · refine ⟨.acceptDone .other ⟨⟨List.replicate bufferSize 0, List.length_replicate⟩, 0, 0, .ok⟩,
      rfl, ?_, ?_⟩
    · intro p hp
      cases hp
    · simp only [HttpServerTransport.step, if_pos (Nat.pos_of_ne_zero haccepts)]
      exact ⟨_, rfl⟩

end Work

/-! ## The end of the loop -/

/-- What holds between the state `stop` leaves and any later one. -/
structure StaysStopped (s₁ s₂ : HttpServerTransport) : Prop where
  /-- No connection has been made. -/
  connections_length : s₂.connections.length = s₁.connections.length
  /-- No accept has been issued. -/
  acceptsIssued : s₂.acceptsIssued = s₁.acceptsIssued
  /-- Reads and writes have been started on closed sockets only. -/
  goesOnClosed : ∀ (i : ℕ) (c₂ : HttpClientConnection), s₂.connections[i]? = some c₂ →
    ∃ c₁, s₁.connections[i]? = some c₁ ∧ GoesOnClosed c₁ c₂

/-- A stopped server stays so in every run. -/
theorem staysStopped_run {P : HttpServerTransport → Event → Prop} {es : List Event}
    {s₁ s₂ : HttpServerTransport} (h : Stopped s₁)
    (hrun : Runs HttpServerTransport.step P s₁ es s₂) : StaysStopped s₁ s₂ := by
  refine hrun.relates (I := Stopped) (R := StaysStopped) h
    (fun _ _ _ h _ hstep => h.step hstep) ?_ ?_ ?_
  · intro s
    exact ⟨rfl, rfl, fun i c hc => ⟨c, hc, GoesOnClosed.refl c⟩⟩
  · intro a b c hab hbc
    refine ⟨hbc.connections_length.trans hab.connections_length,
      hbc.acceptsIssued.trans hab.acceptsIssued, ?_⟩
    intro i c₂ hc₂
    obtain ⟨c₁, hc₁, hgo₁⟩ := hbc.goesOnClosed i c₂ hc₂
    obtain ⟨c₀, hc₀, hgo₀⟩ := hab.goesOnClosed i c₁ hc₁
    exact ⟨c₀, hc₀, hgo₀.trans hgo₁⟩
  · intro s e s' h _ hstep
    obtain ⟨-, hissued, hlen, -⟩ := h.frame hstep
    refine ⟨hlen, hissued, ?_⟩
    intro i c' hc'
    obtain ⟨v, hv, hcases⟩ := h.view_of_step hstep (HttpServerTransport.view_of_connection hc')
    refine ⟨v.conn, (HttpServerTransport.connection_of_view hv).1, ?_⟩
    rcases hcases with heq | ⟨b, hb⟩
    · rw [← heq]
      exact GoesOnClosed.refl c'
    · exact (closed_step (h.closed i v hv) hb).2

/-- **The loop ends.**  Let the signal handler run `stop` in any state of any run,
and let the events that are left come in any order, operations on closed sockets
failing.  Then nothing is registered any more and no connection is made; no accept
is issued; reads and writes are started on closed sockets only; there are at most
as many completions as the measure counts, each of which decreases it and leads to
at most one further operation; and the completions only stop when no operation is
outstanding. -/
theorem stop_ends_loop (docRoot : Bytes) (es es' : List Event) (s s₁ s₂ : HttpServerTransport)
    (hreach : Runs HttpServerTransport.step anyStep (.initial docRoot) es s)
    (hsignal : s.step .signal = some s₁)
    (hrun : Runs HttpServerTransport.step FailsWhenClosed s₁ es' s₂) :
    s₂.clientConnections_ = ∅
      ∧ StaysStopped s₁ s₂
      ∧ es'.countP Event.isCompletion + s₂.work ≤ s₁.work
      ∧ (∀ e s₃, e.isCompletion = true → FailsWhenClosed s₂ e → s₂.step e = some s₃ →
        s₃.work < s₂.work ∧ s₃.operations ≤ s₂.operations)
      ∧ ((∀ e, e.isCompletion = true → FailsWhenClosed s₂ e → s₂.step e = none) →
        s₂.operations = 0) := by
  have h₁ : Stopped s₁ := stopped_of_signal hreach hsignal
  have hinv : ∀ s e s', Stopped s → FailsWhenClosed s e → s.step e = some s' → Stopped s' :=
    fun _ _ _ h _ hstep => h.step hstep
  have h₂ : Stopped s₂ := hrun.invariant h₁ hinv
  refine ⟨h₂.empty, staysStopped_run h₁ hrun, ?_, ?_, ?_⟩
  · refine hrun.countP_add_le (I := Stopped) h₁ hinv ?_ ?_
    · intro s e s' h hP hstep
      cases he : e.isCompletion with
      | true => exact Nat.le_of_lt (h.work_lt hP he hstep).1
      | false => exact Nat.le_of_eq (work_eq he hstep)
    · intro s e s' h hP he hstep
      exact (h.work_lt hP he hstep).1
  · intro e s₃ he hP hstep
    exact h₂.work_lt hP he hstep
  · -- an outstanding operation can always fail, so the loop cannot be stuck on one
    intro hnone
    by_contra hops
    obtain ⟨e, he, hP, s', hstep⟩ := exists_completion hops
    rw [hnone e he hP] at hstep
    cases hstep

theorem length_getRequest : (str "GET / HTTP/1.0\r\n\r\n").length ≤ bufferSize := by decide

/-- A client connects. -/
def connectOne : List Event :=
  [.acceptDone .success ⟨⟨List.replicate bufferSize 0, length_zeros⟩, 0, 0, .ok⟩]

/-- Its request and another client were already there when the signal came: the
read succeeds, the accept is dropped, and the write that the read handler starts
fails. -/
def leftOver : List Event :=
  [.readDone 0 0 .success ⟨str "GET / HTTP/1.0\r\n\r\n", length_getRequest⟩
      ⟨fun _ _ => str "page", fun _ => none⟩,
    .acceptDone .success ⟨⟨List.replicate bufferSize 0, length_zeros⟩, 0, 0, .ok⟩,
    .writeDone 0 0 .other]

theorem connectOne_runs :
    (run HttpServerTransport.step anyStep (.initial []) connectOne).isSome = true := by
  decide +kernel

theorem connectOne_signal :
    (((run HttpServerTransport.step anyStep (.initial []) connectOne).get
      connectOne_runs).step .signal).isSome = true := by
  decide +kernel

/-- The signal has come. -/
def signalledOne : HttpServerTransport :=
  (((run HttpServerTransport.step anyStep (.initial []) connectOne).get
    connectOne_runs).step .signal).get connectOne_signal

theorem leftOver_runs :
    (run HttpServerTransport.step FailsWhenClosed signalledOne leftOver).isSome = true := by
  decide +kernel

/-- The three handlers that were left have run, and no operation is outstanding. -/
theorem stop_ends_loop_leftOver :
    ((run HttpServerTransport.step FailsWhenClosed signalledOne leftOver).get
        leftOver_runs).clientConnections_ = ∅
      ∧ signalledOne.work = 3
      ∧ ((run HttpServerTransport.step FailsWhenClosed signalledOne leftOver).get
        leftOver_runs).work = 0 := by
  obtain ⟨hempty, -, hwork, -, -⟩ := stop_ends_loop [] connectOne leftOver _ signalledOne _
    (runs_get connectOne_runs) (Option.some_get connectOne_signal).symm (runs_get leftOver_runs)
  have hthree : signalledOne.work = 3 := by decide +kernel
  have hcount : leftOver.countP Event.isCompletion = 3 := by decide
  refine ⟨hempty, hthree, ?_⟩
  omega

end Unichannel
