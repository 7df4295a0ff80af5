/-
# The protocol of a connection

What holds of every connection in every run of the event loop.  A connection is
reading, writing its one answer, or over (`Phase`); each event takes it from one
phase to the next.  Under the assumption that an operation is aborted only when
its socket was closed, the set of the connection manager holds exactly the
connections whose socket is open, and each of them waits for one operation.
-/
import Unichannel.HttpServerTransport

namespace Unichannel

open GuardedSystem

/-! ## Phases -/

/-- A history of reads that left the parser undecided. -/
def Reading (history : List Act) : Prop :=
  ∀ a ∈ history, (∃ b, a = .readStarted b) ∨ a = .parsed .indeterminate

/-- A history of reads, a decision of the parser, one answer, and nothing but
the shutdown of the socket after it. -/
def Answering (history : List Act) : Prop :=
  ∃ pre r b post, history = (pre ++ [.parsed r, .replySet]) ++ .writeStarted b :: post
    ∧ Reading pre ∧ r ≠ .indeterminate ∧ ∀ a ∈ post, a = .shutdown

/-- The phases of a connection. -/
inductive Phase (c : HttpClientConnection) : Prop
  | reading (b : Bool) (hpending : c.pending = [⟨.read, b⟩]) (hhistory : Reading c.history)
  | writing (b : Bool) (hpending : c.pending = [⟨.write c.reply_.toBuffers, b⟩])
      (hhistory : Answering c.history)
  | ended (hpending : c.pending = []) (hhistory : Reading c.history ∨ Answering c.history)

/-- A connection that reads on is still reading. -/
theorem Reading.append_singleton {history : List Act} (h : Reading history) {a : Act}
    (ha : (∃ b, a = .readStarted b) ∨ a = .parsed .indeterminate) :
    Reading (history ++ [a]) :=
  forall_mem_concat h ha

/-- The shutdown is no further answer. -/
theorem Answering.append_shutdown {history : List Act} (h : Answering history) :
    Answering (history ++ [.shutdown]) := by
  obtain ⟨pre, r, b, post, rfl, hpre, hr, hpost⟩ := h
  exact ⟨pre, r, b, post ++ [.shutdown], by simp, hpre, hr, forall_mem_concat hpost rfl⟩

namespace Phase

variable {c : HttpClientConnection} {k : ℕ}

/-- In every phase at most one operation is outstanding. -/
theorem pending_length_le (h : Phase c) : c.pending.length ≤ 1 := by
  cases h with
  | reading b hpending _ => rw [hpending]; exact le_rfl
  | writing b hpending _ => rw [hpending]; exact le_rfl
  | ended hpending _ => rw [hpending]; exact Nat.zero_le 1

/-- Only a connection that is reading awaits a read, and it awaits no other. -/
theorem of_awaitsRead (h : Phase c) (hk : c.awaitsRead k = true) :
    k = 0 ∧ (∃ b, c.pending = [⟨.read, b⟩]) ∧ Reading c.history := by
  cases h with
  | reading b hpending hhistory =>
    rw [HttpClientConnection.awaitsRead, hpending] at hk
    cases k with
    | zero => exact ⟨rfl, ⟨b, hpending⟩, hhistory⟩
    | succ k => simp at hk
  | writing b hpending _ =>
    rw [HttpClientConnection.awaitsRead, hpending] at hk
    cases k <;> simp at hk
  | ended hpending _ =>
    rw [HttpClientConnection.awaitsRead, hpending] at hk
    simp at hk

/-- Only a connection that is writing awaits a write, and it awaits no other. -/
theorem of_awaitsWrite (h : Phase c) (hk : c.awaitsWrite k = true) :
    k = 0 ∧ (∃ op, c.pending = [op]) ∧ Answering c.history := by
  cases h with
  | reading b hpending _ =>
    rw [HttpClientConnection.awaitsWrite, hpending] at hk
    cases k <;> simp at hk
  | writing b hpending hhistory =>
    rw [HttpClientConnection.awaitsWrite, hpending] at hk
    cases k with
    | zero => exact ⟨rfl, ⟨_, hpending⟩, hhistory⟩
    | succ k => simp at hk
  | ended hpending _ =>
    rw [HttpClientConnection.awaitsWrite, hpending] at hk
    simp at hk

/-- The one operation of a connection completes. -/
theorem complete_zero {op : Op} (hpending : c.pending = [op]) : (c.complete 0).pending = [] := by
  rw [HttpClientConnection.complete, hpending]
  rfl

/-- Closing the socket leaves the outstanding operation to its handler. -/
theorem stop (h : Phase c) : Phase c.stop := by
  cases h with
  | reading b hpending hhistory => exact reading b hpending hhistory
  | writing b hpending hhistory => exact writing b hpending hhistory
  | ended hpending hhistory => exact ended hpending hhistory

/-- A new connection is reading. -/
theorem start (u : Uninitialised) : Phase (HttpClientConnection.new u).start := by
  refine reading true rfl ?_
  intro a ha
  exact Or.inl ⟨true, List.mem_singleton.mp ha⟩

end Phase

/-! ## What the read handler does -/

/-- An answer starts the one write of the connection, from `reply_` as it then
is. -/
theorem phase_answer {c : HttpClientConnection} {pre : List Act} {r : ResultType}
    (hpending : c.pending = []) (hhistory : c.history = pre ++ [.parsed r]) (hpre : Reading pre)
    (hr : r ≠ .indeterminate) (rep : HttpReply) : Phase (c.setReply rep).doWrite := by
  refine Phase.writing c.socketOpen ?_ ⟨pre, r, c.socketOpen, [], ?_, hpre, hr, ?_⟩
  · simp [HttpClientConnection.doWrite, HttpClientConnection.setReply, hpending]
  · simp [HttpClientConnection.doWrite, HttpClientConnection.setReply, hhistory]
  · intro a ha
    exact absurd ha (List.not_mem_nil)

/-- The read handler, after a success, starts one operation: a write if the
parser has decided, a read if it has not. -/
theorem phase_onReadSuccess {c : HttpClientConnection} (hpending : c.pending = [])
    (hhistory : Reading c.history) (env : Env) (h : HttpReqHandler) (r : ReadBytes) :
    Phase (c.onReadSuccess env h r).1 := by
  have hpending' : (c.receive r).conn.pending = [] := hpending
  have hhistory' : (c.receive r).conn.history = c.history ++ [.parsed (c.receive r).result] := rfl
  rcases HttpClientConnection.onReadSuccess_cases env h c r with ⟨hr, rep, heq⟩ | ⟨hr, heq⟩
  · rw [heq]
    exact phase_answer hpending' hhistory' hhistory hr rep
  · rw [heq]
    rw [hr] at hhistory'
    refine Phase.reading (c.receive r).conn.socketOpen ?_ ?_
    · simp [HttpClientConnection.doRead, hpending']
    · have hread := (hhistory.append_singleton (Or.inr rfl)).append_singleton
        (Or.inl ⟨(c.receive r).conn.socketOpen, rfl⟩)
      rw [← hhistory'] at hread
      exact hread

/-- The read handler does not touch the socket. -/
theorem onReadSuccess_socketOpen (c : HttpClientConnection) (env : Env) (h : HttpReqHandler)
    (r : ReadBytes) : (c.onReadSuccess env h r).1.socketOpen = c.socketOpen := by
  rcases HttpClientConnection.onReadSuccess_cases env h c r with ⟨-, rep, heq⟩ | ⟨-, heq⟩
  · rw [heq]
    rfl
  · rw [heq]
    rfl

/-- The read handler starts one operation, on the socket as it is. -/
theorem onReadSuccess_pending {c : HttpClientConnection} (hpending : c.pending = []) (env : Env)
    (h : HttpReqHandler) (r : ReadBytes) :
    ∃ kind, (c.onReadSuccess env h r).1.pending = [⟨kind, c.socketOpen⟩] := by
  have hpending' : (c.receive r).conn.pending = [] := hpending
  rcases HttpClientConnection.onReadSuccess_cases env h c r with ⟨-, rep, heq⟩ | ⟨-, heq⟩
  · refine ⟨.write rep.toBuffers, ?_⟩
    rw [heq, HttpClientConnection.doWrite, HttpClientConnection.setReply, hpending']
    rfl
  · refine ⟨.read, ?_⟩
    rw [heq, HttpClientConnection.doRead, hpending']
    rfl

/-! ## Every event keeps the phase -/

/-- **Step lemma.** -/
theorem phase_step {v v' : Session} {b : SessionEvent} (h : Phase v.conn)
    (hstep : v.step b = some v') : Phase v'.conn := by
  cases b with
  | readDone k ec r env hd =>
    obtain ⟨hk, rfl⟩ := Session.step_readDone hstep
    obtain ⟨rfl, ⟨b, hb⟩, hhistory⟩ := h.of_awaitsRead hk
    have hpending := Phase.complete_zero hb
    have hended : Phase (v.conn.complete 0) := Phase.ended hpending (Or.inl hhistory)
    -- its operation is done, and only a success starts another one
    cases ec with
    | success => exact phase_onReadSuccess hpending hhistory env hd r
    | operationAborted => exact hended
    | other => exact hended.stop
  | writeDone k ec =>
    obtain ⟨hk, rfl⟩ := Session.step_writeDone hstep
    obtain ⟨rfl, ⟨op, hop⟩, hhistory⟩ := h.of_awaitsWrite hk
    have hpending := Phase.complete_zero hop
    have hended : Phase (v.conn.complete 0) := Phase.ended hpending (Or.inr hhistory)
    have hshut : Phase (v.conn.complete 0).shutdown :=
      Phase.ended hpending (Or.inr hhistory.append_shutdown)
    cases ec with
    | success => exact hshut.stop
    | operationAborted => exact hended
    | other => exact hended.stop
  | stopAll =>
    cases hstep
    rcases v.stopAll_cases with heq | ⟨-, heq⟩
    · rw [heq]
      exact h.stop
    · rw [heq]
      exact h

/-- In every run of the server every connection is in one of its phases. -/
theorem phase_run {docRoot : Bytes} {es : List Event} {s : HttpServerTransport}
    {P : HttpServerTransport → Event → Prop}
    (hrun : Runs HttpServerTransport.step P (.initial docRoot) es s) {i : ℕ} {v : Session}
    (hv : s.view i = some v) : Phase v.conn := by
  refine HttpServerTransport.session_invariant (Q := anyStep) (I := fun v => Phase v.conn)
    (fun _ _ _ _ _ _ _ _ => trivial) Phase.start ?_ hrun hv
  intro v b v' h _ hstep
  exact phase_step h hstep

/-! ## One operation at a time, and one answer -/

/-- The start of a write. -/
def Act.isWrite : Act → Bool
  | .writeStarted _ => true
  | _ => false

/-- While a connection reads, it has written nothing. -/
theorem Reading.not_write {history : List Act} (h : Reading history) (b : Bool) :
    .writeStarted b ∉ history := by
  intro hmem
  rcases h _ hmem with ⟨b', hb'⟩ | hind
  · cases hb'
  · cases hind

theorem Reading.countP_isWrite {history : List Act} (h : Reading history) :
    history.countP Act.isWrite = 0 := by
  rw [List.countP_eq_zero]
  intro a ha
  rcases h a ha with ⟨b, rfl⟩ | rfl <;> simp [Act.isWrite]

/-- One write at most. -/
theorem countP_isWrite_le {history : List Act} (h : Reading history ∨ Answering history) :
    history.countP Act.isWrite ≤ 1 := by
  rcases h with h | ⟨pre, r, b, post, rfl, hpre, -, hpost⟩
  · rw [h.countP_isWrite]
    exact Nat.zero_le 1
  · have hpost' : post.countP Act.isWrite = 0 := by
      rw [List.countP_eq_zero]
      intro a ha
      simp [hpost a ha, Act.isWrite]
    simp only [List.countP_append, List.countP_cons, List.countP_nil, hpre.countP_isWrite, hpost',
      Act.isWrite]
    simp

/-- What stands before the write and what stands behind it. -/
theorem around_write {history : List Act} (h : Reading history ∨ Answering history)
    {pre post : List Act} {b : Bool} (heq : history = pre ++ .writeStarted b :: post) :
    (.parsed .good ∈ pre ∨ .parsed .bad ∈ pre) ∧ (∀ b, .readStarted b ∉ post)
      ∧ .replySet ∉ post := by
  rcases h with h | ⟨pre', r, b', post', hhistory, hpre, hr, hpost⟩
  · exact absurd (by simp [heq]) (h.not_write b)
  · have hleft : ∀ b, Act.writeStarted b ∉ pre' ++ [.parsed r, .replySet] := by
      intro b hmem
      rcases List.mem_append.mp hmem with hmem | hmem
      · exact hpre.not_write b hmem
      · simp at hmem
    have hright : Act.writeStarted b ∉ post' := fun hmem => by cases hpost _ hmem
    rw [hhistory] at heq
    -- there is one write in the history, so the two ways of splitting it agree
    obtain ⟨rfl, -, rfl⟩ := (List.append_cons_inj_of_notMem (hleft b) hright).mp heq
    refine ⟨?_, ?_, ?_⟩
    · cases r with
      | good => exact Or.inl (by simp)
      | bad => exact Or.inr (by simp)
      | indeterminate => exact absurd rfl hr
    · intro b'' hmem
      cases hpost _ hmem
    · intro hmem
      cases hpost _ hmem

/-- A connection reads or has answered. -/
theorem Phase.history {c : HttpClientConnection} (h : Phase c) :
    Reading c.history ∨ Answering c.history := by
  cases h with
  | reading b _ hhistory => exact Or.inl hhistory
  | writing b _ hhistory => exact Or.inr hhistory
  | ended _ hhistory => exact hhistory

/-- The write that is outstanding is that of `reply_`. -/
theorem Phase.buffers {c : HttpClientConnection} (h : Phase c) {op : Op} (hop : op ∈ c.pending)
    {buffers : List Bytes} (hkind : op.kind = .write buffers) :
    buffers = c.reply_.toBuffers := by
  cases h with
  | reading b hpending _ =>
    rw [hpending, List.mem_singleton] at hop
    rw [hop] at hkind
    cases hkind
  | writing b hpending _ =>
    rw [hpending, List.mem_singleton] at hop
    rw [hop] at hkind
    cases hkind
    rfl
  | ended hpending _ =>
    rw [hpending] at hop
    exact absurd hop List.not_mem_nil

/-- **One operation at a time, one answer.**  In every state of every run, a
connection has at most one operation outstanding; it has started at most one
write, after the parser decided, and since then neither started a read nor
changed `reply_`; and the buffers of an outstanding write are those of `reply_`
as it still is. -/
theorem one_operation_at_a_time (docRoot : Bytes) (es : List Event) (s : HttpServerTransport)
    (hrun : Runs HttpServerTransport.step anyStep (.initial docRoot) es s) (i : ℕ)
    (c : HttpClientConnection) (hc : s.connections[i]? = some c) :
    c.pending.length ≤ 1
      ∧ c.history.countP Act.isWrite ≤ 1
      ∧ (∀ pre post b, c.history = pre ++ .writeStarted b :: post →
        (.parsed .good ∈ pre ∨ .parsed .bad ∈ pre) ∧ (∀ b, .readStarted b ∉ post)
          ∧ .replySet ∉ post)
      ∧ ∀ op ∈ c.pending, ∀ buffers, op.kind = .write buffers →
        buffers = c.reply_.toBuffers := by
  have hphase : Phase c := phase_run hrun (HttpServerTransport.view_of_connection hc)
  refine ⟨hphase.pending_length_le, countP_isWrite_le hphase.history, ?_, ?_⟩
  · intro pre post b heq
    exact around_write hphase.history heq
  · intro op hop buffers hkind
    exact hphase.buffers hop hkind

/-- A client connects and sends its request in one read. -/
def serveOne : List Event :=
  [.acceptDone .success ⟨⟨List.replicate bufferSize 0, List.length_replicate⟩, 0, 0, .ok⟩,
    .readDone 0 0 .success ⟨str "GET / HTTP/1.0\r\n\r\n", by decide⟩
      ⟨fun _ _ => str "page", fun _ => none⟩]

theorem serveOne_runs :
    (run HttpServerTransport.step anyStep (.initial []) serveOne).isSome = true := by
  decide +kernel

theorem serveOne_connects :
    (((run HttpServerTransport.step anyStep (.initial []) serveOne).get
      serveOne_runs).connections[0]?).isSome = true := by
  decide +kernel

/-- The connection of `serveOne`. -/
def servedConnection : HttpClientConnection :=
  (((run HttpServerTransport.step anyStep (.initial []) serveOne).get
    serveOne_runs).connections[0]?).get serveOne_connects

/-- Its reply is being written. -/
theorem one_operation_at_a_time_serveOne :
    servedConnection.awaitsWrite 0 = true ∧ servedConnection.pending.length ≤ 1
      ∧ servedConnection.history.countP Act.isWrite ≤ 1 := by
  obtain ⟨hone, honce, -⟩ := one_operation_at_a_time [] serveOne _ (runs_get serveOne_runs) 0
    servedConnection (Option.some_get serveOne_connects).symm
  exact ⟨by decide +kernel, hone, honce⟩

/-! ## The set of the connection manager -/

/-- The connection whose operation an event reports as aborted. -/
def Event.aborted : Event → Option ℕ
  | .readDone i _ .operationAborted _ _ => some i
  | .writeDone i _ .operationAborted => some i
  | _ => none

/-- An operation is aborted only when its socket was closed. -/
def AbortedOnlyClosed (s : HttpServerTransport) (e : Event) : Prop :=
  ∀ i ∈ e.aborted, ∀ c ∈ s.connections[i]?, c.socketOpen = false

instance : DecidableRel AbortedOnlyClosed := fun s e =>
  inferInstanceAs (Decidable (∀ i ∈ e.aborted, ∀ c ∈ s.connections[i]?, c.socketOpen = false))

/-- The same for the events of one connection. -/
def Session.AbortedOnlyClosed (v : Session) : SessionEvent → Prop
  | .readDone _ ec _ _ _ => ec = .operationAborted → v.conn.socketOpen = false
  | .writeDone _ ec => ec = .operationAborted → v.conn.socketOpen = false
  | .stopAll => True

/-- The assumption on the loop is one on its sessions. -/
theorem abortedOnlyClosed_forSession {s : HttpServerTransport} {e : Event} {i : ℕ} {v : Session}
    {b : SessionEvent} (h : AbortedOnlyClosed s e) (hv : s.view i = some v)
    (hb : e.forSession i s.reqHandler_ = some b) : v.AbortedOnlyClosed b := by
  obtain ⟨hconn, -⟩ := HttpServerTransport.connection_of_view hv
  cases e with
  | readDone j k ec r env =>
    simp only [Event.forSession] at hb
    split_ifs at hb with hij
    cases hb
    rintro rfl
    exact h i (by rw [← hij]; rfl) v.conn hconn
  | writeDone j k ec =>
    simp only [Event.forSession] at hb
    split_ifs at hb with hij
    cases hb
    rintro rfl
    exact h i (by rw [← hij]; rfl) v.conn hconn
  | stopAll => cases hb; trivial
  | signal => cases hb; trivial
  | acceptDone ec u => cases hb
  | addStat stat => cases hb

/-- Registration, socket and outstanding operation of a connection are in step. -/
structure InStep (v : Session) : Prop where
  phase : Phase v.conn
  registered_iff : v.registered = v.conn.socketOpen
  pending_eq_one : v.registered = true → v.conn.pending.length = 1

/-- A connection that is out of the set is in step once its socket is closed. -/
theorem InStep.of_closed {v : Session} (hphase : Phase v.conn) (hreg : v.registered = false)
    (hclosed : v.conn.socketOpen = false) : InStep v where
  phase := hphase
  registered_iff := hreg.trans hclosed.symm
  pending_eq_one := fun htrue => absurd (hreg.symm.trans htrue) Bool.false_ne_true

/-- **Step lemma.** -/
theorem inStep_step {v v' : Session} {b : SessionEvent} (h : InStep v)
    (hb : v.AbortedOnlyClosed b) (hstep : v.step b = some v') : InStep v' := by
  have hphase := phase_step h.phase hstep
  cases b with
  | readDone k ec r env hd =>
    obtain ⟨hk, rfl⟩ := Session.step_readDone hstep
    obtain ⟨rfl, ⟨b, hb'⟩, -⟩ := h.phase.of_awaitsRead hk
    cases ec with
    | success =>
      have hopen := onReadSuccess_socketOpen (v.conn.complete 0) env hd r
      obtain ⟨kind, hone⟩ := onReadSuccess_pending (Phase.complete_zero hb') env hd r
      refine ⟨hphase, h.registered_iff.trans hopen.symm, fun _ => ?_⟩
      show ((v.conn.complete 0).onReadSuccess env hd r).1.pending.length = 1
      rw [hone]
      rfl
    | operationAborted =>
      -- the handler does nothing: whoever closed the socket has unregistered it
      have hclosed : v.conn.socketOpen = false := hb rfl
      exact InStep.of_closed hphase (h.registered_iff.trans hclosed) hclosed
    | other => exact InStep.of_closed hphase rfl rfl
  | writeDone k ec =>
    obtain ⟨-, rfl⟩ := Session.step_writeDone hstep
    cases ec with
    | success => exact InStep.of_closed hphase rfl rfl
    | operationAborted =>
      have hclosed : v.conn.socketOpen = false := hb rfl
      exact InStep.of_closed hphase (h.registered_iff.trans hclosed) hclosed
    | other => exact InStep.of_closed hphase rfl rfl
  | stopAll =>
    cases hstep
    rcases v.stopAll_cases with heq | ⟨-, heq⟩
    · rw [heq] at hphase ⊢
      exact InStep.of_closed hphase rfl rfl
    · rw [heq]
      exact h

/-- **The set of the manager.**  In every state of every run in which operations
are aborted only on closed sockets, a connection the manager started is in its set
exactly if its socket is open and one operation is outstanding; and a connection
that is not in the set any more has its socket closed. -/
theorem registered_iff_open (docRoot : Bytes) (es : List Event) (s : HttpServerTransport)
    (hrun : Runs HttpServerTransport.step AbortedOnlyClosed (.initial docRoot) es s) (i : ℕ)
    (c : HttpClientConnection) (hc : s.connections[i]? = some c) :
    (i ∈ s.clientConnections_ ↔ c.socketOpen = true ∧ c.pending.length = 1)
      ∧ (i ∉ s.clientConnections_ → c.socketOpen = false) := by
  have hv := HttpServerTransport.view_of_connection hc
  have hin : InStep ⟨c, i ∈ s.clientConnections_⟩ :=
    HttpServerTransport.session_invariant (Q := Session.AbortedOnlyClosed) (I := InStep)
      (fun _ _ _ _ _ hP hv hb => abortedOnlyClosed_forSession hP hv hb)
      (fun u => ⟨Phase.start u, rfl, fun _ => rfl⟩)
      (fun _ _ _ h hb hstep => inStep_step h hb hstep) hrun hv
  have hreg : decide (i ∈ s.clientConnections_) = c.socketOpen := hin.registered_iff
  refine ⟨⟨?_, ?_⟩, ?_⟩
  · intro hmem
    exact ⟨by rw [← hreg, decide_eq_true hmem], hin.pending_eq_one (decide_eq_true hmem)⟩
  · rintro ⟨hopen, -⟩
    exact of_decide_eq_true (hreg.trans hopen)
  · intro hmem
    rw [← hreg, decide_eq_false hmem]

/-- The client connects, the server is stopped, and the read is aborted. -/
def stopOne : List Event :=
  [.acceptDone .success ⟨⟨List.replicate bufferSize 0, List.length_replicate⟩, 0, 0, .ok⟩,
    .signal, .readDone 0 0 .operationAborted ⟨[], by decide⟩ ⟨fun _ _ => [], fun _ => none⟩]

theorem stopOne_runs :
    (run HttpServerTransport.step AbortedOnlyClosed (.initial []) stopOne).isSome = true := by
  decide +kernel

theorem stopOne_connects :
    (((run HttpServerTransport.step AbortedOnlyClosed (.initial []) stopOne).get
      stopOne_runs).connections[0]?).isSome = true := by
  decide +kernel

/-- The connection of `stopOne`. -/
def stoppedConnection : HttpClientConnection :=
  (((run HttpServerTransport.step AbortedOnlyClosed (.initial []) stopOne).get
    stopOne_runs).connections[0]?).get stopOne_connects

/-- It has left the set, with its socket closed. -/
theorem registered_iff_open_stopOne :
    stoppedConnection.pending = [] ∧ stoppedConnection.socketOpen = false := by
  obtain ⟨hiff, hleft⟩ := registered_iff_open [] stopOne _ (runs_get stopOne_runs) 0
    stoppedConnection (Option.some_get stopOne_connects).symm
  have hpending : stoppedConnection.pending = [] := by decide +kernel
  refine ⟨hpending, hleft fun hmem => ?_⟩
  have hone := (hiff.mp hmem).2
  rw [hpending] at hone
  exact absurd hone (by decide)

end Unichannel
