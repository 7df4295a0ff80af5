/-
# The server's event loop (HttpClientConnectionManager.cpp, HttpServerTransport.cpp)

The state the handlers of one `io_service` share: the acceptor, the connections
made so far, the set of the connection manager and the request handler.  An event
is the completion of an outstanding operation, whose handler then runs to its
end; `step` is the handler.

The loop is run by the thread that `start` makes.  `stop` finds `ioServiceRunThread_`
set here, and interrupting the thread has no effect, since the loop does not wait in
an interruption point; ServerLifecycle.lean is about when the handle is set.
-/
import Unichannel.HttpClientConnection
import Unichannel.Lib.GuardedSystem
import Mathlib.Data.Finset.Basic

namespace Unichannel

/-- `HttpServerTransport` and its `HttpClientConnectionManager`.  A connection is
named by its position in `connections`, which stands for its address;
`acceptsIssued` counts the calls of `async_accept` and `pendingAccepts` those
whose handler has not run.  `socket_`, where an accept puts the next client, is left out:
it is moved into the connection that `onAccept` makes, and read nowhere else. -/
structure HttpServerTransport where
  acceptorOpen : Bool
  pendingAccepts : ℕ
  acceptsIssued : ℕ
  connections : List HttpClientConnection
  clientConnections_ : Finset ℕ
  reqHandler_ : HttpReqHandler
  signalWait : Bool
  isAlive_ : Bool

/-- The events of the loop. -/
inductive Event
  /-- An accept completes; `u` is what a new connection leaves uninitialised. -/
  | acceptDone (ec : ErrorCode) (u : Uninitialised)
  /-- The operation number `k` of connection `i`, a read, completes. -/
  | readDone (i k : ℕ) (ec : ErrorCode) (r : ReadBytes) (env : Env)
  /-- The operation number `k` of connection `i`, a write, completes. -/
  | writeDone (i k : ℕ) (ec : ErrorCode)
  /-- `stop_all` of the connection manager is called. -/
  | stopAll
  /-- A signal arrives. -/
  | signal
  /-- A consumer thread hands a stat to the request handler. -/
  | addStat (stat : LatencyStat.Ptr)

/-- The operation number `k` is outstanding and is a read. -/
def HttpClientConnection.awaitsRead (c : HttpClientConnection) (k : ℕ) : Bool :=
  c.pending[k]?.any fun op => op.kind = .read

/-- The operation number `k` is outstanding and is a write. -/
def HttpClientConnection.awaitsWrite (c : HttpClientConnection) (k : ℕ) : Bool :=
  c.pending[k]?.any fun op => op.kind ≠ .read

namespace HttpServerTransport

/-! ## The connection manager -/

/-- The connection number `i` is now `c`. -/
def setConnection (s : HttpServerTransport) (i : ℕ) (c : HttpClientConnection) :
    HttpServerTransport :=
  { s with connections := s.connections.set i c }

/-- `HttpClientConnectionManager::start`, on a connection just made. -/
def managerStart (s : HttpServerTransport) (c : HttpClientConnection) : HttpServerTransport :=
  { s with
    clientConnections_ := insert s.connections.length s.clientConnections_
    connections := s.connections ++ [c.start] }

/-- `HttpClientConnectionManager::stop`. -/
def managerStop (s : HttpServerTransport) (i : ℕ) : HttpServerTransport :=
  { s with
    clientConnections_ := s.clientConnections_.erase i
    connections := s.connections.modify i HttpClientConnection.stop }

/-- `HttpClientConnectionManager::stop_all`. -/
def stopAll (s : HttpServerTransport) : HttpServerTransport :=
  { s with
    connections := s.connections.mapIdx fun i c => if i ∈ s.clientConnections_ then c.stop else c
    clientConnections_ := ∅ }

/-! ## The handlers -/

/-- `HttpServerTransport::do_accept`, up to the call of `async_accept`. -/
def doAccept (s : HttpServerTransport) : HttpServerTransport :=
  { s with pendingAccepts := s.pendingAccepts + 1, acceptsIssued := s.acceptsIssued + 1 }

/-- The handler of `do_accept`. -/
def onAccept (s : HttpServerTransport) (ec : ErrorCode) (u : Uninitialised) :
    HttpServerTransport :=
  if !s.acceptorOpen then s
  else
    (if ec = .success then s.managerStart (HttpClientConnection.new u) else s).doAccept

/-- The handler of `do_read` of connection `i`, which is `c`. -/
def onRead (s : HttpServerTransport) (i : ℕ) (c : HttpClientConnection) (ec : ErrorCode)
    (r : ReadBytes) (env : Env) : HttpServerTransport :=
  match ec with
  | .success =>
    let handled := c.onReadSuccess env s.reqHandler_ r
    { s.setConnection i handled.1 with reqHandler_ := handled.2 }
  | .other => (s.setConnection i c).managerStop i
  | .operationAborted => s.setConnection i c

/-- The handler of `do_write` of connection `i`, which is `c`. -/
def onWrite (s : HttpServerTransport) (i : ℕ) (c : HttpClientConnection) (ec : ErrorCode) :
    HttpServerTransport :=
  let c := if ec = .success then c.shutdown else c
  let s := s.setConnection i c
  if ec ≠ .operationAborted then s.managerStop i else s

/-- `HttpServerTransport::stop`, which the handler of `do_await_stop` calls. -/
def stop (s : HttpServerTransport) : HttpServerTransport :=
  let s := { s with isAlive_ := false }
  let s := if s.acceptorOpen then { s with acceptorOpen := false } else s
  s.stopAll

/-- One event of the loop; `none` if what it completes is not outstanding. -/
def step (s : HttpServerTransport) : Event → Option HttpServerTransport
  | .acceptDone ec u =>
    if 0 < s.pendingAccepts then
      some ({ s with pendingAccepts := s.pendingAccepts - 1 }.onAccept ec u)
    else none
  | .readDone i k ec r env =>
    match s.connections[i]? with
    | some c => if c.awaitsRead k then some (s.onRead i (c.complete k) ec r env) else none
    | none => none
  | .writeDone i k ec =>
    match s.connections[i]? with
    | some c => if c.awaitsWrite k then some (s.onWrite i (c.complete k) ec) else none
    | none => none
  | .stopAll => some s.stopAll
  | .signal => if s.signalWait then some { s with signalWait := false }.stop else none
  | .addStat stat => some { s with reqHandler_ := s.reqHandler_.addStat stat }

/-- An accept completes only if one is outstanding, and then its handler runs. -/
theorem step_acceptDone {s s' : HttpServerTransport} {ec : ErrorCode} {u : Uninitialised}
    (hstep : s.step (.acceptDone ec u) = some s') :
    0 < s.pendingAccepts
      ∧ s' = { s with pendingAccepts := s.pendingAccepts - 1 }.onAccept ec u := by
  simp only [step] at hstep
  split_ifs at hstep with hpending
  exact ⟨hpending, (Option.some.inj hstep).symm⟩

/-- A read completes only on a connection that waits for one. -/
theorem step_readDone {s s' : HttpServerTransport} {i k : ℕ} {ec : ErrorCode} {r : ReadBytes}
    {env : Env} (hstep : s.step (.readDone i k ec r env) = some s') :
    ∃ c, s.connections[i]? = some c ∧ c.awaitsRead k = true
      ∧ s' = s.onRead i (c.complete k) ec r env := by
  simp only [step] at hstep
  split at hstep
  · rename_i c hc
    split_ifs at hstep with hk
    exact ⟨c, hc, hk, (Option.some.inj hstep).symm⟩
  · cases hstep

theorem step_writeDone {s s' : HttpServerTransport} {i k : ℕ} {ec : ErrorCode}
    (hstep : s.step (.writeDone i k ec) = some s') :
    ∃ c, s.connections[i]? = some c ∧ c.awaitsWrite k = true
      ∧ s' = s.onWrite i (c.complete k) ec := by
  simp only [step] at hstep
  split at hstep
  · rename_i c hc
    split_ifs at hstep with hk
    exact ⟨c, hc, hk, (Option.some.inj hstep).symm⟩
  · cases hstep

/-- A signal comes once, and calls `stop`. -/
theorem step_signal {s s' : HttpServerTransport} (hstep : s.step .signal = some s') :
    s.signalWait = true ∧ s' = { s with signalWait := false }.stop := by
  simp only [step] at hstep
  split_ifs at hstep with hwait
  exact ⟨hwait, (Option.some.inj hstep).symm⟩

/-- Whether the acceptor is open or not, it is closed afterwards. -/
theorem stop_eq (s : HttpServerTransport) :
    s.stop = { s with isAlive_ := false, acceptorOpen := false }.stopAll := by
  unfold stop
  dsimp only
  split_ifs with hopen
  · rfl
  · rw [← Bool.eq_false_iff.mpr hopen]

/-- The server when its loop starts: the constructor has called `do_await_stop`
and `do_accept`, and `start` has set `isAlive_`. -/
def initial (docRoot : Bytes) : HttpServerTransport :=
  doAccept
    { acceptorOpen := true
      pendingAccepts := 0
      acceptsIssued := 0
      connections := []
      clientConnections_ := ∅
      reqHandler_ := ⟨docRoot, []⟩
      signalWait := true
      isAlive_ := true }

end HttpServerTransport

/-! ## One connection of the server -/

/-- A connection together with whether the manager has it in its set: all that an
event changes for this connection. -/
structure Session where
  conn : HttpClientConnection
  registered : Bool

/-- The events of one connection.  A read that succeeds finds the request handler
in some state `h`. -/
inductive SessionEvent
  | readDone (k : ℕ) (ec : ErrorCode) (r : ReadBytes) (env : Env) (h : HttpReqHandler)
  | writeDone (k : ℕ) (ec : ErrorCode)
  | stopAll

namespace Session

/-- The manager stops this connection. -/
def managerStop (v : Session) : Session := ⟨v.conn.stop, false⟩

/-- `stop_all`, as this connection sees it. -/
def stopAll (v : Session) : Session :=
  ⟨if v.registered then v.conn.stop else v.conn, false⟩

/-- The read handler, as this connection sees it. -/
def onRead (v : Session) (ec : ErrorCode) (r : ReadBytes) (env : Env) (h : HttpReqHandler) :
    Session :=
  match ec with
  | .success => { v with conn := (v.conn.onReadSuccess env h r).1 }
  | .other => v.managerStop
  | .operationAborted => v

/-- The write handler, as this connection sees it. -/
def onWrite (v : Session) (ec : ErrorCode) : Session :=
  match ec with
  | .success => ({ v with conn := v.conn.shutdown } : Session).managerStop
  | .other => v.managerStop
  | .operationAborted => v

/-- One event of a connection. -/
def step (v : Session) : SessionEvent → Option Session
  | .readDone k ec r env h =>
    if v.conn.awaitsRead k then
      some (({ v with conn := v.conn.complete k } : Session).onRead ec r env h)
    else none
  | .writeDone k ec =>
    if v.conn.awaitsWrite k then
      some (({ v with conn := v.conn.complete k } : Session).onWrite ec)
    else none
  | .stopAll => some v.stopAll

/-- A read completes only if it is outstanding, and then its handler runs. -/
theorem step_readDone {v v' : Session} {k : ℕ} {ec : ErrorCode} {r : ReadBytes} {env : Env}
    {h : HttpReqHandler} (hstep : v.step (.readDone k ec r env h) = some v') :
    v.conn.awaitsRead k = true
      ∧ v' = ({ v with conn := v.conn.complete k } : Session).onRead ec r env h := by
  simp only [step] at hstep
  split_ifs at hstep with hk
  exact ⟨hk, (Option.some.inj hstep).symm⟩

/-- A write completes only if it is outstanding, and then its handler runs. -/
theorem step_writeDone {v v' : Session} {k : ℕ} {ec : ErrorCode}
    (hstep : v.step (.writeDone k ec) = some v') :
    v.conn.awaitsWrite k = true
      ∧ v' = ({ v with conn := v.conn.complete k } : Session).onWrite ec := by
  simp only [step] at hstep
  split_ifs at hstep with hk
  exact ⟨hk, (Option.some.inj hstep).symm⟩

/-- `stop_all` stops the connections of the set and leaves the others alone. -/
theorem stopAll_cases (v : Session) :
    v.stopAll = v.managerStop ∨ (v.registered = false ∧ v.stopAll = v) := by
  obtain ⟨c, registered⟩ := v
  cases registered with
  | true => exact Or.inl rfl
  | false => exact Or.inr ⟨rfl, rfl⟩

/-- A connection the manager has just started. -/
def IsStarted (v : Session) : Prop :=
  ∃ u, v = ⟨(HttpClientConnection.new u).start, true⟩

end Session

namespace HttpServerTransport

/-- What the server holds for connection `i`. -/
def view (s : HttpServerTransport) (i : ℕ) : Option Session :=
  s.connections[i]?.map fun c => ⟨c, i ∈ s.clientConnections_⟩

/-- A connection that exists can be seen. -/
theorem view_of_connection {s : HttpServerTransport} {i : ℕ} {c : HttpClientConnection}
    (hc : s.connections[i]? = some c) : s.view i = some ⟨c, i ∈ s.clientConnections_⟩ := by
  rw [view, hc, Option.map_some]

/-- What is seen is the connection and whether it is in the set. -/
theorem connection_of_view {s : HttpServerTransport} {i : ℕ} {v : Session}
    (hv : s.view i = some v) :
    s.connections[i]? = some v.conn ∧ v.registered = decide (i ∈ s.clientConnections_) := by
  obtain ⟨c, hc, rfl⟩ := Option.map_eq_some_iff.mp hv
  exact ⟨hc, rfl⟩

/-! ### The manager in the view -/

variable {s : HttpServerTransport} {i j : ℕ} {c : HttpClientConnection} {v : Session}

@[simp] theorem view_doAccept : s.doAccept.view i = s.view i := rfl

/-- Setting a connection shows there. -/
theorem view_setConnection_self (hv : s.view i = some v) :
    (s.setConnection i c).view i = some { v with conn := c } := by
  obtain ⟨hconn, hreg⟩ := connection_of_view hv
  have hlt : i < s.connections.length := (List.getElem?_eq_some_iff.mp hconn).1
  rw [view, setConnection, List.getElem?_set_self hlt, Option.map_some, hreg]

theorem view_setConnection_ne (hij : i ≠ j) : (s.setConnection i c).view j = s.view j := by
  rw [view, view, setConnection, List.getElem?_set_ne hij]

/-- A connection that is stopped is closed and leaves the set. -/
theorem view_managerStop_self (hv : s.view i = some v) :
    (s.managerStop i).view i = some v.managerStop := by
  obtain ⟨hconn, -⟩ := connection_of_view hv
  simp [view, managerStop, Session.managerStop, hconn]

theorem view_managerStop_ne (hij : i ≠ j) : (s.managerStop i).view j = s.view j := by
  simp [view, managerStop, hij, Ne.symm hij]

/-- `stop_all` is seen by every connection. -/
theorem view_stopAll : s.stopAll.view i = (s.view i).map Session.stopAll := by
  rw [view, view, stopAll, List.getElem?_mapIdx, Option.map_map, Option.map_map]
  rcases s.connections[i]? with _ | c
  · rfl
  · by_cases hmem : i ∈ s.clientConnections_ <;> simp [Session.stopAll, hmem]

/-- The connection just started is registered and reads. -/
theorem view_managerStart_self :
    (s.managerStart c).view s.connections.length = some ⟨c.start, true⟩ := by
  simp [view, managerStart]

theorem view_managerStart_ne (hi : i ≠ s.connections.length) :
    (s.managerStart c).view i = s.view i := by
  -- a position before the new one keeps its connection, one behind it stays empty
  rcases Nat.lt_or_gt_of_ne hi with hlt | hgt
  · simp [view, managerStart, List.getElem?_append_left hlt, hi]
  · have hnone : s.connections[i]? = none := List.getElem?_eq_none (Nat.le_of_lt hgt)
    have hnone' : (s.connections ++ [c.start])[i]? = none := by
      apply List.getElem?_eq_none
      rw [List.length_append, List.length_singleton]
      exact hgt
    rw [view, view, managerStart, hnone, hnone', Option.map_none, Option.map_none]

/-! ### The handlers in the view -/

/-- A read handler shows as the one of its session. -/
theorem view_onRead_self (hv : s.view i = some v) (ec : ErrorCode) (r : ReadBytes) (env : Env) :
    (s.onRead i c ec r env).view i
      = some (({ v with conn := c } : Session).onRead ec r env s.reqHandler_) := by
  have hset := view_setConnection_self (c := c) hv
  have hanswer := view_setConnection_self (c := (c.onReadSuccess env s.reqHandler_ r).1) hv
  cases ec with
  | success => exact hanswer
  | operationAborted => exact hset
  | other => exact view_managerStop_self hset

theorem view_onRead_ne (hij : i ≠ j) (ec : ErrorCode) (r : ReadBytes) (env : Env) :
    (s.onRead i c ec r env).view j = s.view j := by
  cases ec with
  | success => exact view_setConnection_ne hij
  | operationAborted => exact view_setConnection_ne hij
  | other => exact (view_managerStop_ne hij).trans (view_setConnection_ne hij)

/-- A write handler shows as the one of its session. -/
theorem view_onWrite_self (hv : s.view i = some v) (ec : ErrorCode) :
    (s.onWrite i c ec).view i = some (({ v with conn := c } : Session).onWrite ec) := by
  have hset := view_setConnection_self (c := c) hv
  have hshut := view_setConnection_self (c := c.shutdown) hv
  cases ec with
  | success => exact view_managerStop_self hshut
  | operationAborted => exact hset
  | other => exact view_managerStop_self hset

theorem view_onWrite_ne (hij : i ≠ j) (ec : ErrorCode) :
    (s.onWrite i c ec).view j = s.view j := by
  cases ec with
  | success => exact (view_managerStop_ne hij).trans (view_setConnection_ne hij)
  | operationAborted => exact view_setConnection_ne hij
  | other => exact (view_managerStop_ne hij).trans (view_setConnection_ne hij)

/-- `stop` is seen as `stop_all`. -/
theorem view_stop : s.stop.view i = (s.view i).map Session.stopAll := by
  rw [stop_eq]
  exact view_stopAll

end HttpServerTransport

/-! ## Events in the view -/

/-- What an event is for connection `i`, if it concerns it. -/
def Event.forSession (e : Event) (i : ℕ) (h : HttpReqHandler) : Option SessionEvent :=
  match e with
  | .readDone j k ec r env => if j = i then some (.readDone k ec r env h) else none
  | .writeDone j k ec => if j = i then some (.writeDone k ec) else none
  | .stopAll => some .stopAll
  | .signal => some .stopAll
  | _ => none

namespace HttpServerTransport

variable {s s' : HttpServerTransport} {e : Event} {i : ℕ}

/-- **The server refines its sessions**: for each connection, an event of the
server is the start of this connection, one event of its session, or nothing. -/
theorem step_view {v' : Session} (hstep : s.step e = some s') (hv' : s'.view i = some v') :
    (s.view i = none ∧ v'.IsStarted) ∨ ∃ v, s.view i = some v
      ∧ (v' = v ∨ ∃ b, e.forSession i s.reqHandler_ = some b ∧ v.step b = some v') := by
  cases e with
  | acceptDone ec u =>
    obtain ⟨-, rfl⟩ := step_acceptDone hstep
    unfold onAccept at hv'
    split_ifs at hv' with hopen hec
    · exact Or.inr ⟨v', hv', Or.inl rfl⟩
    · rw [view_doAccept] at hv'
      by_cases hi : i = s.connections.length
      · -- the connection just made
        subst hi
        refine Or.inl ⟨by simp [view], u, ?_⟩
        exact Option.some.inj (hv'.symm.trans view_managerStart_self)
      · exact Or.inr ⟨v', (view_managerStart_ne hi).symm.trans hv', Or.inl rfl⟩
    · exact Or.inr ⟨v', hv', Or.inl rfl⟩
  | readDone j k ec r env =>
    obtain ⟨c, hc, hk, rfl⟩ := step_readDone hstep
    by_cases hij : j = i
    · subst hij
      have hv := view_of_connection hc
      refine Or.inr ⟨_, hv, Or.inr ⟨.readDone k ec r env s.reqHandler_, ?_, ?_⟩⟩
      · rw [Event.forSession, if_pos rfl]
      · rw [Session.step, if_pos hk, ← hv', view_onRead_self hv]
    · exact Or.inr ⟨v', (view_onRead_ne hij ec r env).symm.trans hv', Or.inl rfl⟩
  | writeDone j k ec =>
    obtain ⟨c, hc, hk, rfl⟩ := step_writeDone hstep
    by_cases hij : j = i
    · subst hij
      have hv := view_of_connection hc
      refine Or.inr ⟨_, hv, Or.inr ⟨.writeDone k ec, ?_, ?_⟩⟩
      · rw [Event.forSession, if_pos rfl]
      · rw [Session.step, if_pos hk, ← hv', view_onWrite_self hv]
    · exact Or.inr ⟨v', (view_onWrite_ne hij ec).symm.trans hv', Or.inl rfl⟩
  | stopAll =>
    cases hstep
    rw [view_stopAll, Option.map_eq_some_iff] at hv'
    obtain ⟨v, hv, rfl⟩ := hv'
    exact Or.inr ⟨v, hv, Or.inr ⟨.stopAll, rfl, rfl⟩⟩
  | signal =>
    obtain ⟨-, rfl⟩ := step_signal hstep
    rw [view_stop, Option.map_eq_some_iff] at hv'
    obtain ⟨v, hv, rfl⟩ := hv'
    exact Or.inr ⟨v, hv, Or.inr ⟨.stopAll, rfl, rfl⟩⟩
  | addStat stat =>
    cases hstep
    exact Or.inr ⟨v', hv', Or.inl rfl⟩

/-- A connection that exists stays, and an event is one event of its session, or nothing. -/
theorem view_step {v : Session} (hstep : s.step e = some s') (hv : s.view i = some v) :
    ∃ v', s'.view i = some v'
      ∧ ((e.forSession i s.reqHandler_ = none ∧ v' = v)
        ∨ ∃ b, e.forSession i s.reqHandler_ = some b ∧ v.step b = some v') := by
  cases e with
  | acceptDone ec u =>
    obtain ⟨-, rfl⟩ := step_acceptDone hstep
    have hi : i ≠ s.connections.length :=
      (List.getElem?_eq_some_iff.mp (connection_of_view hv).1).1.ne
    refine ⟨v, ?_, Or.inl ⟨rfl, rfl⟩⟩
    unfold onAccept
    split_ifs with hopen hec
    · exact hv
    · rw [view_doAccept]
      exact (view_managerStart_ne hi).trans hv
    · exact hv
  | readDone j k ec r env =>
    obtain ⟨c, hc, hk, rfl⟩ := step_readDone hstep
    by_cases hij : j = i
    · subst hij
      obtain rfl : (⟨c, j ∈ s.clientConnections_⟩ : Session) = v :=
        Option.some.inj ((view_of_connection hc).symm.trans hv)
      exact ⟨_, view_onRead_self hv ec r env, Or.inr ⟨_, if_pos rfl, if_pos hk⟩⟩
    · exact ⟨v, (view_onRead_ne hij ec r env).trans hv, Or.inl ⟨if_neg hij, rfl⟩⟩
  | writeDone j k ec =>
    obtain ⟨c, hc, hk, rfl⟩ := step_writeDone hstep
    by_cases hij : j = i
    · subst hij
      obtain rfl : (⟨c, j ∈ s.clientConnections_⟩ : Session) = v :=
        Option.some.inj ((view_of_connection hc).symm.trans hv)
      exact ⟨_, view_onWrite_self hv ec, Or.inr ⟨_, if_pos rfl, if_pos hk⟩⟩
    · exact ⟨v, (view_onWrite_ne hij ec).trans hv, Or.inl ⟨if_neg hij, rfl⟩⟩
  | stopAll =>
    cases hstep
    refine ⟨v.stopAll, ?_, Or.inr ⟨.stopAll, rfl, rfl⟩⟩
    rw [view_stopAll, hv]
    rfl
  | signal =>
    obtain ⟨-, rfl⟩ := step_signal hstep
    refine ⟨v.stopAll, ?_, Or.inr ⟨.stopAll, rfl, rfl⟩⟩
    rw [view_stop]
    exact congrArg (Option.map Session.stopAll) hv
  | addStat stat =>
    cases hstep
    exact ⟨v, hv, Or.inl ⟨rfl, rfl⟩⟩

/-- A run of the server shows, for each connection, as a run of its session from
its start. -/
theorem session_run {docRoot : Bytes} {P : HttpServerTransport → Event → Prop}
    {Q : Session → SessionEvent → Prop} {es : List Event}
    (hPQ : ∀ s e i v b, P s e → s.view i = some v → e.forSession i s.reqHandler_ = some b → Q v b)
    (h : GuardedSystem.Runs step P (initial docRoot) es s) {v' : Session}
    (hv' : s.view i = some v') :
    ∃ v bs, v.IsStarted ∧ GuardedSystem.Runs Session.step Q v bs v' := by
  refine GuardedSystem.Runs.project (fun s => s.view i) Session.IsStarted ?_ ?_ h v' hv'
  · intro s e s' v' hP hstep hv'
    rcases step_view hstep hv' with hnew | ⟨v, hv, hcases⟩
    · exact Or.inl hnew
    · refine Or.inr ⟨v, hv, ?_⟩
      rcases hcases with heq | ⟨b, hb, hvb⟩
      · exact Or.inl heq
      · exact Or.inr ⟨b, hPQ s e i v b hP hv hb, hvb⟩
  · intro v hv
    simp [view, initial, doAccept] at hv

/-- **The invariant rule for connections**: what holds of a connection that has
just been started and is kept by its events holds of every connection in every run
of the server. -/
theorem session_invariant {docRoot : Bytes} {P : HttpServerTransport → Event → Prop}
    {Q : Session → SessionEvent → Prop} {I : Session → Prop} {es : List Event}
    (hPQ : ∀ s e i v b, P s e → s.view i = some v → e.forSession i s.reqHandler_ = some b → Q v b)
    (hinit : ∀ u, I ⟨(HttpClientConnection.new u).start, true⟩)
    (hI : ∀ v b v', I v → Q v b → v.step b = some v' → I v')
    (h : GuardedSystem.Runs step P (initial docRoot) es s) {v : Session} (hv : s.view i = some v) :
    I v := by
  obtain ⟨v₀, bs, ⟨u, rfl⟩, hbs⟩ := session_run hPQ h hv
  exact hbs.invariant (hinit u) hI

end HttpServerTransport

end Unichannel
