/-
# When the loop returns

In the life of a server the loop can run on several threads, and `stop` can be under way
several times, called by the user, by the signal handler and by the destructor.  As long as
no two handlers, and no handler and the end of a `stop`, overlap, a connection goes through
the same sessions as in the loop on one thread (`session_run`), so what holds of every
session holds here as well.

* `accepting`: while the acceptor is open, exactly one accept is outstanding between handlers;
* `returns_stopped`: `ioService_.run()` returns only after a signal, and then the acceptor and
  the connections' sockets are closed, nothing is outstanding, and nothing will be again.
-/
import Unichannel.ServerLifecycle

namespace Unichannel

open GuardedSystem

namespace ServerProcess

/-! ## What an event does to the server -/

/-- An event clears or sets the flags and fills the queue, closes everything, or runs a
handler. -/
inductive ServerEffect (s : ServerProcess) (e : ProcessEvent) (s' : ServerProcess) : Prop
  | flags (hopen : s'.server.acceptorOpen = s.server.acceptorOpen)
      (haccepts : s'.server.pendingAccepts = s.server.pendingAccepts)
      (hconnections : s'.server.connections = s.server.connections)
      (hset : s'.server.clientConnections_ = s.server.clientConnections_)
      (hwait : s'.server.signalWait = s.server.signalWait
        ∨ (∃ j, e = .signal j) ∧ s'.server.signalWait = false)
  | closes (heq : s'.server = s.server.closeAll)
  | handles (b : Event) (hb : b.isCompletion = true) (hstep : s.server.step b = some s'.server)

variable {s s' : ServerProcess} {e : ProcessEvent} {i : ℕ}

/-- The return of `stop` leaves the server to its caller. -/
@[simp] theorem leaveStop_server (caller : StopCaller) :
    (s.leaveStop caller).server = s.server := by
  cases caller <;> rfl

/-- **The effect of an event on the server.** -/
theorem act_server (hact : s.act e = some s') : ServerEffect s e s' := by
  cases e with
  | start =>
    cases hact
    exact .flags rfl rfl rfl rfl (Or.inl rfl)
  | createThread k =>
    simp only [act] at hact
    split at hact
    · cases hact
      exact .flags rfl rfl rfl rfl (Or.inl rfl)
    · cases hact
  | startReturns k =>
    simp only [act] at hact
    split at hact
    · cases hact
      exact .flags rfl rfl rfl rfl (Or.inl rfl)
    · cases hact
  | stop =>
    cases hact
    exact .flags rfl rfl rfl rfl (Or.inl rfl)
  | destroy =>
    simp only [act] at hact
    split_ifs at hact
    cases hact
    exact .flags rfl rfl rfl rfl (Or.inl rfl)
  | signal j =>
    simp only [act] at hact
    split_ifs at hact
    cases hact
    exact .flags rfl rfl rfl rfl (Or.inr ⟨⟨j, rfl⟩, rfl⟩)
  | interrupt k =>
    simp only [act] at hact
    split at hact
    · split at hact
      · cases hact
        exact .flags rfl rfl rfl rfl (Or.inl rfl)
      · cases hact
        exact .flags rfl rfl rfl rfl (Or.inl rfl)
    · cases hact
  | stopReturns k =>
    simp only [act] at hact
    split at hact
    · cases hact
      exact .closes (leaveStop_server _)
    · cases hact
  | handler j b =>
    simp only [act] at hact
    split_ifs at hact with hj
    obtain ⟨server, hserver, rfl⟩ := Option.map_eq_some_iff.mp hact
    exact .handles b hj.2 hserver
  | addStat stat =>
    cases hact
    exact .flags rfl rfl rfl rfl (Or.inl rfl)
  | runReturns j =>
    simp only [act] at hact
    split_ifs at hact
    cases hact
    exact .flags rfl rfl rfl rfl (Or.inl rfl)

/-- Whether the acceptor is open or not, it is closed afterwards. -/
theorem closeAll_eq (server : HttpServerTransport) :
    server.closeAll = { server with acceptorOpen := false }.stopAll := by
  unfold HttpServerTransport.closeAll
  split_ifs with hopen
  · rfl
  · rw [← Bool.eq_false_iff.mpr hopen]

/-! ## The sessions of the process -/

/-- Each connection sees an event of the process as its start, as one event of its session,
or not at all. -/
theorem act_view (hact : s.act e = some s') {v' : Session} (hv' : s'.server.view i = some v') :
    (s.server.view i = none ∧ v'.IsStarted) ∨ ∃ v, s.server.view i = some v
      ∧ (v' = v ∨ ∃ b, v.step b = some v') := by
  cases act_server hact with
  | flags _ _ hconnections hset =>
    refine Or.inr ⟨v', ?_, Or.inl rfl⟩
    rw [HttpServerTransport.view, hconnections, hset] at hv'
    exact hv'
  | closes heq =>
    rw [heq, closeAll_eq, HttpServerTransport.view_stopAll, Option.map_eq_some_iff] at hv'
    obtain ⟨v, hv, rfl⟩ := hv'
    exact Or.inr ⟨v, hv, Or.inr ⟨.stopAll, rfl⟩⟩
  | handles b _ hstep =>
    rcases HttpServerTransport.step_view hstep hv' with hnew | ⟨v, hv, heq | ⟨c, -, hc⟩⟩
    · exact Or.inl hnew
    · exact Or.inr ⟨v, hv, Or.inl heq⟩
    · exact Or.inr ⟨v, hv, Or.inr ⟨c, hc⟩⟩

variable {docRoot : Bytes} {P : ServerProcess → ProcessEvent → Prop} {es : List ProcessEvent}

/-- **The process refines the sessions.**  In every run of the process, each connection has
come to its state by a run of its session from its start. -/
theorem session_run (hrun : Runs step P (constructed docRoot) es s) {v' : Session}
    (hv' : s.server.view i = some v') :
    ∃ v bs, v.IsStarted ∧ Runs Session.step anyStep v bs v' := by
  refine hrun.project (fun s => s.server.view i) Session.IsStarted ?_ ?_ v' hv'
  · intro s e s' v' _ hstep hv'
    rcases act_view (step_eq_some hstep).2.2 hv' with hnew | ⟨v, hv, heq | ⟨b, hb⟩⟩
    · exact Or.inl hnew
    · exact Or.inr ⟨v, hv, Or.inl heq⟩
    · exact Or.inr ⟨v, hv, Or.inr ⟨b, trivial, hb⟩⟩
  · intro v hv
    cases hv

/-- What holds of every session: it is in its phase, and closed once it is out of the set. -/
theorem phase_and_dropped_run (hrun : Runs step P (constructed docRoot) es s) {v : Session}
    (hv : s.server.view i = some v) : Phase v.conn ∧ Dropped v := by
  obtain ⟨v₀, bs, ⟨u, rfl⟩, hbs⟩ := session_run hrun hv
  refine hbs.invariant (I := fun v => Phase v.conn ∧ Dropped v) ⟨Phase.start u, ?_⟩ ?_
  · intro hreg
    exact absurd hreg.symm Bool.false_ne_true
  · rintro v b v' ⟨hphase, hdropped⟩ - hstep
    exact ⟨phase_step hphase hstep, dropped_step hdropped hstep⟩

/-! ## One accept at a time -/

/-- The acceptor waits for one client, or is closed with at most one handler left. -/
def OneAccept (server : HttpServerTransport) : Prop :=
  server.pendingAccepts ≤ 1 ∧ (server.acceptorOpen = true → server.pendingAccepts = 1)

/-- **Step lemma**, for the handlers. -/
theorem oneAccept_handler {server server' : HttpServerTransport} {b : Event}
    (h : OneAccept server) (hstep : server.step b = some server') : OneAccept server' := by
  obtain ⟨hle, hopen⟩ := h
  have hframe : Frame server server' → OneAccept server' := by
    intro hframe
    unfold OneAccept
    rw [hframe.pendingAccepts, hframe.acceptorOpen]
    exact ⟨hle, hopen⟩
  cases b with
  | acceptDone ec u =>
    obtain ⟨hpending, rfl⟩ := HttpServerTransport.step_acceptDone hstep
    unfold HttpServerTransport.onAccept
    dsimp only
    split_ifs with hclosed hec
    · -- the handler returns without a further accept
      refine ⟨by dsimp only; omega, fun htrue => ?_⟩
      rw [Bool.not_eq_true'] at hclosed
      exact absurd (hclosed.symm.trans htrue) Bool.false_ne_true
    · have hone : server.pendingAccepts - 1 + 1 = 1 := by omega
      exact ⟨hone.le, fun _ => hone⟩
    · have hone : server.pendingAccepts - 1 + 1 = 1 := by omega
      exact ⟨hone.le, fun _ => hone⟩
  | readDone j k ec r env =>
    obtain ⟨c, -, -, rfl⟩ := HttpServerTransport.step_readDone hstep
    exact hframe (frame_onRead ec r env)
  | writeDone j k ec =>
    obtain ⟨c, -, -, rfl⟩ := HttpServerTransport.step_writeDone hstep
    exact hframe (frame_onWrite ec)
  | stopAll =>
    cases hstep
    exact hframe frame_stopAll
  | signal =>
    obtain ⟨-, rfl⟩ := HttpServerTransport.step_signal hstep
    rw [HttpServerTransport.stop_eq]
    exact ⟨hle, fun htrue => absurd htrue Bool.false_ne_true⟩
  | addStat stat =>
    cases hstep
    exact ⟨hle, hopen⟩

/-- **One accept at a time.**  In every run of the process in which handlers and the ends of
`stop` do not overlap: between them at most one accept is outstanding, and exactly one while
the acceptor is open.  A thread that runs the loop can then take a client, which is registered
and reads, and waits for the next one. -/
theorem accepting (docRoot : Bytes) (es : List ProcessEvent) (s : ServerProcess)
    (hrun : Runs step anyStep (constructed docRoot) es s) :
    s.server.pendingAccepts ≤ 1
      ∧ (s.server.acceptorOpen = true → s.server.pendingAccepts = 1
        ∧ ∀ i u, s.threads[i]? = some .running → s.crashed = false → s.destroyed = false →
          ∃ s', s.step (.handler i (.acceptDone .success u)) = some s'
            ∧ s'.server.connections = s.server.connections ++ [(HttpClientConnection.new u).start]
            ∧ s.server.connections.length ∈ s'.server.clientConnections_
            ∧ s'.server.acceptorOpen = true ∧ s'.server.pendingAccepts = 1) := by
  have hone : OneAccept s.server := by
    refine hrun.invariant (I := fun s => OneAccept s.server) ⟨le_rfl, fun _ => rfl⟩ ?_
    intro s e s' h _ hstep
    cases act_server (step_eq_some hstep).2.2 with
    | flags hopen haccepts =>
      unfold OneAccept
      rw [hopen, haccepts]
      exact h
    | closes heq =>
      rw [heq, closeAll_eq]
      exact ⟨h.1, fun htrue => absurd htrue Bool.false_ne_true⟩
    | handles b _ hb => exact oneAccept_handler h hb
  refine ⟨hone.1, fun hopen => ⟨hone.2 hopen, ?_⟩⟩
  intro i u hi hcrashed hdestroyed
  have hpending := hone.2 hopen
  have hstep : s.server.step (.acceptDone .success u)
      = some (({ s.server with pendingAccepts := s.server.pendingAccepts - 1 }.managerStart
        (HttpClientConnection.new u)).doAccept) := by
    simp only [HttpServerTransport.step, HttpServerTransport.onAccept, hpending, hopen]
    rfl
  refine ⟨{ s with server := ({ s.server with pendingAccepts := s.server.pendingAccepts - 1 }
    |>.managerStart (HttpClientConnection.new u)).doAccept }, ?_, rfl, ?_, hopen, ?_⟩
  · apply step_of_act hcrashed hdestroyed
    simp only [act, hi, hstep]
    rfl
  · exact Finset.mem_insert_self _ _
  · show s.server.pendingAccepts - 1 + 1 = 1
    omega

/-- The loop runs on a thread. -/
def loopRuns : List ProcessEvent := [.start, .createThread 0, .startReturns 0]

theorem loopRuns_runs : (run step anyStep (constructed []) loopRuns).isSome = true := by
  decide +kernel

/-- It takes a client. -/
theorem accepting_loopRuns :
    ((((run step anyStep (constructed []) loopRuns).get loopRuns_runs).step (.handler 0
      (.acceptDone .success ⟨⟨List.replicate bufferSize 0, length_zeros⟩, 0, 0, .ok⟩))).any
        fun s' => s'.server.connections.length = 1 ∧ s'.server.pendingAccepts = 1) = true := by
  obtain ⟨-, haccepts⟩ := accepting [] loopRuns _ (runs_get loopRuns_runs)
  obtain ⟨-, htakes⟩ := haccepts (by decide +kernel)
  obtain ⟨s', hstep, hconnections, -, -, hpending⟩ := htakes 0
    ⟨⟨List.replicate bufferSize 0, length_zeros⟩, 0, 0, .ok⟩ (by decide +kernel)
    (by decide +kernel) (by decide +kernel)
  rw [hstep, Option.any_some]
  refine decide_eq_true ⟨?_, hpending⟩
  rw [hconnections, List.length_append]
  rfl

/-! ## The loop returns -/

/-- What `stop` leaves of the acceptor and the set. -/
def Quiet (server : HttpServerTransport) : Prop :=
  server.acceptorOpen = false ∧ server.clientConnections_ = ∅

theorem quiet_closeAll (server : HttpServerTransport) : Quiet server.closeAll := by
  rw [closeAll_eq]
  exact ⟨rfl, rfl⟩

/-- A quiet server of a process is stopped. -/
theorem Quiet.stopped (h : Quiet s.server) (hrun : Runs step P (constructed docRoot) es s) :
    Stopped s.server := by
  refine ⟨h.1, h.2, ?_, fun i v hv => (phase_and_dropped_run hrun hv).1⟩
  intro i v hv
  obtain ⟨-, hreg⟩ := HttpServerTransport.connection_of_view hv
  refine (phase_and_dropped_run hrun hv).2 ?_
  rw [hreg, h.2]
  rfl

/-- A handler does not wait for another signal. -/
theorem signalWait_of_completion {server server' : HttpServerTransport} {b : Event}
    (hb : b.isCompletion = true) (hstep : server.step b = some server') :
    server'.signalWait = server.signalWait := by
  cases b with
  | acceptDone ec u =>
    obtain ⟨-, rfl⟩ := HttpServerTransport.step_acceptDone hstep
    unfold HttpServerTransport.onAccept
    split_ifs <;> rfl
  | readDone j k ec r env =>
    obtain ⟨c, -, -, rfl⟩ := HttpServerTransport.step_readDone hstep
    cases ec <;> rfl
  | writeDone j k ec =>
    obtain ⟨c, -, -, rfl⟩ := HttpServerTransport.step_writeDone hstep
    cases ec <;> rfl
  | stopAll => cases hb
  | signal => cases hb
  | addStat stat => cases hb

/-- A thread in `stop` stays there while another thread goes on. -/
theorem stopping_mem_set {threads : List IoThread} (h : .stopping ∈ threads)
    (hi : threads[i]? = some .running) (t : IoThread) : .stopping ∈ threads.set i t := by
  obtain ⟨j, hj⟩ := List.getElem?_of_mem h
  have hij : i ≠ j := by
    rintro rfl
    rw [hi] at hj
    cases hj
  refine List.mem_of_getElem? (i := j) ?_
  rw [List.getElem?_set_ne hij, hj]

/-- The server waits for a signal, the handler of the signal is in `stop`, or the server is
quiet. -/
def Attended (s : ServerProcess) : Prop :=
  s.server.signalWait = true ∨ .stopping ∈ s.threads ∨ Quiet s.server

/-- **Step lemma.** -/
theorem attended_step (hrun : Runs step P (constructed docRoot) es s) (h : Attended s)
    (hstep : s.step e = some s') : Attended s' := by
  have hact := (step_eq_some hstep).2.2
  cases e with
  | start =>
    cases hact
    exact h
  | createThread k =>
    simp only [act] at hact
    split at hact
    · cases hact
      rcases h with hwait | hmem | hquiet
      · exact Or.inl hwait
      · exact Or.inr (Or.inl (List.mem_append_left _ hmem))
      · exact Or.inr (Or.inr hquiet)
    · cases hact
  | startReturns k =>
    simp only [act] at hact
    split at hact
    · cases hact
      exact h
    · cases hact
  | stop =>
    cases hact
    exact h
  | destroy =>
    simp only [act] at hact
    split_ifs at hact
    cases hact
    exact h
  | signal j =>
    simp only [act] at hact
    split_ifs at hact with hj
    cases hact
    have hlt : j < s.threads.length := (List.getElem?_eq_some_iff.mp hj.1).1
    exact Or.inr (Or.inl (List.mem_of_getElem? (List.getElem?_set_self hlt)))
  | interrupt k =>
    simp only [act] at hact
    split at hact
    · split at hact <;> cases hact <;> exact h
    · cases hact
  | stopReturns k =>
    simp only [act] at hact
    split at hact
    · -- whoever called it, everything is closed
      cases hact
      refine Or.inr (Or.inr ?_)
      rw [leaveStop_server]
      exact quiet_closeAll s.server
    · cases hact
  | handler j b =>
    simp only [act] at hact
    split_ifs at hact with hj
    obtain ⟨server, hserver, rfl⟩ := Option.map_eq_some_iff.mp hact
    rcases h with hwait | hmem | hquiet
    · exact Or.inl ((signalWait_of_completion hj.2 hserver).trans hwait)
    · exact Or.inr (Or.inl hmem)
    · obtain ⟨hopen, -, -, hempty⟩ := (hquiet.stopped hrun).frame hserver
      exact Or.inr (Or.inr ⟨hopen, hempty⟩)
  | addStat stat =>
    cases hact
    exact h
  | runReturns j =>
    simp only [act] at hact
    split_ifs at hact with hj
    cases hact
    rcases h with hwait | hmem | hquiet
    · exact Or.inl hwait
    · exact Or.inr (Or.inl (stopping_mem_set hmem hj.1 .returned))
    · exact Or.inr (Or.inr hquiet)

/-- The server waits for a signal until one has come. -/
theorem signal_mem_run (hrun : Runs step P (constructed docRoot) es s) :
    s.server.signalWait = true ∨ ∃ j, .signal j ∈ es := by
  refine hrun.trace (R := fun es s => s.server.signalWait = true ∨ ∃ j, .signal j ∈ es)
    (Or.inl rfl) ?_
  intro es s e s' _ h _ hstep
  have hbefore : (∃ j, .signal j ∈ es) → ∃ j, .signal j ∈ es ++ [e] := by
    rintro ⟨j, hj⟩
    exact ⟨j, List.mem_append_left _ hj⟩
  have hsame : s'.server.signalWait = s.server.signalWait →
      s'.server.signalWait = true ∨ ∃ j, .signal j ∈ es ++ [e] := by
    intro heq
    rcases h with hwait | hcame
    · exact Or.inl (heq.trans hwait)
    · exact Or.inr (hbefore hcame)
  cases act_server (step_eq_some hstep).2.2 with
  | flags _ _ _ _ hwait =>
    rcases hwait with heq | ⟨⟨j, rfl⟩, -⟩
    · exact hsame heq
    · exact Or.inr ⟨j, List.mem_append_right _ (List.mem_singleton.mpr rfl)⟩
  | closes heq =>
    refine hsame ?_
    rw [heq, closeAll_eq]
    rfl
  | handles b hb hb' => exact hsame (signalWait_of_completion hb hb')

/-- What is left of a server whose loop has returned. -/
structure Over (server : HttpServerTransport) : Prop where
  quiet : Quiet server
  closed : ∀ c ∈ server.connections, c.socketOpen = false ∧ c.pending = []
  no_accept : server.pendingAccepts = 0

/-- No operation is outstanding, so no handler runs. -/
theorem Over.not_completion {server : HttpServerTransport} (h : Over server) {b : Event}
    (hb : b.isCompletion = true) : server.step b = none := by
  have hnone : ∀ c ∈ server.connections, ∀ k, c.awaitsRead k = false ∧ c.awaitsWrite k = false := by
    intro c hc k
    rw [HttpClientConnection.awaitsRead, HttpClientConnection.awaitsWrite, (h.closed c hc).2]
    exact ⟨rfl, rfl⟩
  cases b with
  | acceptDone ec u =>
    refine if_neg ?_
    rw [h.no_accept]
    exact lt_irrefl 0
  | readDone j k ec r env =>
    simp only [HttpServerTransport.step]
    split
    · rename_i c hc
      rw [(hnone c (List.mem_of_getElem? hc) k).1]
      exact if_neg Bool.false_ne_true
    · rfl
  | writeDone j k ec =>
    simp only [HttpServerTransport.step]
    split
    · rename_i c hc
      rw [(hnone c (List.mem_of_getElem? hc) k).2]
      exact if_neg Bool.false_ne_true
    · rfl
  | stopAll => cases hb
  | signal => cases hb
  | addStat stat => cases hb

/-- **Step lemma**: what is over stays over. -/
theorem over_step (h : Over s.server) (hstep : s.step e = some s') :
    Over s'.server ∧ s'.server.connections.length = s.server.connections.length := by
  cases act_server (step_eq_some hstep).2.2 with
  | flags hopen haccepts hconnections hset _ =>
    refine ⟨⟨⟨hopen.trans h.quiet.1, hset.trans h.quiet.2⟩, ?_, haccepts.trans h.no_accept⟩, ?_⟩
    · rw [hconnections]
      exact h.closed
    · rw [hconnections]
  | closes heq =>
    rw [heq]
    refine ⟨⟨quiet_closeAll s.server, ?_, ?_⟩, ?_⟩
    · rw [closeAll_eq]
      intro c hc
      obtain ⟨i, hi, rfl⟩ := List.mem_mapIdx.mp hc
      have hclosed := h.closed _ (List.getElem_mem hi)
      split_ifs
      · exact ⟨rfl, hclosed.2⟩
      · exact hclosed
    · rw [closeAll_eq]
      exact h.no_accept
    · rw [closeAll_eq]
      exact List.length_mapIdx
  | handles b hb hb' =>
    rw [h.not_completion hb] at hb'
    cases hb'

/-- **When the loop returns.**  In every run of the process in which handlers and the ends of
`stop` do not overlap, `ioService_.run()` returns on a thread only after a signal, and finds
the server closed: the acceptor is closed, the set is empty, the sockets of all connections
are closed and no operation is outstanding.  Whatever is called afterwards, this remains so
and no connection is made any more.  (What `socket_` holds is not said: an accept that
succeeds leaves it open until a handler moves it into a connection.) -/
theorem returns_stopped (docRoot : Bytes) (es es' : List ProcessEvent) (s s₁ s₂ : ServerProcess)
    (i : ℕ) (hrun : Runs step anyStep (constructed docRoot) es s)
    (hreturn : s.step (.runReturns i) = some s₁) (hrun' : Runs step anyStep s₁ es' s₂) :
    (∃ j, .signal j ∈ es) ∧ s₂.server.acceptorOpen = false ∧ s₂.server.clientConnections_ = ∅
      ∧ (∀ c ∈ s₂.server.connections, c.socketOpen = false ∧ c.pending = [])
      ∧ s₂.server.pendingAccepts = 0
      ∧ s₂.server.connections.length = s.server.connections.length := by
  have hattended : Attended s := by
    refine hrun.trace (R := fun _ s => Attended s) (Or.inl rfl) ?_
    intro es s e s' hrun h _ hstep
    exact attended_step hrun h hstep
  have hact := (step_eq_some hreturn).2.2
  simp only [act] at hact
  split_ifs at hact with hreturns
  cases hact
  have hwork : s.server.operations = 0 ∧ s.server.signalWait = false ∧ .stopping ∉ s.threads :=
    of_decide_eq_true hreturns.2
  obtain ⟨hops, hwait, hthreads⟩ := hwork
  have hno : s.server.signalWait ≠ true := by
    rw [hwait]
    exact Bool.false_ne_true
  have hquiet : Quiet s.server :=
    (hattended.resolve_left hno).resolve_left hthreads
  have hstopped := hquiet.stopped hrun
  -- no operation of a connection is left in the count
  unfold HttpServerTransport.operations at hops
  have hover : Over s.server := by
    refine ⟨hquiet, ?_, by omega⟩
    intro c hc
    obtain ⟨k, hk⟩ := List.getElem?_of_mem hc
    refine ⟨hstopped.closed k _ (HttpServerTransport.view_of_connection hk), ?_⟩
    have hle : c.tally (fun _ => 1) ≤ s.server.tally fun _ => 1 := Tally.le_total_of_mem hc
    refine List.eq_nil_of_length_eq_zero ?_
    have hlen : c.tally (fun _ => 1) = c.pending.length := by
      simp [HttpClientConnection.tally, Tally.total]
    omega
  obtain ⟨hend, hlength⟩ := hrun'.invariant (I := fun s₂ => Over s₂.server
      ∧ s₂.server.connections.length = s.server.connections.length) ⟨hover, rfl⟩
    fun _ _ _ h _ hstep => ⟨(over_step h.1 hstep).1, (over_step h.1 hstep).2.trans h.2⟩
  exact ⟨(signal_mem_run hrun).resolve_left hno, hend.quiet.1, hend.quiet.2, hend.closed,
    hend.no_accept, hlength⟩

/-- A signal comes, `stop` runs, and the handler of the accept is called with an error. -/
def stoppedBySignal : List ProcessEvent :=
  loopRuns ++ [.signal 0, .interrupt 0, .stopReturns 0,
    .handler 0 (.acceptDone .operationAborted
      ⟨⟨List.replicate bufferSize 0, length_zeros⟩, 0, 0, .ok⟩)]

theorem stoppedBySignal_runs :
    (run step anyStep (constructed []) stoppedBySignal).isSome = true := by
  decide +kernel

theorem stoppedBySignal_returns :
    (((run step anyStep (constructed []) stoppedBySignal).get stoppedBySignal_runs).step
      (.runReturns 0)).isSome = true := by
  decide +kernel

theorem stoppedBySignal_start :
    (run step anyStep ((((run step anyStep (constructed []) stoppedBySignal).get
      stoppedBySignal_runs).step (.runReturns 0)).get stoppedBySignal_returns)
      [.start, .createThread 0]).isSome = true := by
  decide +kernel

/-- The loop returns, and a further call of `start` makes a thread that finds nothing. -/
theorem returns_stopped_example :
    ((run step anyStep ((((run step anyStep (constructed []) stoppedBySignal).get
        stoppedBySignal_runs).step (.runReturns 0)).get stoppedBySignal_returns)
        [.start, .createThread 0]).get stoppedBySignal_start).threads = [.returned, .running]
      ∧ ((run step anyStep ((((run step anyStep (constructed []) stoppedBySignal).get
        stoppedBySignal_runs).step (.runReturns 0)).get stoppedBySignal_returns)
        [.start, .createThread 0]).get stoppedBySignal_start).server.pendingAccepts = 0 := by
  obtain ⟨-, -, -, -, hno, -⟩ := returns_stopped [] stoppedBySignal [.start, .createThread 0] _ _ _
    0 (runs_get stoppedBySignal_runs) (Option.some_get stoppedBySignal_returns).symm
    (runs_get stoppedBySignal_start)
  exact ⟨by decide +kernel, hno⟩

end ServerProcess

end Unichannel
