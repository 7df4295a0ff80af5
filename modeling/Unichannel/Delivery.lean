/-
# From an update to a socket

The manager and the server as one program: the consumers add stats to the request handler
whose requests are those of the connections.  `answers` records what `handle_request` has
answered, and for which connection.

The program refines the pipeline (`pipeline_run`) and the event loop, so what holds of
their runs holds of its runs.  Together they give that every accepted update is still in
the program or in the reply of exactly one connection, whose one write it is in
(`delivered_once`).
-/
import Unichannel.Exchange
import Unichannel.FeedOrder

namespace Unichannel

open GuardedSystem

/-! ## The program -/

/-- A reply of `handle_request`, and the connection it was made for. -/
structure Answer where
  connection : ℕ
  served : Served
  deriving DecidableEq, Repr

/-- The server and the manager whose `reqHandler_` is the server's, once it is set. -/
structure Program where
  server : HttpServerTransport
  manager : LatencyStatManager
  crashed : Bool
  accepted : List LatencyStat.Ptr
  answers : List Answer

/-- The events: one of the manager's threads, or a completion of the loop. -/
inductive ProgramEvent
  | manager (e : ManagerEvent)
  | loop (e : Event)

/-- An event of the loop itself; stats are added by the consumers. -/
def Event.isLoop : Event → Bool
  | .addStat _ => false
  | _ => true

/-- What `handle_request` answers when an event happens, if it is called. -/
def HttpServerTransport.answer (s : HttpServerTransport) : Event → Option Answer
  | .readDone i k .success r env =>
    match s.connections[i]? with
    | some c =>
      let p := (c.complete k).receive r
      match p.result with
      | .good =>
        some ⟨i, (handleRequest env s.reqHandler_ p.conn.req_ p.conn.reply_).rep,
          latestPoint s.reqHandler_ p.conn.req_⟩
      | _ => none
    | none => none
  | _ => none

/-- The connection whose request is answered when an event happens, and what it asks for. -/
def HttpServerTransport.asks (s : HttpServerTransport) : Event → Option (ℕ × Route)
  | .readDone i k .success r _ =>
    match s.connections[i]? with
    | some c =>
      let p := (c.complete k).receive r
      match p.result with
      | .good => some (i, route p.conn.req_.uri_)
      | _ => none
    | none => none
  | _ => none

namespace Program

/-- What an event of the manager does outside of it. -/
def apply (p : Program) : StatEffect → Program
  | .none => p
  | .accepts stat => { p with accepted := p.accepted ++ [stat] }
  | .takes => p
  | .adds stat =>
    if p.manager.reqHandlerSet then
      { p with server := { p.server with reqHandler_ := p.server.reqHandler_.addStat stat } }
    else { p with crashed := true }

/-- One event; `none` if it is not enabled. -/
def step (p : Program) (e : ProgramEvent) : Option Program :=
  if p.crashed then none
  else
    match e with
    | .manager e => (p.manager.step e).map fun m => ({ p with manager := m.1 } : Program).apply m.2
    | .loop e =>
      if e.isLoop then
        (p.server.step e).map fun s =>
          { p with server := s, answers := p.answers ++ (p.server.answer e).toList }
      else none

/-- The program when the loop starts. -/
def initial (consumerThreadCount : ℕ) (docRoot : Bytes) : Program where
  server := .initial docRoot
  manager := LatencyStatManager.new consumerThreadCount
  crashed := false
  accepted := []
  answers := []

/-- The program as a pipeline: the loop calls `handle_request`. -/
def pipeline (p : Program) : StatPipeline where
  manager := p.manager
  reqHandler := p.server.reqHandler_
  crashed := p.crashed
  accepted := p.accepted
  replies := p.answers.map Answer.served

/-- The stats whose points are in replies, in the order of the requests. -/
def delivered (p : Program) : List LatencyStat.Ptr :=
  p.answers.filterMap fun a => a.served.point

end Program

/-! ## The loop and the request handler -/

namespace HttpServerTransport

variable {s s' : HttpServerTransport} {e : Event}

/-- The loop changes the request handler by the calls of `handle_request` alone. -/
theorem step_reqHandler (he : e.isLoop = true) (hstep : s.step e = some s') :
    (s.answer e = none ∧ s'.reqHandler_ = s.reqHandler_)
      ∨ ∃ i env req rep, s.answer e
          = some ⟨i, (handleRequest env s.reqHandler_ req rep).rep, latestPoint s.reqHandler_ req⟩
        ∧ s.asks e = some (i, route req.uri_)
        ∧ s'.reqHandler_ = (handleRequest env s.reqHandler_ req rep).handler := by
  cases e with
  | acceptDone ec u =>
    obtain ⟨-, rfl⟩ := step_acceptDone hstep
    refine Or.inl ⟨rfl, ?_⟩
    unfold onAccept
    split_ifs <;> rfl
  | readDone i k ec r env =>
    obtain ⟨c, hc, -, rfl⟩ := step_readDone hstep
    cases ec with
    | success =>
      simp only [answer, asks, hc, onRead, HttpClientConnection.onReadSuccess]
      cases hr : ((c.complete k).receive r).result with
      | good => exact Or.inr ⟨i, env, _, _, rfl, rfl, rfl⟩
      | bad => exact Or.inl ⟨rfl, rfl⟩
      | indeterminate => exact Or.inl ⟨rfl, rfl⟩
    | operationAborted => exact Or.inl ⟨rfl, rfl⟩
    | other => exact Or.inl ⟨rfl, rfl⟩
  | writeDone i k ec =>
    obtain ⟨c, -, -, rfl⟩ := step_writeDone hstep
    refine Or.inl ⟨rfl, ?_⟩
    cases ec <;> rfl
  | stopAll =>
    cases hstep
    exact Or.inl ⟨rfl, rfl⟩
  | signal =>
    obtain ⟨-, rfl⟩ := step_signal hstep
    rw [stop_eq]
    exact Or.inl ⟨rfl, rfl⟩
  | addStat stat => cases he

end HttpServerTransport

/-! ## The program refines the pipeline and the loop -/

namespace Program

variable {n : ℕ} {docRoot : Bytes} {p p' : Program} {e : ProgramEvent} {es : List ProgramEvent}

/-- An event of the manager is a step of the manager and its effect. -/
theorem step_manager {e : ManagerEvent} (hstep : p.step (.manager e) = some p') :
    ∃ m eff, p.crashed = false ∧ p.manager.step e = some (m, eff)
      ∧ p' = ({ p with manager := m } : Program).apply eff := by
  simp only [step] at hstep
  split_ifs at hstep with hcrashed
  obtain ⟨⟨m, eff⟩, hm, rfl⟩ := Option.map_eq_some_iff.mp hstep
  exact ⟨m, eff, Bool.eq_false_iff.mpr hcrashed, hm, rfl⟩

/-- An event of the loop is a step of the server, with the answer it gives. -/
theorem step_loop {e : Event} (hstep : p.step (.loop e) = some p') :
    ∃ s, p.crashed = false ∧ e.isLoop = true ∧ p.server.step e = some s
      ∧ p' = { p with server := s, answers := p.answers ++ (p.server.answer e).toList } := by
  simp only [step] at hstep
  split_ifs at hstep with hcrashed he
  obtain ⟨s, hs, rfl⟩ := Option.map_eq_some_iff.mp hstep
  exact ⟨s, Bool.eq_false_iff.mpr hcrashed, he, hs, rfl⟩

/-- The effect is the one on the pipeline. -/
theorem pipeline_apply (p : Program) (eff : StatEffect) :
    (p.apply eff).pipeline = p.pipeline.apply eff := by
  cases eff with
  | adds stat =>
    show (if p.manager.reqHandlerSet then _ else _ : Program).pipeline
      = if p.manager.reqHandlerSet then _ else _
    split_ifs <;> rfl
  | _ => rfl

/-- What an event of the manager is to the loop. -/
theorem server_apply (p : Program) (eff : StatEffect) :
    (p.apply eff).server = p.server
      ∨ ∃ stat, p.server.step (.addStat stat) = some (p.apply eff).server := by
  cases eff with
  | adds stat =>
    unfold apply
    split_ifs with hset
    · exact Or.inr ⟨stat, rfl⟩
    · exact Or.inl rfl
  | _ => exact Or.inl rfl

@[simp] theorem apply_answers (p : Program) (eff : StatEffect) :
    (p.apply eff).answers = p.answers := by
  cases eff with
  | adds stat =>
    unfold apply
    split_ifs <;> rfl
  | _ => rfl

/-- An event of the manager is one of the pipeline, and answers nothing. -/
theorem step_manager_pipeline {e : ManagerEvent} (hstep : p.step (.manager e) = some p') :
    p.pipeline.step (.manager e) = some p'.pipeline ∧ p'.answers = p.answers := by
  obtain ⟨m, eff, hcrashed, hm, rfl⟩ := step_manager hstep
  rw [pipeline_apply, apply_answers]
  exact ⟨StatPipeline.step_of_manager hcrashed hm, rfl⟩

/-- An event of the loop answers a request of the pipeline, or is nothing to it. -/
theorem step_loop_pipeline {e : Event} (hstep : p.step (.loop e) = some p') :
    (p.server.answer e = none ∧ p'.pipeline = p.pipeline ∧ p'.answers = p.answers)
      ∨ ∃ i env req rep, p.server.asks e = some (i, route req.uri_)
        ∧ p.pipeline.step (.request env req rep) = some p'.pipeline
        ∧ p'.answers = p.answers ++ [⟨i, (handleRequest env p.server.reqHandler_ req rep).rep,
          latestPoint p.server.reqHandler_ req⟩] := by
  obtain ⟨s, hcrashed, he, hs, rfl⟩ := step_loop hstep
  rcases HttpServerTransport.step_reqHandler he hs with
    ⟨hnone, hsame⟩ | ⟨i, env, req, rep, hsome, hasks, hhandler⟩
  · refine Or.inl ⟨hnone, ?_, ?_⟩
    · rw [hnone, Option.toList_none, List.append_nil, pipeline, hsame]
      rfl
    · rw [hnone, Option.toList_none, List.append_nil]
  · refine Or.inr ⟨i, env, req, rep, hasks, ?_, ?_⟩
    · rw [StatPipeline.step_request_eq (s := p.pipeline) hcrashed env req rep]
      refine congrArg some ?_
      simp only [pipeline, hsome, hhandler, Option.toList_some, List.map_append, List.map_singleton]
    · rw [hsome, Option.toList_some]

/-- **Every event of the program** is one of the pipeline, or nothing to it. -/
theorem step_pipeline (hstep : p.step e = some p') :
    p'.pipeline = p.pipeline
      ∨ ∃ e' : PipelineEvent, p.pipeline.step e' = some p'.pipeline
        ∧ ∀ m, e' = .manager m → e = .manager m := by
  cases e with
  | manager e =>
    exact Or.inr ⟨.manager e, (step_manager_pipeline hstep).1, fun m hm => by cases hm; rfl⟩
  | loop e =>
    rcases step_loop_pipeline hstep with ⟨-, hsame, -⟩ | ⟨i, env, req, rep, -, hrequest, -⟩
    · exact Or.inl hsame
    · exact Or.inr ⟨.request env req rep, hrequest, fun m hm => by cases hm⟩

/-- And one of the loop, or nothing to that. -/
theorem step_server (hstep : p.step e = some p') :
    p'.server = p.server ∨ ∃ e', p.server.step e' = some p'.server := by
  cases e with
  | manager e =>
    obtain ⟨m, eff, -, -, rfl⟩ := step_manager hstep
    rcases server_apply { p with manager := m } eff with hsame | ⟨stat, hstat⟩
    · exact Or.inl hsame
    · exact Or.inr ⟨.addStat stat, hstat⟩
  | loop e =>
    obtain ⟨s, -, -, hs, rfl⟩ := step_loop hstep
    exact Or.inr ⟨e, hs⟩

/-- The handler is set before a consumer adds a stat to it. -/
def HandlerSet (p : Program) : ProgramEvent → Prop
  | .manager e => Unichannel.HandlerSet p.pipeline (.manager e)
  | .loop _ => True

instance : DecidableRel HandlerSet := fun p e =>
  match e with
  | .manager e => inferInstanceAs (Decidable (Unichannel.HandlerSet p.pipeline (.manager e)))
  | .loop _ => isTrue trivial

/-- **The program refines the pipeline.** -/
theorem pipeline_run (h : Runs step HandlerSet (initial n docRoot) es p) :
    ∃ ps, Runs StatPipeline.step Unichannel.HandlerSet (StatPipeline.initial n docRoot) ps
      p.pipeline := by
  refine h.part pipeline fun p e p' hP hstep => ?_
  rcases step_pipeline hstep with hsame | ⟨e', he', hmanager⟩
  · exact Or.inl hsame
  · refine Or.inr ⟨e', ?_, he'⟩
    cases e' with
    | manager m =>
      obtain rfl := hmanager m rfl
      exact hP
    | request env req rep => exact fun stat hstat => by cases hstat

/-- **The program refines the loop.** -/
theorem server_run {P : Program → ProgramEvent → Prop}
    (h : Runs step P (initial n docRoot) es p) :
    ∃ ss, Runs HttpServerTransport.step anyStep (.initial docRoot) ss p.server := by
  refine h.part Program.server fun p e p' _ hstep => ?_
  rcases step_server hstep with hsame | ⟨e', he'⟩
  · exact Or.inl hsame
  · exact Or.inr ⟨e', trivial, he'⟩

end Program

/-! ## An answer stays -/

/-- A read that decides is answered. -/
theorem answering_onReadSuccess {c : HttpClientConnection} (hreading : Reading c.history)
    (env : Env) (h : HttpReqHandler) (r : ReadBytes) :
    match (c.receive r).result with
    | .good => Answering (c.onReadSuccess env h r).1.history
      ∧ (c.onReadSuccess env h r).1.reply_
        = (handleRequest env h (c.receive r).conn.req_ (c.receive r).conn.reply_).rep
    | .bad => Answering (c.onReadSuccess env h r).1.history
      ∧ (c.onReadSuccess env h r).1.reply_ = HttpReply.stockReply .badRequest
    | .indeterminate => Reading (c.onReadSuccess env h r).1.history := by
  have hhistory : (c.receive r).conn.history = c.history ++ [.parsed (c.receive r).result] := rfl
  have hanswer : ∀ rep, (c.receive r).result ≠ .indeterminate →
      Answering ((c.receive r).conn.setReply rep).doWrite.history := by
    intro rep hne
    refine ⟨c.history, (c.receive r).result, c.socketOpen, [], ?_, hreading, hne,
      fun a ha => absurd ha List.not_mem_nil⟩
    simp [HttpClientConnection.doWrite, HttpClientConnection.setReply, hhistory]
    rfl
  unfold HttpClientConnection.onReadSuccess
  dsimp only
  cases hr : (c.receive r).result with
  | good => exact ⟨hanswer _ (by rw [hr]; decide), rfl⟩
  | bad => exact ⟨hanswer _ (by rw [hr]; decide), rfl⟩
  | indeterminate =>
    have hread := (hreading.append_singleton (Or.inr rfl)).append_singleton
      (Or.inl ⟨c.socketOpen, rfl⟩)
    rw [← hr] at hread
    exact hread

/-- Only a read that decides makes a connection answer. -/
theorem decided_step {v v' : Session} {b : SessionEvent} (h : Phase v.conn)
    (hnot : ¬ Answering v.conn.history) (hanswer : Answering v'.conn.history)
    (hstep : v.step b = some v') :
    ∃ k r env hd, b = .readDone k .success r env hd ∧ Reading v.conn.history
      ∧ v'.conn = ((v.conn.complete k).onReadSuccess env hd r).1 := by
  cases b with
  | readDone k ec r env hd =>
    obtain ⟨hk, rfl⟩ := Session.step_readDone hstep
    cases ec with
    | success => exact ⟨k, r, env, hd, rfl, (h.of_awaitsRead hk).2.2, rfl⟩
    | operationAborted => exact absurd hanswer hnot
    | other => exact absurd hanswer hnot
  | writeDone k ec =>
    obtain ⟨hk, -⟩ := Session.step_writeDone hstep
    exact absurd (h.of_awaitsWrite hk).2.2 hnot
  | stopAll =>
    cases hstep
    rcases v.stopAll_cases with heq | ⟨-, heq⟩ <;> rw [heq] at hanswer <;>
      exact absurd hanswer hnot

/-- Only a completed read of the connection shows as one. -/
theorem eq_readDone_of_forSession {e : Event} {i k : ℕ} {ec : ErrorCode} {r : ReadBytes}
    {env : Env} {h hd : HttpReqHandler}
    (hb : e.forSession i h = some (.readDone k ec r env hd)) :
    e = .readDone i k ec r env ∧ hd = h := by
  cases e with
  | readDone j l ec' r' env' =>
    simp only [Event.forSession] at hb
    split_ifs at hb with hij
    cases hb
    rw [hij]
    exact ⟨rfl, rfl⟩
  | writeDone j l ec' =>
    simp only [Event.forSession] at hb
    split_ifs at hb
    cases hb
  | _ => cases hb

/-! ## One connection for an answer -/

/-- The answers are the replies of connections that have answered, each of another one,
and all these connections have one of them, or refuse their request. -/
structure Recorded (s : HttpServerTransport) (answers : List Answer) : Prop where
  once : (answers.map Answer.connection).Nodup
  held : ∀ a ∈ answers, ∃ c, s.connections[a.connection]? = some c ∧ Answering c.history
    ∧ c.reply_ = a.served.rep
  all : ∀ i c, s.connections[i]? = some c → Answering c.history →
    i ∈ answers.map Answer.connection ∨ c.reply_ = HttpReply.stockReply .badRequest

namespace HttpServerTransport

variable {docRoot : Bytes} {s s' : HttpServerTransport} {e : Event} {es : List Event}
  {answers : List Answer} {a : Answer}

/-- An answer is given by a read that completes a good request. -/
theorem answer_eq_some (ha : s.answer e = some a) :
    ∃ k r env c, e = .readDone a.connection k .success r env
      ∧ s.connections[a.connection]? = some c ∧ ((c.complete k).receive r).result = .good
      ∧ a.served.rep = (handleRequest env s.reqHandler_ ((c.complete k).receive r).conn.req_
        ((c.complete k).receive r).conn.reply_).rep := by
  unfold answer at ha
  split at ha
  · rename_i i k r env
    split at ha
    · rename_i c hc
      dsimp only at ha
      cases hr : ((c.complete k).receive r).result with
      | good =>
        rw [hr] at ha
        cases ha
        exact ⟨k, r, env, c, rfl, hc, hr, rfl⟩
      | bad =>
        rw [hr] at ha
        cases ha
      | indeterminate =>
        rw [hr] at ha
        cases ha
    · cases ha
  · cases ha

/-- **Step lemma.** -/
theorem recorded_step (hrun : Runs step anyStep (initial docRoot) es s) (h : Recorded s answers)
    (hstep : s.step e = some s') : Recorded s' (answers ++ (s.answer e).toList) := by
  have hphase : ∀ i c, s.connections[i]? = some c → Phase c :=
    fun i c hc => phase_run hrun (view_of_connection hc)
  refine ⟨?_, ?_, ?_⟩
  · rw [List.map_append]
    cases ha : s.answer e with
    | none =>
      rw [Option.toList_none, List.map_nil, List.append_nil]
      exact h.once
    | some a =>
      rw [Option.toList_some, List.map_singleton]
      refine List.nodup_append.mpr ⟨h.once, List.nodup_singleton _, ?_⟩
      rintro i hi j hj rfl
      -- the connection is reading, so it has not answered
      obtain ⟨k, r, env, c, rfl, hc, -, -⟩ := answer_eq_some ha
      obtain ⟨a', ha', heq⟩ := List.mem_map.mp hi
      obtain ⟨c', hc', hanswer, -⟩ := h.held a' ha'
      rw [heq, List.mem_singleton.mp hj, hc] at hc'
      cases hc'
      obtain ⟨c'', hc'', hk, -⟩ := step_readDone hstep
      obtain rfl : c = c'' := Option.some.inj (hc.symm.trans hc'')
      exact ((hphase _ c hc).of_awaitsRead hk).2.2.not_answering hanswer
  · intro a ha
    rcases List.mem_append.mp ha with ha | ha
    · obtain ⟨c, hc, hanswer, hreply⟩ := h.held a ha
      obtain ⟨c', hc', hanswer', hreply'⟩ := connection_step hc (hphase _ c hc) hanswer hstep
      exact ⟨c', hc', hanswer', hreply'.trans hreply⟩
    · rw [Option.mem_toList] at ha
      obtain ⟨k, r, env, c, rfl, hc, hgood, hrep⟩ := answer_eq_some ha
      obtain ⟨c', hc', hk, rfl⟩ := step_readDone hstep
      obtain rfl : c = c' := Option.some.inj (hc.symm.trans hc')
      have hview := view_onRead_self (c := c.complete k) (view_of_connection hc) .success r env
      have hanswer := answering_onReadSuccess (c := c.complete k)
        ((hphase _ c hc).of_awaitsRead hk).2.2 env s.reqHandler_ r
      rw [hgood] at hanswer
      exact ⟨_, (connection_of_view hview).1, hanswer.1, hanswer.2.trans hrep.symm⟩
  · intro i c' hc' hanswer'
    rw [List.map_append, List.mem_append]
    rcases step_view hstep (view_of_connection hc') with
      ⟨-, u, heq⟩ | ⟨v, hv, hsame | ⟨b, hb, hvb⟩⟩
    · -- a new connection has not answered
      obtain rfl : c' = (HttpClientConnection.new u).start := congrArg Session.conn heq
      have hreading : Reading (HttpClientConnection.new u).start.history :=
        fun a ha => Or.inl ⟨true, List.mem_singleton.mp ha⟩
      exact absurd hanswer' hreading.not_answering
    · obtain rfl : c' = v.conn := congrArg Session.conn hsame
      exact (h.all i _ (connection_of_view hv).1 hanswer').imp_left Or.inl
    · have hconn := (connection_of_view hv).1
      by_cases hbefore : Answering v.conn.history
      · obtain ⟨-, hreply⟩ := answered_step (hphase i _ hconn) hbefore hvb
        exact (h.all i _ hconn hbefore).imp Or.inl hreply.trans
      · -- this read has decided
        obtain ⟨k, r, env, hd, rfl, hreading, hconn'⟩ :=
          decided_step (hphase i _ hconn) hbefore hanswer' hvb
        obtain ⟨rfl, rfl⟩ := eq_readDone_of_forSession hb
        have hdecides := answering_onReadSuccess (c := v.conn.complete k) hreading env
          s.reqHandler_ r
        rw [← hconn'] at hdecides
        cases hr : ((v.conn.complete k).receive r).result with
        | good => exact Or.inl (Or.inr (by simp [answer, hconn, hr]))
        | bad =>
          rw [hr] at hdecides
          exact Or.inr hdecides.2
        | indeterminate =>
          rw [hr] at hdecides
          exact absurd hanswer' hdecides.not_answering

end HttpServerTransport

namespace Program

variable {n : ℕ} {docRoot : Bytes} {p : Program} {es : List ProgramEvent}

/-- In every run the answers are those of the connections. -/
theorem recorded_run {P : Program → ProgramEvent → Prop}
    (h : Runs step P (initial n docRoot) es p) : Recorded p.server p.answers := by
  refine h.trace (R := fun _ p => Recorded p.server p.answers) ?_ ?_
  · refine ⟨List.nodup_nil, fun a ha => absurd ha List.not_mem_nil, fun i c hc => ?_⟩
    simp [initial, HttpServerTransport.initial, HttpServerTransport.doAccept] at hc
  · intro es p e p' hrun hp _ hstep
    obtain ⟨ss, hss⟩ := server_run hrun
    cases e with
    | manager e =>
      obtain ⟨m, eff, -, -, rfl⟩ := step_manager hstep
      rw [apply_answers]
      rcases server_apply { p with manager := m } eff with hsame | ⟨stat, hstat⟩
      · rw [hsame]
        exact hp
      · have hnext := HttpServerTransport.recorded_step hss hp hstat
        rw [show p.server.answer (.addStat stat) = none from rfl, Option.toList_none,
          List.append_nil] at hnext
        exact hnext
    | loop e =>
      obtain ⟨s, -, -, hs, rfl⟩ := step_loop hstep
      exact HttpServerTransport.recorded_step hss hp hs

/-- **Every update is in one place**, up to the sockets.  In every state of every run in
which the handler is set when a stat is added, for any number of consumers and whatever
the clients send: the accepted updates are those in the queue, in hands, in `statQ_` and in
the answers, and they are different objects; the answers are the replies of different
connections, which have started their one write with just that text and change it no
more; an answer that carries a stat has its point as content; and every connection that
has answered has an answer here or refuses its request. -/
theorem delivered_once (n : ℕ) (docRoot : Bytes) (es : List ProgramEvent) (p : Program)
    (hrun : Runs step HandlerSet (initial n docRoot) es p) :
    (p.accepted : Multiset LatencyStat.Ptr)
        = p.manager.latencyStatQ_ + p.manager.inHand + p.server.reqHandler_.statQ_ + p.delivered
      ∧ p.accepted.Nodup
      ∧ (p.answers.map Answer.connection).Nodup
      ∧ (∀ a ∈ p.answers, ∃ c, p.server.connections[a.connection]? = some c
        ∧ Answering c.history ∧ c.reply_ = a.served.rep
        ∧ (∀ op ∈ c.pending, ∀ buffers, op.kind = .write buffers →
          buffers.flatten = a.served.rep.wire)
        ∧ ∀ stat ∈ a.served.point, c.reply_.content_ = pointText stat.stat)
      ∧ ∀ i c, p.server.connections[i]? = some c → Answering c.history →
        i ∈ p.answers.map Answer.connection ∨ c.reply_ = HttpReply.stockReply .badRequest := by
  obtain ⟨ps, hps⟩ := pipeline_run hrun
  obtain ⟨ss, hss⟩ := server_run hrun
  have hrecorded := recorded_run hrun
  have hconserved : Relay.Conserved p.pipeline.relay := StatPipeline.conserved_run hps
  have hdelivered : p.pipeline.delivered = p.delivered := List.filterMap_map
  refine ⟨?_, StatPipeline.nodup_accepted hps, hrecorded.once, ?_, hrecorded.all⟩
  · rw [← hdelivered]
    exact hconserved
  · intro a ha
    obtain ⟨c, hc, hanswer, hreply⟩ := hrecorded.held a ha
    refine ⟨c, hc, hanswer, hreply, ?_, ?_⟩
    · intro op hop buffers hkind
      have hphase := phase_run hss (HttpServerTransport.view_of_connection hc)
      rw [hphase.buffers hop hkind, ← hreply]
      rfl
    · intro stat hstat
      have hwritten : StatPipeline.PointsWritten p.pipeline :=
        hps.invariant (I := StatPipeline.PointsWritten) (fun _ hr => absurd hr List.not_mem_nil)
          fun _ _ _ h _ hstep => StatPipeline.pointsWritten_step h hstep
      rw [hreply]
      exact hwritten a.served (List.mem_map_of_mem ha) stat hstat

theorem length_updateValues : (str "GET /updateValues HTTP/1.0\r\n\r\n").length ≤ bufferSize := by
  decide

/-- An update goes through the hands of a consumer, and a client asks for it. -/
def asked : List ProgramEvent :=
  [.manager .setReqHandler, .manager .start, .manager (.createThread 0),
    .manager (.startReturns 0), .manager (.onLatencyUpdate ⟨str "1", 897669200000, 4⟩),
    .manager (.push 0 none), .manager (.loopTest 0),
    .loop (.acceptDone .success ⟨⟨List.replicate bufferSize 0, length_zeros⟩, 0, 0, .ok⟩),
    .manager (.take 0), .manager (.addStat 0),
    .loop (.readDone 0 0 .success ⟨str "GET /updateValues HTTP/1.0\r\n\r\n", length_updateValues⟩
      ⟨fun _ _ => [], fun _ => none⟩)]

theorem asked_runs : (run step HandlerSet (initial 1 []) asked).isSome = true := by
  decide +kernel

/-- Its point is in the reply of this client. -/
theorem delivered_once_asked :
    ∃ c, ((run step HandlerSet (initial 1 []) asked).get asked_runs).server.connections[0]? = some c
      ∧ c.reply_.content_ = str "[897669200000,4]" := by
  obtain ⟨-, -, -, hanswers, -⟩ := delivered_once 1 [] asked _ (runs_get asked_runs)
  have hone : (((run step HandlerSet (initial 1 []) asked).get asked_runs).answers.any fun a =>
      a.connection = 0 ∧ a.served.point = some ⟨0, ⟨str "1", 897669200000, 4⟩⟩) = true := by
    decide +kernel
  obtain ⟨a, ha, hpoint⟩ := List.any_eq_true.mp hone
  obtain ⟨hconnection, hpoint⟩ := of_decide_eq_true hpoint
  obtain ⟨c, hc, -, -, -, hcontent⟩ := hanswers a ha
  rw [hconnection] at hc
  refine ⟨c, hc, ?_⟩
  rw [hcontent _ hpoint]
  decide +kernel

end Program

end Unichannel
