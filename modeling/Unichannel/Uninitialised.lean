/-
# No uninitialised memory is seen

A new connection holds a buffer, two version fields and a status that no constructor sets.
Two servers that run through the same events and differ only in what their new connections
happen to hold go on in step (`same_step`): their connections do the same, in the same
order, and hand the same bytes to the same writes, their sets and queues agree, and so does
every reply once it is set.
-/
import Unichannel.Exchange

namespace Unichannel

open GuardedSystem

/-! ## Connections that differ in what was not set -/

/-- Two connections that are the same but for the buffer, the versions while they are not
set, and the status of a reply that is not set. -/
structure SameConnection (c c' : HttpClientConnection) : Prop where
  socketOpen_eq : c.socketOpen = c'.socketOpen
  pending_eq : c.pending = c'.pending
  history_eq : c.history = c'.history
  parser_same : SameButUnset (c.reqParser_, c.req_) (c'.reqParser_, c'.req_)
  headers_eq : c.reply_.headers_ = c'.reply_.headers_
  content_eq : c.reply_.content_ = c'.reply_.content_
  reply_eq : .replySet ∈ c.history → c.reply_ = c'.reply_

namespace SameConnection

variable {c c' : HttpClientConnection}

/-- What new connections hold is all they differ in. -/
theorem start (u u' : Uninitialised) :
    SameConnection (HttpClientConnection.new u).start (HttpClientConnection.new u').start where
  socketOpen_eq := rfl
  pending_eq := rfl
  history_eq := rfl
  parser_same := ⟨rfl, rfl, rfl, rfl, fun hset => absurd hset Bool.false_ne_true⟩
  headers_eq := rfl
  content_eq := rfl
  reply_eq := fun hmem => absurd (List.mem_singleton.mp hmem) (fun heq => by cases heq)

/-- Connections that agree agree after `stop`. -/
theorem stop (h : SameConnection c c') : SameConnection c.stop c'.stop :=
  ⟨rfl, h.pending_eq, h.history_eq, h.parser_same, h.headers_eq, h.content_eq, h.reply_eq⟩

theorem complete (h : SameConnection c c') (k : ℕ) :
    SameConnection (c.complete k) (c'.complete k) :=
  ⟨h.socketOpen_eq, congrArg (List.eraseIdx · k) h.pending_eq, h.history_eq, h.parser_same,
    h.headers_eq, h.content_eq, h.reply_eq⟩

/-- An act other than setting the reply is noted in both histories. -/
theorem reply_eq_of_concat (h : SameConnection c c') {a : Act} (ha : a ≠ .replySet)
    (hmem : .replySet ∈ c.history ++ [a]) : c.reply_ = c'.reply_ := by
  rcases List.mem_append.mp hmem with hmem | hmem
  · exact h.reply_eq hmem
  · exact absurd (List.mem_singleton.mp hmem).symm ha

theorem shutdown (h : SameConnection c c') : SameConnection c.shutdown c'.shutdown :=
  ⟨h.socketOpen_eq, h.pending_eq, congrArg (· ++ [Act.shutdown]) h.history_eq, h.parser_same,
    h.headers_eq, h.content_eq, h.reply_eq_of_concat (fun heq => by cases heq)⟩

theorem doRead (h : SameConnection c c') : SameConnection c.doRead c'.doRead where
  socketOpen_eq := h.socketOpen_eq
  pending_eq := by
    show c.pending ++ [_] = c'.pending ++ [_]
    rw [h.pending_eq, h.socketOpen_eq]
  history_eq := by
    show c.history ++ [_] = c'.history ++ [_]
    rw [h.history_eq, h.socketOpen_eq]
  parser_same := h.parser_same
  headers_eq := h.headers_eq
  content_eq := h.content_eq
  reply_eq := h.reply_eq_of_concat fun heq => by cases heq

/-- Both set the same reply and write it. -/
theorem answer (h : SameConnection c c') (rep : HttpReply) :
    SameConnection (c.setReply rep).doWrite (c'.setReply rep).doWrite where
  socketOpen_eq := h.socketOpen_eq
  pending_eq := by
    show c.pending ++ [⟨.write rep.toBuffers, c.socketOpen⟩]
      = c'.pending ++ [⟨.write rep.toBuffers, c'.socketOpen⟩]
    rw [h.pending_eq, h.socketOpen_eq]
  history_eq := by
    show c.history ++ [.replySet] ++ [.writeStarted c.socketOpen]
      = c'.history ++ [.replySet] ++ [.writeStarted c'.socketOpen]
    rw [h.history_eq, h.socketOpen_eq]
  parser_same := h.parser_same
  headers_eq := rfl
  content_eq := rfl
  reply_eq := fun _ => rfl

/-- A read is parsed alike, although the buffers differ behind it. -/
theorem receive (h : SameConnection c c') (r : ReadBytes) :
    (c.receive r).result = (c'.receive r).result
      ∧ SameConnection (c.receive r).conn (c'.receive r).conn
      ∧ ((c.receive r).result = .good → (c.receive r).conn.req_ = (c'.receive r).conn.req_) := by
  obtain ⟨hresult, -, hstate⟩ := receive_eq_scan c r
  obtain ⟨hresult', -, hstate'⟩ := receive_eq_scan c' r
  obtain ⟨hverdict, -, hsame⟩ := parserScanner.scan_relates sameButUnset_step h.parser_same r.bytes
  have hres : (c.receive r).result = (c'.receive r).result := by rw [hresult, hresult', hverdict]
  refine ⟨hres, ?_, ?_⟩
  · refine ⟨h.socketOpen_eq, h.pending_eq, ?_, ?_, h.headers_eq, h.content_eq,
      h.reply_eq_of_concat fun heq => by cases heq⟩
    · show c.history ++ [.parsed (c.receive r).result]
        = c'.history ++ [.parsed (c'.receive r).result]
      rw [h.history_eq, hres]
    · rw [hstate, hstate']
      exact hsame
  · intro hgood
    have hset : (parserScanner.scan (c.reqParser_, c.req_) r.bytes).verdict = some .good := by
      rw [hresult] at hgood
      cases hv : (parserScanner.scan (c.reqParser_, c.req_) r.bytes).verdict with
      | none =>
        rw [hv] at hgood
        cases hgood
      | some v =>
        rw [hv] at hgood
        exact congrArg some hgood
    have heq := hsame.eq_of_versionsSet (versionsSet_of_good hset)
    rw [← hstate, ← hstate'] at heq
    exact congrArg Prod.snd heq

/-- The read handler does the same with both. -/
theorem onReadSuccess (h : SameConnection c c') (env : Env) (hd : HttpReqHandler) (r : ReadBytes) :
    SameConnection (c.onReadSuccess env hd r).1 (c'.onReadSuccess env hd r).1
      ∧ (c.onReadSuccess env hd r).2 = (c'.onReadSuccess env hd r).2 := by
  obtain ⟨hresult, hconn, hgood⟩ := h.receive r
  unfold HttpClientConnection.onReadSuccess
  dsimp only
  rw [← hresult]
  cases hr : (c.receive r).result with
  | good =>
    dsimp only
    rw [hgood hr, handleRequest_rep_eq hconn.headers_eq hconn.content_eq]
    exact ⟨hconn.answer _, rfl⟩
  | bad => exact ⟨hconn.answer _, rfl⟩
  | indeterminate => exact ⟨hconn.doRead, rfl⟩

end SameConnection

/-! ## Servers in step -/

/-- The connections of two servers, one by one. -/
structure SameConnections (cs cs' : List HttpClientConnection) : Prop where
  length_eq : cs.length = cs'.length
  conn : ∀ (i : ℕ) c c', cs[i]? = some c → cs'[i]? = some c' → SameConnection c c'

/-- Two servers whose connections differ in what was not set, and that agree otherwise. -/
def SameServer (s t : HttpServerTransport) : Prop :=
  ∃ cs, t = { s with connections := cs } ∧ SameConnections s.connections cs

/-- The same event, up to what a new connection holds. -/
inductive SameEvent : Event → Event → Prop
  | accept (ec : ErrorCode) (u u' : Uninitialised) :
    SameEvent (.acceptDone ec u) (.acceptDone ec u')
  | same (e : Event) : SameEvent e e

namespace SameConnections

variable {cs cs' ds ds' : List HttpClientConnection} {c c' : HttpClientConnection}

/-- Each connection has its counterpart, in the same place. -/
theorem exists_of_getElem? (h : SameConnections cs cs') {i : ℕ} (hc : cs[i]? = some c) :
    ∃ c', cs'[i]? = some c' ∧ SameConnection c c' := by
  have hlt : i < cs'.length := by
    rw [← h.length_eq]
    exact (List.getElem?_eq_some_iff.mp hc).1
  have hc' : cs'[i]? = some cs'[i] := List.getElem?_eq_getElem hlt
  exact ⟨cs'[i], hc', h.conn i c _ hc hc'⟩

/-- Changes that keep each pair the same keep the lists the same. -/
theorem map (h : SameConnections cs cs') {f g : ℕ → HttpClientConnection → HttpClientConnection}
    (hlength : ds.length = ds'.length) (hds : ∀ i : ℕ, ds[i]? = cs[i]?.map (f i))
    (hds' : ∀ i : ℕ, ds'[i]? = cs'[i]?.map (g i))
    (hfg : ∀ i c c', SameConnection c c' → SameConnection (f i c) (g i c')) :
    SameConnections ds ds' := by
  refine ⟨hlength, ?_⟩
  intro i d d' hd hd'
  rw [hds, Option.map_eq_some_iff] at hd
  rw [hds', Option.map_eq_some_iff] at hd'
  obtain ⟨c, hc, rfl⟩ := hd
  obtain ⟨c', hc', rfl⟩ := hd'
  exact hfg i c c' (h.conn i c c' hc hc')

theorem set (h : SameConnections cs cs') (hc : SameConnection c c') (i : ℕ) :
    SameConnections (cs.set i c) (cs'.set i c') := by
  refine h.map (f := fun j d => if i = j then c else d) (g := fun j d => if i = j then c' else d)
    ?_ ?_ ?_ ?_
  · rw [List.length_set, List.length_set, h.length_eq]
  · intro j
    rw [List.getElem?_set']
    split_ifs
    · rfl
    · exact Option.map_id'.symm
  · intro j
    rw [List.getElem?_set']
    split_ifs
    · rfl
    · exact Option.map_id'.symm
  · intro j d d' hd
    split_ifs
    · exact hc
    · exact hd

theorem modify_stop (h : SameConnections cs cs') (i : ℕ) :
    SameConnections (cs.modify i HttpClientConnection.stop)
      (cs'.modify i HttpClientConnection.stop) := by
  refine h.map (f := fun j d => if i = j then d.stop else d)
    (g := fun j d => if i = j then d.stop else d) ?_ ?_ ?_ ?_
  · rw [List.length_modify, List.length_modify, h.length_eq]
  · intro j
    rw [List.getElem?_modify]
    rfl
  · intro j
    rw [List.getElem?_modify]
    rfl
  · intro j d d' hd
    split_ifs
    · exact hd.stop
    · exact hd

theorem append (h : SameConnections cs cs') (hc : SameConnection c c') :
    SameConnections (cs ++ [c]) (cs' ++ [c']) := by
  refine ⟨by rw [List.length_append, List.length_append, h.length_eq]; rfl, ?_⟩
  intro i d d' hd hd'
  rw [List.getElem?_append] at hd hd'
  rw [← h.length_eq] at hd'
  split_ifs at hd hd' with hlt
  · exact h.conn i d d' hd hd'
  · rw [List.getElem?_singleton] at hd hd'
    split_ifs at hd hd'
    · rw [← Option.some.inj hd, ← Option.some.inj hd']
      exact hc

theorem stopAll (h : SameConnections cs cs') (registered : Finset ℕ) :
    SameConnections (cs.mapIdx fun i c => if i ∈ registered then c.stop else c)
      (cs'.mapIdx fun i c => if i ∈ registered then c.stop else c) := by
  refine h.map (f := fun i c => if i ∈ registered then c.stop else c)
    (g := fun i c => if i ∈ registered then c.stop else c) ?_ ?_ ?_ ?_
  · rw [List.length_mapIdx, List.length_mapIdx, h.length_eq]
  · intro j
    exact List.getElem?_mapIdx
  · intro j
    exact List.getElem?_mapIdx
  · intro j d d' hd
    split_ifs
    · exact hd.stop
    · exact hd

end SameConnections

/-- Both await the same operation. -/
theorem SameConnection.awaits {c c' : HttpClientConnection} (h : SameConnection c c') (k : ℕ) :
    c'.awaitsRead k = c.awaitsRead k ∧ c'.awaitsWrite k = c.awaitsWrite k := by
  rw [HttpClientConnection.awaitsRead, HttpClientConnection.awaitsWrite, ← h.pending_eq]
  exact ⟨rfl, rfl⟩

/-- Both accept, whatever the new connections hold. -/
theorem same_acceptDone {s t s' : HttpServerTransport} {ec : ErrorCode} {u : Uninitialised}
    (h : SameServer s t) (u' : Uninitialised) (hstep : s.step (.acceptDone ec u) = some s') :
    ∃ t', t.step (.acceptDone ec u') = some t' ∧ SameServer s' t' := by
  obtain ⟨cs, rfl, hcs⟩ := h
  obtain ⟨hpending, rfl⟩ := HttpServerTransport.step_acceptDone hstep
  refine ⟨_, if_pos hpending, ?_⟩
  unfold HttpServerTransport.onAccept
  dsimp only
  split_ifs with hclosed hec
  · exact ⟨cs, rfl, hcs⟩
  · refine ⟨cs ++ [(HttpClientConnection.new u').start], ?_, hcs.append (.start u u')⟩
    rw [HttpServerTransport.managerStart, HttpServerTransport.managerStart, hcs.length_eq]
    rfl
  · exact ⟨cs, rfl, hcs⟩

/-- **Step lemma.**  The same event leads on with servers that are the same. -/
theorem same_step {s t s' : HttpServerTransport} {e e' : Event} (h : SameServer s t)
    (he : SameEvent e' e) (hstep : s.step e = some s') :
    ∃ t', t.step e' = some t' ∧ SameServer s' t' := by
  cases he with
  | accept ec u' u => exact same_acceptDone h u' hstep
  | same e =>
    cases e with
    | acceptDone ec u => exact same_acceptDone h u hstep
    | readDone i k ec r env =>
      obtain ⟨cs, rfl, hcs⟩ := h
      obtain ⟨c, hc, hk, rfl⟩ := HttpServerTransport.step_readDone hstep
      obtain ⟨c', hc', hsame⟩ := hcs.exists_of_getElem? hc
      have hk' : c'.awaitsRead k = true := by rw [(hsame.awaits k).1, hk]
      have hdone := hsame.complete k
      refine ⟨HttpServerTransport.onRead { s with connections := cs } i (c'.complete k) ec r env,
        ?_, ?_⟩
      · simp only [HttpServerTransport.step, hc']
        exact if_pos hk'
      · cases ec with
        | success =>
          obtain ⟨hread, hhandler⟩ := hdone.onReadSuccess env s.reqHandler_ r
          refine ⟨cs.set i ((c'.complete k).onReadSuccess env s.reqHandler_ r).1, ?_,
            hcs.set hread i⟩
          unfold HttpServerTransport.onRead
          dsimp only
          rw [hhandler]
          rfl
        | operationAborted => exact ⟨cs.set i (c'.complete k), rfl, hcs.set hdone i⟩
        | other => exact ⟨_, rfl, (hcs.set hdone i).modify_stop i⟩
    | writeDone i k ec =>
      obtain ⟨cs, rfl, hcs⟩ := h
      obtain ⟨c, hc, hk, rfl⟩ := HttpServerTransport.step_writeDone hstep
      obtain ⟨c', hc', hsame⟩ := hcs.exists_of_getElem? hc
      have hk' : c'.awaitsWrite k = true := by rw [(hsame.awaits k).2, hk]
      have hdone := hsame.complete k
      refine ⟨HttpServerTransport.onWrite { s with connections := cs } i (c'.complete k) ec,
        ?_, ?_⟩
      · simp only [HttpServerTransport.step, hc']
        exact if_pos hk'
      · cases ec with
        | success => exact ⟨_, rfl, (hcs.set hdone.shutdown i).modify_stop i⟩
        | operationAborted => exact ⟨_, rfl, hcs.set hdone i⟩
        | other => exact ⟨_, rfl, (hcs.set hdone i).modify_stop i⟩
    | stopAll =>
      obtain ⟨cs, rfl, hcs⟩ := h
      cases hstep
      exact ⟨_, rfl, _, rfl, hcs.stopAll s.clientConnections_⟩
    | signal =>
      obtain ⟨cs, rfl, hcs⟩ := h
      obtain ⟨hwait, rfl⟩ := HttpServerTransport.step_signal hstep
      refine ⟨_, if_pos hwait, ?_⟩
      rw [HttpServerTransport.stop_eq, HttpServerTransport.stop_eq]
      exact ⟨_, rfl, hcs.stopAll s.clientConnections_⟩
    | addStat stat =>
      obtain ⟨cs, rfl, hcs⟩ := h
      cases hstep
      exact ⟨_, rfl, cs, rfl, hcs⟩

/-- **No uninitialised memory is seen.**  Replace, in any run of the server, what each new
connection holds by anything else: the same events can be taken, and lead to a server that
is the same in all that the outside sees.  The sockets, the outstanding operations with
the buffers they write, what has been done and in which order, every reply that has been
set, the set of the manager and the queue of stats agree. -/
theorem uninitialised_unseen (docRoot : Bytes) (es es' : List Event) (s : HttpServerTransport)
    (hrun : Runs HttpServerTransport.step anyStep (.initial docRoot) es s)
    (hsame : List.Forall₂ SameEvent es' es) :
    ∃ s', Runs HttpServerTransport.step anyStep (.initial docRoot) es' s'
      ∧ SameServer s s' := by
  have hinit : SameServer (.initial docRoot) (.initial docRoot) := by
    refine ⟨[], rfl, rfl, ?_⟩
    intro i c c' hc
    cases hc
  refine hrun.simulate ?_ hinit hsame
  intro s t e e' s' h he _ hstep
  obtain ⟨t', ht, hrel⟩ := same_step h he hstep
  exact ⟨t', trivial, ht, hrel⟩

/-- The run `fetchChart` with other values in the new connection. -/
def fetchChartOther : List Event :=
  .acceptDone .success ⟨⟨List.replicate bufferSize 7, List.length_replicate⟩, 5, 6, .created⟩
    :: fetchChart.tail

/-- It is a run as well, and the script is being written. -/
theorem uninitialised_unseen_chart :
    ((run HttpServerTransport.step anyStep (.initial (str "/www")) fetchChartOther).any fun s' =>
      s'.connections[0]?.any fun c => c.awaitsWrite 0) = true := by
  have hsame : List.Forall₂ SameEvent fetchChartOther fetchChart :=
    .cons (.accept _ _ _) (.cons (.same _) (.cons (.same _) .nil))
  obtain ⟨s', hrun', cs, hs', hcs⟩ := uninitialised_unseen (str "/www") fetchChart _ _
    (runs_get fetchChart_runs) hsame
  obtain ⟨c', hc', hrel⟩ := hcs.exists_of_getElem? (Option.some_get fetchChart_connects).symm
  have hwrite : chartConnection.awaitsWrite 0 = true := by decide +kernel
  rw [run_of_runs hrun', Option.any_some]
  refine (Option.any_eq_true _ _).mpr ⟨c', ?_, ?_⟩
  · rw [hs']
    exact hc'
  · rw [(hrel.awaits 0).2]
    exact hwrite

end Unichannel
