/-
# What a client gets for what it sends

The bytes a connection has received in a run of the server are those of its successful
reads, in their order.  `exchange` says what the connection does with them, whatever else
the server does in between: as long as they do not decide a request it reads on, and with
the read that decides it starts its one answer, which is that of `handle_request` to the
request they spell, or the stock reply to a bad request.

* `file_fetched`: a client that sends a request for a file is written the file;
* `replies_agree`: what else happens in the server does not show in the answer, unless
  the request asks for the dashboard's data.
-/
import Unichannel.FreshRequest
import Unichannel.ReplyFraming
import Unichannel.ServedFiles
import Unichannel.ReadLoop
import Unichannel.RequestRoundTrip

namespace Unichannel

open GuardedSystem Scanner

/-! ## The bytes of a connection -/

/-- What a connection receives by an event. -/
def Event.received (i : ℕ) : Event → Option ReadBytes
  | .readDone j _ .success r _ => if j = i then some r else none
  | _ => none

/-- The reads of connection `i` in a run. -/
def received (i : ℕ) (es : List Event) : List ReadBytes := es.filterMap (Event.received i)

/-- The answer to a parsed stream, if it is decided. -/
def answerTo (env : Env) (h : HttpReqHandler) (p : Parsed) : Option HttpReply :=
  match p.result with
  | .good => some (handleRequest env h p.req ⟨.ok, [], []⟩).rep
  | .bad => some (HttpReply.stockReply .badRequest)
  | .indeterminate => none

/-- A stream as a new connection parses it. -/
def parseStream (reads : List ReadBytes) : Parsed :=
  parse .methodStart (.fresh 0 0) (stream reads)

theorem received_append (i : ℕ) (es es' : List Event) :
    received i (es ++ es') = received i es ++ received i es' :=
  List.filterMap_append

/-- What one more event brings. -/
theorem received_concat (i : ℕ) (es : List Event) (e : Event) :
    received i (es ++ [e]) = received i es ++ (e.received i).toList := by
  have hlast : received i [e] = (e.received i).toList := by
    rw [received, List.filterMap_cons]
    cases e.received i <;> rfl
  rw [received_append, hlast]

theorem received_concat_of_none {i : ℕ} {e : Event} (he : e.received i = none)
    (es : List Event) : received i (es ++ [e]) = received i es := by
  rw [received_concat, he]
  exact List.append_nil _

theorem stream_append (reads reads' : List ReadBytes) :
    stream (reads ++ reads') = stream reads ++ stream reads' := by
  rw [stream, stream, stream, List.map_append, List.flatten_append]

/-! ## The exchange -/

/-- What `c` has done since it was `c₁`: a read decided, `reply_` was set and its write was
started, on the socket as it was for `c₁`; nothing but the shutdown follows. -/
def AnswersFrom (c₁ c : HttpClientConnection) : Prop :=
  Reading c₁.history ∧ ∃ r post, r ≠ .indeterminate
    ∧ c.history = c₁.history ++ [.parsed r, .replySet, .writeStarted c₁.socketOpen] ++ post
    ∧ ∀ a ∈ post, a = .shutdown

/-- Then it has given its one answer. -/
theorem AnswersFrom.answering {c₁ c : HttpClientConnection} (h : AnswersFrom c₁ c) :
    Answering c.history := by
  obtain ⟨hreading, r, post, hr, hhistory, hpost⟩ := h
  refine ⟨c₁.history, r, c₁.socketOpen, post, ?_, hreading, hr, hpost⟩
  rw [hhistory]
  simp

theorem AnswersFrom.append_shutdown {c₁ c c' : HttpClientConnection} (h : AnswersFrom c₁ c)
    (hhistory' : c'.history = c.history ++ [.shutdown]) : AnswersFrom c₁ c' := by
  obtain ⟨hreading, r, post, hr, hhistory, hpost⟩ := h
  refine ⟨hreading, r, post ++ [.shutdown], hr, ?_, forall_mem_concat hpost rfl⟩
  rw [hhistory', hhistory, List.append_assoc]

/-- Where a connection is with the bytes it has received in the run `es`. -/
inductive Exchange (docRoot : Bytes) (i : ℕ) (es : List Event) (c : HttpClientConnection) : Prop
  /-- The parser has not decided, and the reply is as it was made. -/
  | undecided (maj min : ℤ) (hhistory : Reading c.history)
      (hfeeds : parserScanner.Feeds (.methodStart, .fresh maj min) (stream (received i es))
        (c.reqParser_, c.req_))
      (hheaders : c.reply_.headers_ = []) (hcontent : c.reply_.content_ = [])
  /-- A read has decided, and what the state before it makes of the stream is the reply. -/
  | decided (es₁ es₂ : List Event) (k : ℕ) (r : ReadBytes) (env : Env) (s₁ : HttpServerTransport)
      (c₁ : HttpClientConnection) (hhistory : AnswersFrom c₁ c)
      (hes : es = es₁ ++ .readDone i k .success r env :: es₂)
      (hrun : Runs HttpServerTransport.step anyStep (.initial docRoot) es₁ s₁)
      (hc₁ : s₁.connections[i]? = some c₁)
      (hbefore : (parseStream (received i es₁)).result = .indeterminate)
      (hafter : received i es₂ = [])
      (hreply : answerTo env s₁.reqHandler_ (parseStream (received i es)) = some c.reply_)

/-- The answer of `handle_request` does not depend on the status of an empty reply. -/
theorem handleRequest_rep_eq {rep rep' : HttpReply} (hheaders : rep.headers_ = rep'.headers_)
    (hcontent : rep.content_ = rep'.content_) (env : Env) (h : HttpReqHandler)
    (req : HttpRequest) :
    handleRequest env h req rep = handleRequest env h req rep' := by
  have hset : ∀ text extension,
      setHeaders { rep with status_ := .ok, content_ := text } extension
        = setHeaders { rep' with status_ := .ok, content_ := text } extension := by
    intro text extension
    unfold setHeaders
    dsimp only
    rw [hheaders]
  rw [handleRequest_eq, handleRequest_eq]
  cases route req.uri_ with
  | reject => rfl
  | page => dsimp only; rw [hset]
  | giveMeValues => dsimp only; rw [hset]
  | updateValues => dsimp only; rw [hset]
  | file request_path =>
    dsimp only
    cases env.openFile (cStr (h.doc_root_ ++ request_path)) with
    | none => rfl
    | some file => dsimp only; rw [hset, hcontent]

/-- A connection that reads has not answered. -/
theorem Reading.not_answering {history : List Act} (h : Reading history) : ¬ Answering history := by
  rintro ⟨pre, r, b, post, rfl, -, -, -⟩
  exact h.not_write b (List.mem_append_right _ List.mem_cons_self)

namespace Exchange

variable {docRoot : Bytes} {i : ℕ} {es : List Event} {e : Event} {c c' : HttpClientConnection}

/-- An event that brings no bytes and leaves the connection's exchange as it is. -/
theorem keep (h : Exchange docRoot i es c) (he : e.received i = none)
    (hhistory : c'.history = c.history) (hparser : c'.reqParser_ = c.reqParser_)
    (hreq : c'.req_ = c.req_) (hreply : c'.reply_ = c.reply_) :
    Exchange docRoot i (es ++ [e]) c' := by
  cases h with
  | undecided maj min hread hfeeds hheaders hcontent =>
    refine undecided maj min (hhistory ▸ hread) ?_ (hreply ▸ hheaders) (hreply ▸ hcontent)
    rw [received_concat_of_none he, hparser, hreq]
    exact hfeeds
  | decided es₁ es₂ k r env s₁ c₁ hanswer hes hrun hc₁ hbefore hafter hrep =>
    have hanswer' : AnswersFrom c₁ c' := by
      unfold AnswersFrom
      rw [hhistory]
      exact hanswer
    refine decided es₁ (es₂ ++ [e]) k r env s₁ c₁ hanswer' ?_ hrun hc₁ hbefore ?_ ?_
    · rw [hes, List.append_assoc, List.cons_append]
    · rw [received_concat_of_none he, hafter]
    · rw [received_concat_of_none he, hreply, hrep]

/-- The shutdown of the socket after the answer. -/
theorem shutdown (h : Exchange docRoot i es c) (he : e.received i = none)
    (hanswer : Answering c.history) (k : ℕ) :
    Exchange docRoot i (es ++ [e]) (c.complete k).shutdown.stop := by
  cases h with
  | undecided maj min hread _ _ _ => exact absurd hanswer hread.not_answering
  | decided es₁ es₂ j r env s₁ c₁ hanswer hes hrun hc₁ hbefore hafter hrep =>
    refine decided es₁ (es₂ ++ [e]) j r env s₁ c₁ (hanswer.append_shutdown rfl) ?_ hrun hc₁
      hbefore ?_ ?_
    · rw [hes, List.append_assoc, List.cons_append]
    · rw [received_concat_of_none he, hafter]
    · rw [received_concat_of_none he]
      exact hrep

end Exchange

/-- What the parser makes of a stream does not depend on what the new connection held. -/
theorem parseStream_result_of_feeds {maj min : ℤ} {reads : List ReadBytes}
    {p : State × HttpRequest}
    (h : parserScanner.Feeds (.methodStart, .fresh maj min) (stream reads) p) :
    (parseStream reads).result = .indeterminate := by
  rw [parseStream, (parse_fresh 0 0 maj min (stream reads)).1, parse_result_eq_indeterminate_iff, h]

/-- A further read continues the stream. -/
theorem parseStream_of_feeds {maj min : ℤ} {reads : List ReadBytes} {c : HttpClientConnection}
    (h : parserScanner.Feeds (.methodStart, .fresh maj min) (stream reads)
      (c.reqParser_, c.req_)) (r : ReadBytes) :
    (parseStream (reads ++ [r])).result = (c.receive r).result
      ∧ ((c.receive r).result = .good → (parseStream (reads ++ [r])).req = (c.receive r).conn.req_)
      ∧ ((c.receive r).result = .indeterminate →
        parserScanner.Feeds (.methodStart, .fresh maj min) (stream (reads ++ [r]))
          ((c.receive r).conn.reqParser_, (c.receive r).conn.req_)) := by
  obtain ⟨hresult, -, hstate⟩ := receive_eq_scan c r
  obtain ⟨hsame, -, hreq⟩ := parse_fresh 0 0 maj min (stream (reads ++ [r]))
  have hstream : stream (reads ++ [r]) = stream reads ++ r.bytes := by
    rw [stream_append]
    simp [stream]
  -- the read is scanned from where the stream before it has led
  have hscan : parserScanner.scan (.methodStart, .fresh maj min) (stream (reads ++ [r]))
      = (parserScanner.scan (c.reqParser_, c.req_) r.bytes).shift (stream reads).length := by
    rw [hstream]
    exact h.scan_append r.bytes
  have hparsed : (parse .methodStart (.fresh maj min) (stream (reads ++ [r]))).result
      = (c.receive r).result := by
    rw [parse_eq_scan, hscan, hresult]
    rfl
  refine ⟨hsame.trans hparsed, ?_, ?_⟩
  · intro hgood
    rw [parseStream, hreq (hsame.trans (hparsed.trans hgood)), parse_eq_scan, hscan]
    exact congrArg Prod.snd hstate.symm
  · intro hind
    rw [hresult, getD_eq_indeterminate_iff] at hind
    have hfeeds : parserScanner.Feeds (c.reqParser_, c.req_) r.bytes
        ((c.receive r).conn.reqParser_, (c.receive r).conn.req_) :=
      Outcome.ext hstate.symm hind (parserScanner.consumed_eq_length_of_none hind)
    rw [hstream]
    exact h.append hfeeds

/-- The exchange of a connection that was just accepted. -/
theorem exchange_started {docRoot : Bytes} {i : ℕ} {es : List Event} (hnone : received i es = [])
    (u : Uninitialised) : Exchange docRoot i es (HttpClientConnection.new u).start := by
  refine .undecided u.httpMajorVer_ u.httpMinorVer_ ?_ ?_ rfl rfl
  · intro a ha
    exact Or.inl ⟨true, List.mem_singleton.mp ha⟩
  · rw [hnone]
    exact Feeds.nil _

/-- A successful read goes on with the exchange. -/
theorem exchange_read {docRoot : Bytes} {i k : ℕ} {es : List Event} {s : HttpServerTransport}
    {c : HttpClientConnection}
    (hrun : Runs HttpServerTransport.step anyStep (.initial docRoot) es s)
    (hc : s.connections[i]? = some c) (h : Exchange docRoot i es c) (hreading : Reading c.history)
    (r : ReadBytes) (env : Env) :
    Exchange docRoot i (es ++ [.readDone i k .success r env])
      ((c.complete k).onReadSuccess env s.reqHandler_ r).1 := by
  cases h with
  | decided _ _ _ _ _ _ _ hanswer _ _ _ _ _ _ =>
    exact absurd hanswer.answering hreading.not_answering
  | undecided maj min _ hfeeds hheaders hcontent =>
    have hreceived : received i (es ++ [.readDone i k .success r env]) = received i es ++ [r] := by
      rw [received_concat, Event.received, if_pos rfl]
      rfl
    obtain ⟨hresult, hgood, hind⟩ := parseStream_of_feeds (c := c.complete k) hfeeds r
    have hhistory : ((c.complete k).receive r).conn.history
        = c.history ++ [.parsed ((c.complete k).receive r).result] := rfl
    unfold HttpClientConnection.onReadSuccess
    dsimp only
    -- a decision is an answer with this read as the deciding one
    have hdecided : ∀ rep, ((c.complete k).receive r).result ≠ .indeterminate →
        answerTo env s.reqHandler_ (parseStream (received i es ++ [r])) = some rep →
        Exchange docRoot i (es ++ [.readDone i k .success r env])
          ((((c.complete k).receive r).conn.setReply rep).doWrite) := by
      intro rep hne hanswer
      refine .decided es [] k r env s c ?_ rfl hrun hc (parseStream_result_of_feeds hfeeds) rfl ?_
      · refine ⟨hreading, ((c.complete k).receive r).result, [], hne, ?_,
          fun a ha => absurd ha List.not_mem_nil⟩
        simp [HttpClientConnection.doWrite, HttpClientConnection.setReply, hhistory]
        rfl
      · rw [hreceived]
        exact hanswer
    cases hr : ((c.complete k).receive r).result with
    | good =>
      refine hdecided _ (by rw [hr]; decide) ?_
      rw [answerTo, hresult, hr]
      dsimp only
      have hrep : handleRequest env s.reqHandler_ ((c.complete k).receive r).conn.req_ ⟨.ok, [], []⟩
          = handleRequest env s.reqHandler_ ((c.complete k).receive r).conn.req_
            ((c.complete k).receive r).conn.reply_ :=
        handleRequest_rep_eq hheaders.symm hcontent.symm _ _ _
      rw [hgood hr, hrep]
    | bad =>
      refine hdecided _ (by rw [hr]; decide) ?_
      rw [answerTo, hresult, hr]
    | indeterminate =>
      refine .undecided maj min ?_ ?_ hheaders hcontent
      · have hread := (hreading.append_singleton (Or.inr rfl)).append_singleton
          (Or.inl ⟨c.socketOpen, rfl⟩)
        rw [← hr] at hread
        exact hread
      · rw [hreceived]
        exact hind hr

/-- An event in which the connection succeeds in no read brings it no bytes. -/
theorem received_eq_none {e : Event} {i : ℕ} {h : HttpReqHandler} {b : Option SessionEvent}
    (hb : e.forSession i h = b) (he : ∀ k r env, b ≠ some (.readDone k .success r env h)) :
    e.received i = none := by
  subst hb
  cases e with
  | readDone j k ec r env =>
    cases ec with
    | success =>
      by_cases hij : j = i
      · exact absurd (if_pos hij) (he k r env)
      · exact if_neg hij
    | operationAborted => rfl
    | other => rfl
  | _ => rfl

/-- **Step lemma.**  An event of the connection goes on with its exchange. -/
theorem exchange_step {docRoot : Bytes} {i : ℕ} {es : List Event} {e : Event}
    {s : HttpServerTransport} {v v' : Session} {b : SessionEvent}
    (hrun : Runs HttpServerTransport.step anyStep (.initial docRoot) es s)
    (hv : s.view i = some v) (h : Exchange docRoot i es v.conn)
    (hb : e.forSession i s.reqHandler_ = some b) (hstep : v.step b = some v') :
    Exchange docRoot i (es ++ [e]) v'.conn := by
  have hphase : Phase v.conn := phase_run hrun hv
  cases b with
  | readDone k ec r env hd =>
    obtain ⟨hk, rfl⟩ := Session.step_readDone hstep
    -- only a completed read shows as one
    obtain ⟨rfl, rfl⟩ : e = .readDone i k ec r env ∧ hd = s.reqHandler_ := by
      cases e with
      | readDone j l ec' r' env' =>
        simp only [Event.forSession] at hb
        split_ifs at hb with hij
        cases hb
        rw [hij]
        exact ⟨rfl, rfl⟩
      | writeDone j l ec' =>
        simp only [Event.forSession] at hb
        split_ifs at hb
        cases hb
      | _ => cases hb
    cases ec with
    | success =>
      exact exchange_read hrun (HttpServerTransport.connection_of_view hv).1 h
        (hphase.of_awaitsRead hk).2.2 r env
    | operationAborted => exact h.keep rfl rfl rfl rfl rfl
    | other => exact h.keep rfl rfl rfl rfl rfl
  | writeDone k ec =>
    obtain ⟨hk, rfl⟩ := Session.step_writeDone hstep
    have he : e.received i = none := by
      refine received_eq_none hb fun k' r env heq => ?_
      cases heq
    cases ec with
    | success => exact h.shutdown he (hphase.of_awaitsWrite hk).2.2 k
    | operationAborted => exact h.keep he rfl rfl rfl rfl
    | other => exact h.keep he rfl rfl rfl rfl
  | stopAll =>
    cases hstep
    have he : e.received i = none := by
      refine received_eq_none hb fun k' r env heq => ?_
      cases heq
    rcases v.stopAll_cases with heq | ⟨-, heq⟩
    · rw [heq]
      exact h.keep he rfl rfl rfl rfl
    · rw [heq]
      exact h.keep he rfl rfl rfl rfl

/-- In every run of the server every connection is somewhere in its exchange, and
positions without a connection receive nothing. -/
theorem exchange_run {docRoot : Bytes} {es : List Event} {s : HttpServerTransport}
    (hrun : Runs HttpServerTransport.step anyStep (.initial docRoot) es s) (i : ℕ) :
    (∀ v, s.view i = some v → Exchange docRoot i es v.conn)
      ∧ (s.view i = none → received i es = []) := by
  refine hrun.trace (R := fun es s => (∀ v, s.view i = some v → Exchange docRoot i es v.conn)
    ∧ (s.view i = none → received i es = [])) ?_ ?_
  · refine ⟨fun v hv => ?_, fun _ => rfl⟩
    simp [HttpServerTransport.view, HttpServerTransport.initial, HttpServerTransport.doAccept]
      at hv
  rintro es s e s' hrun ⟨hsome, hnone⟩ - hstep
  cases hv : s.view i with
  | some v =>
    obtain ⟨v', hv', hcases⟩ := HttpServerTransport.view_step hstep hv
    have hnext : Exchange docRoot i (es ++ [e]) v'.conn := by
      rcases hcases with ⟨hb, rfl⟩ | ⟨b, hb, hvb⟩
      · refine (hsome v' hv).keep ?_ rfl rfl rfl rfl
        refine received_eq_none hb fun k r env heq => ?_
        cases heq
      · exact exchange_step hrun hv (hsome v hv) hb hvb
    refine ⟨fun v'' hv'' => ?_, fun hnone' => ?_⟩
    · obtain rfl : v' = v'' := Option.some.inj (hv'.symm.trans hv'')
      exact hnext
    · rw [hv'] at hnone'
      cases hnone'
  | none =>
    -- no operation of the connection is outstanding, so the event brings it nothing
    have he : e.received i = none := by
      cases e with
      | readDone j k ec r env =>
        obtain ⟨c, hc, -, -⟩ := HttpServerTransport.step_readDone hstep
        have hij : j ≠ i := by
          rintro rfl
          rw [HttpServerTransport.view_of_connection hc] at hv
          cases hv
        cases ec with
        | success => exact if_neg hij
        | operationAborted => rfl
        | other => rfl
      | _ => rfl
    have hempty : received i (es ++ [e]) = [] := by
      rw [received_concat_of_none he, hnone hv]
    refine ⟨fun v' hv' => ?_, fun _ => hempty⟩
    rcases HttpServerTransport.step_view hstep hv' with ⟨-, u, rfl⟩ | ⟨v, hv'', -⟩
    · exact exchange_started hempty u
    · rw [hv] at hv''
      cases hv''

/-- **The exchange of a connection.**  In every state of every run of the server, what a
connection has done is decided by the bytes it has received.  As long as these decide no
request it has only read.  Otherwise one of its reads was the first with which they did,
it received nothing afterwards, and it started its one answer: the reply of
`handle_request`, as the server then was, to the request that the bytes spell, or the
stock reply to a bad request.  The buffers of a write still outstanding are those of
this reply. -/
theorem exchange (docRoot : Bytes) (es : List Event) (s : HttpServerTransport)
    (hrun : Runs HttpServerTransport.step anyStep (.initial docRoot) es s) (i : ℕ)
    (c : HttpClientConnection) (hc : s.connections[i]? = some c) :
    ((parseStream (received i es)).result = .indeterminate ∧ Reading c.history)
      ∨ Answering c.history
        ∧ (∃ es₁ k r env es₂ s₁, es = es₁ ++ .readDone i k .success r env :: es₂
          ∧ Runs HttpServerTransport.step anyStep (.initial docRoot) es₁ s₁
          ∧ (parseStream (received i es₁)).result = .indeterminate
          ∧ received i es₂ = []
          ∧ answerTo env s₁.reqHandler_ (parseStream (received i es)) = some c.reply_)
        ∧ ∀ op ∈ c.pending, ∀ buffers, op.kind = .write buffers →
          buffers.flatten = c.reply_.wire := by
  have hv := HttpServerTransport.view_of_connection hc
  cases (exchange_run hrun i).1 _ hv with
  | undecided maj min hhistory hfeeds hheaders hcontent =>
    exact Or.inl ⟨parseStream_result_of_feeds hfeeds, hhistory⟩
  | decided es₁ es₂ k r env s₁ c₁ hhistory hes hrun₁ _ hbefore hafter hreply =>
    refine Or.inr ⟨hhistory.answering,
      ⟨es₁, k, r, env, es₂, s₁, hes, hrun₁, hbefore, hafter, hreply⟩, ?_⟩
    intro op hop buffers hkind
    rw [(phase_run hrun hv).buffers hop hkind]
    rfl

/-- The client of `serveOne` is answered. -/
theorem exchange_serveOne :
    servedConnection.awaitsWrite 0 = true ∧ Answering servedConnection.history := by
  refine ⟨by decide +kernel, ?_⟩
  rcases exchange [] serveOne _ (runs_get serveOne_runs) 0 servedConnection
    (Option.some_get serveOne_connects).symm with ⟨hind, -⟩ | ⟨hanswer, -⟩
  · exact absurd hind (by decide +kernel)
  · exact hanswer

/-! ## What is sent -/

/-- Once a connection has answered, no event changes its reply. -/
theorem answered_step {v v' : Session} {b : SessionEvent} (h : Phase v.conn)
    (hanswer : Answering v.conn.history) (hstep : v.step b = some v') :
    Answering v'.conn.history ∧ v'.conn.reply_ = v.conn.reply_ := by
  cases b with
  | readDone k ec r env hd =>
    obtain ⟨hk, -⟩ := Session.step_readDone hstep
    exact absurd hanswer (h.of_awaitsRead hk).2.2.not_answering
  | writeDone k ec =>
    obtain ⟨-, rfl⟩ := Session.step_writeDone hstep
    cases ec with
    | success => exact ⟨hanswer.append_shutdown, rfl⟩
    | operationAborted => exact ⟨hanswer, rfl⟩
    | other => exact ⟨hanswer, rfl⟩
  | stopAll =>
    cases hstep
    rcases v.stopAll_cases with heq | ⟨-, heq⟩ <;> rw [heq] <;> exact ⟨hanswer, rfl⟩

/-- What a write that succeeds has sent, and over which connection. -/
def HttpServerTransport.written (s : HttpServerTransport) : Event → Option (ℕ × Bytes)
  | .writeDone i k .success =>
    match s.connections[i]? with
    | some c =>
      match c.pending[k]? with
      | some ⟨.write buffers, _⟩ => some (i, buffers.flatten)
      | _ => none
    | none => none
  | _ => none

/-- What the writes that succeeded in the run `es` have sent over connection `i`. -/
def sentOver (docRoot : Bytes) (i : ℕ) (es : List Event) : List Bytes :=
  (shown HttpServerTransport.step HttpServerTransport.written (.initial docRoot) es).filterMap
    fun m => if m.1 = i then some m.2 else none

namespace HttpServerTransport

variable {docRoot : Bytes} {s s' : HttpServerTransport} {e : Event} {ss : List Event} {i : ℕ}
  {c : HttpClientConnection}

/-- What the loop does to a connection that has answered. -/
theorem connection_step {i : ℕ} {c : HttpClientConnection} (hc : s.connections[i]? = some c)
    (h : Phase c) (hanswer : Answering c.history) (hstep : s.step e = some s') :
    ∃ c', s'.connections[i]? = some c' ∧ Answering c'.history ∧ c'.reply_ = c.reply_ := by
  obtain ⟨v', hv', ⟨-, rfl⟩ | ⟨b, -, hvb⟩⟩ := view_step hstep (view_of_connection hc)
  · exact ⟨c, (connection_of_view hv').1, hanswer, rfl⟩
  · exact ⟨v'.conn, (connection_of_view hv').1, answered_step h hanswer hvb⟩

/-- What is sent are the buffers of a write that succeeds. -/
theorem written_eq_some {m : ℕ × Bytes} (hm : s.written e = some m) :
    ∃ k c b buffers, e = .writeDone m.1 k .success ∧ s.connections[m.1]? = some c
      ∧ c.pending[k]? = some ⟨.write buffers, b⟩ ∧ m.2 = buffers.flatten := by
  unfold written at hm
  split at hm
  · rename_i i k
    split at hm
    · rename_i c hc
      split at hm
      · rename_i buffers b hop
        cases hm
        exact ⟨k, c, b, buffers, rfl, hc, hop, rfl⟩
      · cases hm
    · cases hm
  · cases hm

/-- A write sends the reply of its connection. -/
theorem written_reply (hrun : Runs step anyStep (initial docRoot) ss s) {m : ℕ × Bytes}
    (hm : s.written e = some m) (hstep : s.step e = some s') :
    ∃ c, s.connections[m.1]? = some c ∧ Answering c.history ∧ m.2 = c.reply_.wire := by
  obtain ⟨k, c, b, buffers, rfl, hc, hop, hbytes⟩ := written_eq_some hm
  have hphase := phase_run hrun (view_of_connection hc)
  obtain ⟨c', hc', hk, -⟩ := step_writeDone hstep
  obtain rfl : c = c' := Option.some.inj (hc.symm.trans hc')
  refine ⟨c, hc, (hphase.of_awaitsWrite hk).2.2, ?_⟩
  rw [hbytes, hphase.buffers (List.mem_of_getElem? hop) rfl]
  rfl

/-- An event sends nothing over a connection, or completes its write. -/
theorem sentOver_concat (hrun : Runs step anyStep (initial docRoot) ss s)
    (hstep : s.step e = some s') (i : ℕ) :
    sentOver docRoot i (ss ++ [e]) = sentOver docRoot i ss
      ∨ ∃ c c', s.connections[i]? = some c ∧ s'.connections[i]? = some c' ∧ c.pending ≠ []
        ∧ c'.pending = [] ∧ Answering c'.history
        ∧ sentOver docRoot i (ss ++ [e]) = sentOver docRoot i ss ++ [c'.reply_.wire] := by
  unfold sentOver
  rw [hrun.shown_concat, List.filterMap_append]
  cases hm : s.written e with
  | none =>
    left
    rw [Option.toList_none, List.filterMap_nil, List.append_nil]
  | some m =>
    rw [Option.toList_some, List.filterMap_cons, List.filterMap_nil]
    split_ifs with hi
    · right
      subst hi
      obtain ⟨c, hc, hanswer, hbytes⟩ := written_reply hrun hm hstep
      have hphase := phase_run hrun (view_of_connection hc)
      obtain ⟨k, c₁, b, buffers, rfl, hc₁, hop, -⟩ := written_eq_some hm
      obtain rfl : c = c₁ := Option.some.inj (hc.symm.trans hc₁)
      obtain ⟨c₂, hc₂, hk, rfl⟩ := step_writeDone hstep
      obtain rfl : c = c₂ := Option.some.inj (hc.symm.trans hc₂)
      obtain ⟨rfl, ⟨op, hpending⟩, -⟩ := hphase.of_awaitsWrite hk
      have hview := view_onWrite_self (c := c.complete 0) (view_of_connection hc) .success
      refine ⟨c, _, hc, (connection_of_view hview).1, ?_, ?_, hanswer.append_shutdown, ?_⟩
      · rw [hpending]
        exact List.cons_ne_nil op []
      · exact Phase.complete_zero hpending
      · rw [hbytes]
        rfl
    · left
      exact List.append_nil _

/-- A connection with nothing outstanding stays so. -/
theorem pending_step (hc : s.connections[i]? = some c) (hpending : c.pending = [])
    (hstep : s.step e = some s') :
    ∃ c', s'.connections[i]? = some c' ∧ c'.pending = [] := by
  obtain ⟨v', hv', ⟨-, rfl⟩ | ⟨b, -, hvb⟩⟩ := view_step hstep (view_of_connection hc)
  · exact ⟨c, (connection_of_view hv').1, hpending⟩
  · refine ⟨v'.conn, (connection_of_view hv').1, ?_⟩
    cases b with
    | readDone k ec r env h =>
      obtain ⟨hk, -⟩ := Session.step_readDone hvb
      simp [HttpClientConnection.awaitsRead, hpending] at hk
    | writeDone k ec =>
      obtain ⟨hk, -⟩ := Session.step_writeDone hvb
      simp [HttpClientConnection.awaitsWrite, hpending] at hk
    | stopAll =>
      cases hvb
      rcases Session.stopAll_cases ⟨c, i ∈ s.clientConnections_⟩ with heq | ⟨-, heq⟩
      all_goals rw [heq]; exact hpending

/-- **Run lemma.**  What was sent over a connection, if anything, is the reply that it has
given, once. -/
theorem sentOver_run (hrun : Runs step anyStep (initial docRoot) ss s) (i : ℕ) :
    sentOver docRoot i ss = []
      ∨ ∃ c, s.connections[i]? = some c ∧ c.pending = [] ∧ Answering c.history
        ∧ sentOver docRoot i ss = [c.reply_.wire] := by
  refine hrun.trace (R := fun ss s => sentOver docRoot i ss = []
    ∨ ∃ c, s.connections[i]? = some c ∧ c.pending = [] ∧ Answering c.history
      ∧ sentOver docRoot i ss = [c.reply_.wire]) (Or.inl rfl) ?_
  intro ss s e s' hrun ih _ hstep
  rcases sentOver_concat hrun hstep i with
    hsame | ⟨c, c', hc, hc', hbusy, hpending', hanswer', hsent⟩
  · rw [hsame]
    rcases ih with hnone | ⟨c, hc, hpending, hanswer, hsent⟩
    · exact Or.inl hnone
    · obtain ⟨c', hc', hanswer', hreply⟩ :=
        connection_step hc (phase_run hrun (view_of_connection hc)) hanswer hstep
      obtain ⟨c'', hc'', hpending'⟩ := pending_step hc hpending hstep
      obtain rfl : c' = c'' := Option.some.inj (hc'.symm.trans hc'')
      exact Or.inr ⟨c', hc', hpending', hanswer', by rw [hsent, hreply]⟩
  · -- the write was outstanding, so nothing was sent before
    rcases ih with hnone | ⟨c₁, hc₁, hpending, -, -⟩
    · exact Or.inr ⟨c', hc', hpending', hanswer', by rw [hsent, hnone]; rfl⟩
    · obtain rfl : c = c₁ := Option.some.inj (hc.symm.trans hc₁)
      exact absurd hpending hbusy

end HttpServerTransport

/-! ## The directory served -/

/-- `handle_request` does not change the directory served. -/
theorem handleRequest_doc_root (env : Env) (h : HttpReqHandler) (req : HttpRequest)
    (rep : HttpReply) :
    HttpReqHandler.doc_root_ (handleRequest env h req rep).handler = h.doc_root_ := by
  have hpoint : HttpReqHandler.doc_root_ h.getLatestPoint.2 = h.doc_root_ := by
    unfold HttpReqHandler.getLatestPoint
    cases h.statQ_ <;> rfl
  rw [handleRequest_eq]
  cases route req.uri_ with
  | updateValues => exact hpoint
  | file request_path =>
    dsimp only
    cases env.openFile (cStr (h.doc_root_ ++ request_path)) <;> rfl
  | _ => rfl

/-- **Step lemma.**  No event changes the directory served. -/
theorem doc_root_step {s s' : HttpServerTransport} {e : Event} (hstep : s.step e = some s') :
    s'.reqHandler_.doc_root_ = s.reqHandler_.doc_root_ := by
  cases e with
  | acceptDone ec u =>
    obtain ⟨-, rfl⟩ := HttpServerTransport.step_acceptDone hstep
    unfold HttpServerTransport.onAccept
    split_ifs <;> rfl
  | readDone i k ec r env =>
    obtain ⟨c, -, -, rfl⟩ := HttpServerTransport.step_readDone hstep
    cases ec with
    | success =>
      show HttpReqHandler.doc_root_ ((c.complete k).onReadSuccess env s.reqHandler_ r).2 = _
      unfold HttpClientConnection.onReadSuccess
      dsimp only
      split
      · exact handleRequest_doc_root env s.reqHandler_ _ _
      · rfl
      · rfl
    | operationAborted => rfl
    | other => rfl
  | writeDone i k ec =>
    obtain ⟨c, -, -, rfl⟩ := HttpServerTransport.step_writeDone hstep
    cases ec <;> rfl
  | stopAll =>
    cases hstep
    rfl
  | signal =>
    obtain ⟨-, rfl⟩ := HttpServerTransport.step_signal hstep
    rw [HttpServerTransport.stop_eq]
    rfl
  | addStat stat =>
    cases hstep
    rfl

/-- So it is that of the constructor in every run. -/
theorem doc_root_run {docRoot : Bytes} {P : HttpServerTransport → Event → Prop} {es : List Event}
    {s : HttpServerTransport} (hrun : Runs HttpServerTransport.step P (.initial docRoot) es s) :
    s.reqHandler_.doc_root_ = docRoot := by
  refine hrun.invariant (I := fun s => s.reqHandler_.doc_root_ = docRoot) rfl ?_
  intro s e s' h _ hstep
  rw [doc_root_step hstep, h]

/-! ## Fetching a file -/

/-- What an event finds outside, if its handler looks. -/
def Event.env : Event → Option Env
  | .readDone _ _ _ _ env => some env
  | _ => none

/-- The read that decides a stream is answered by the reply of a handler. -/
theorem deciding_read {docRoot : Bytes} {es : List Event} {s : HttpServerTransport}
    (hrun : Runs HttpServerTransport.step anyStep (.initial docRoot) es s) {i : ℕ}
    {c : HttpClientConnection} (hc : s.connections[i]? = some c)
    (hdecided : (parseStream (received i es)).result ≠ .indeterminate) :
    ∃ es₁ k r env es₂ s₁ c₁, es = es₁ ++ .readDone i k .success r env :: es₂
      ∧ Runs HttpServerTransport.step anyStep (.initial docRoot) es₁ s₁
      ∧ s₁.connections[i]? = some c₁
      ∧ (parseStream (received i es₁)).result = .indeterminate
      ∧ AnswersFrom c₁ c
      ∧ answerTo env s₁.reqHandler_ (parseStream (received i es)) = some c.reply_ := by
  cases (exchange_run hrun i).1 _ (HttpServerTransport.view_of_connection hc) with
  | undecided maj min _ hfeeds _ _ => exact absurd (parseStream_result_of_feeds hfeeds) hdecided
  | decided es₁ es₂ k r env s₁ c₁ hhistory hes hrun₁ hc₁ hbefore _ hreply =>
    exact ⟨es₁, k, r, env, es₂, s₁, c₁, hes, hrun₁, hc₁, hbefore, hhistory, hreply⟩

/-- The stream starts with a written request. -/
theorem RequestText.parseStream_eq (r : RequestText) {reads : List ReadBytes}
    (h : r.text <+: stream reads) :
    (parseStream reads).result = .good ∧ (parseStream reads).req = r.request := by
  obtain ⟨t, ht⟩ := h
  have hline := r.feeds_requestLine 0 0
  have hheaders := feeds_headers ⟨r.method, r.uri, r.major, r.minor, []⟩ [] r.headers
  have hall := hline.append hheaders
  rw [parseStream, parse_eq_scan, ← ht, RequestText.text, List.append_assoc _ crlf t,
    hall.scan_append, scan_final_crlf]
  exact ⟨rfl, rfl⟩

/-- The reply that serves a file. -/
def fileReply (path bytes : Bytes) : HttpReply where
  status_ := .ok
  headers_ := [⟨str "Content-Length", stdToString bytes.length⟩,
    ⟨str "Content-Type", extensionToType (fileExtension path)⟩]
  content_ := bytes

/-- A request for a file that can be read is answered by the file. -/
theorem handleRequest_fileReply (env : Env) (h : HttpReqHandler) (f : ReadableFile env h.doc_root_)
    (hdata : ¬ MentionsData f.requestPath) (req : HttpRequest)
    (henc : Encodes f.requestPath req.uri_) :
    (handleRequest env h req ⟨.ok, [], []⟩).rep = fileReply f.requestPath f.bytes := by
  rw [MentionsData, not_or] at hdata
  have hroute : route req.uri_ = .file f.requestPath := by
    rw [route_of_encodes henc, ← ReadableFile.requestPath, if_neg hdata.1, if_neg hdata.2]
  rw [handleRequest_eq, hroute]
  dsimp only
  rw [f.openFile_cStr]
  dsimp only
  rw [readLoop_eq, List.nil_append]
  rfl

/-- The text of a reply that serves a file: the status line, the two headers, a blank line
and the bytes of the file. -/
def fileText (path bytes : Bytes) : Bytes :=
  replyHead (str "HTTP/1.0 200 OK") (stdToString bytes.length)
    (extensionToType (fileExtension path)) ++ (crlf ++ crlf) ++ bytes

/-- This is what such a reply is written as. -/
theorem wire_fileReply (path bytes : Bytes) :
    HttpReply.wire (fileReply path bytes) = fileText path bytes :=
  (framed_of_headers (str "HTTP/1.0 200 OK") _ (by decide) rfl
    (noLineEnd_extensionToType (fileExtension path)) rfl).wire_eq

/-- A request for the script `chartScript`, with an escaped slash. -/
def chartRequest : RequestText where
  method := str "GET"
  uri := str "/js%2fchart.js"
  majorZeros := 0
  major := 1
  minorZeros := 0
  minor := 0
  headers := []
  method_ne_nil := by decide
  method_token := by decide +kernel
  uri_uriByte := by decide +kernel
  major_lt := by decide
  minor_lt := by decide

theorem length_chartHead : (str "GET /js%2fch").length ≤ bufferSize := by decide

theorem length_chartRest : (str "art.js HTTP/1.0\r\n\r\nGET").length ≤ bufferSize := by decide

/-- A client sends the request in two pieces, with further bytes behind it. -/
def fetchChart : List Event :=
  [.acceptDone .success ⟨⟨List.replicate bufferSize 0, length_zeros⟩, 0, 0, .ok⟩,
    .readDone 0 0 .success ⟨str "GET /js%2fch", length_chartHead⟩
      (oneFile (str "/www/js/chart.js") (str "draw()")),
    .readDone 0 0 .success ⟨str "art.js HTTP/1.0\r\n\r\nGET", length_chartRest⟩
      (oneFile (str "/www/js/chart.js") (str "draw()"))]

theorem fetchChart_runs :
    (run HttpServerTransport.step anyStep (.initial (str "/www")) fetchChart).isSome = true := by
  decide +kernel

theorem fetchChart_connects :
    (((run HttpServerTransport.step anyStep (.initial (str "/www")) fetchChart).get
      fetchChart_runs).connections[0]?).isSome = true := by
  decide +kernel

/-- Its connection. -/
def chartConnection : HttpClientConnection :=
  (((run HttpServerTransport.step anyStep (.initial (str "/www")) fetchChart).get
    fetchChart_runs).connections[0]?).get fetchChart_connects

/-- The answer only looks at the queue for the data of the dashboard. -/
theorem answerTo_eq_of_doc_root {env : Env} {h g : HttpReqHandler} {p : Parsed}
    (hroot : h.doc_root_ = g.doc_root_)
    (hdata : p.result = .good → route p.req.uri_ ≠ .updateValues) :
    answerTo env h p = answerTo env g p := by
  unfold answerTo
  cases hr : p.result with
  | good =>
    have hroute := hdata hr
    dsimp only
    rw [handleRequest_eq, handleRequest_eq]
    cases hu : route p.req.uri_ with
    | updateValues => exact absurd hu hroute
    | file request_path =>
      dsimp only
      rw [hroot]
      cases env.openFile (cStr (g.doc_root_ ++ request_path)) <;> rfl
    | _ => rfl
  | bad => rfl
  | indeterminate => rfl

/-- A decided stream is decided alike however it goes on. -/
theorem parseStream_eq_of_prefix {reads reads' : List ReadBytes}
    (hdecided : (parseStream reads).result ≠ .indeterminate)
    (hsame : (stream reads).take (parseStream reads).begin <+: stream reads') :
    parseStream reads' = parseStream reads := by
  have hverdict : (parserScanner.scan (.methodStart, .fresh 0 0) (stream reads)).verdict ≠ none :=
    fun hnone => hdecided ((parse_result_eq_indeterminate_iff _ _ _).mpr hnone)
  obtain ⟨v, hv⟩ := Option.ne_none_iff_exists'.mp hverdict
  rw [parseStream, parse_begin_eq] at hsame
  obtain ⟨t, ht⟩ := hsame
  have htake := scan_take_consumed parserScanner hv
  have hscan := scan_append_of_verdict parserScanner t (htake ▸ hv)
  rw [parseStream, parseStream, parse_eq_scan, parse_eq_scan, ← ht, hscan, htake]

/-- **Answers do not depend on what else happens.**  Take two servers with the same
directory and files that do not change, and a connection of each that has received the
same bytes up to the one that decides its request.  If the request does not ask for the
data of the dashboard, both connections have given the same answer, however the bytes were
cut into reads, whatever came behind them, and whatever other connections and the
consumers of the stats did. -/
theorem replies_agree (docRoot : Bytes) (env : Env) (es es' : List Event)
    (s s' : HttpServerTransport)
    (hrun : Runs HttpServerTransport.step anyStep (.initial docRoot) es s)
    (hrun' : Runs HttpServerTransport.step anyStep (.initial docRoot) es' s')
    (hfiles : ∀ e ∈ es ++ es', ∀ env' ∈ e.env, env' = env)
    (i j : ℕ) (c c' : HttpClientConnection) (hc : s.connections[i]? = some c)
    (hc' : s'.connections[j]? = some c')
    (hdecided : (parseStream (received i es)).result ≠ .indeterminate)
    (hsame : (stream (received i es)).take (parseStream (received i es)).begin
      <+: stream (received j es'))
    (hdata : (parseStream (received i es)).result = .good →
      route (parseStream (received i es)).req.uri_ ≠ .updateValues) :
    Answering c.history ∧ Answering c'.history ∧ c'.reply_ = c.reply_ := by
  have hparsed := parseStream_eq_of_prefix hdecided hsame
  obtain ⟨es₁, k, r, env₁, es₂, s₁, c₁, hes, hrun₁, -, -, hfrom, hreply⟩ :=
    deciding_read hrun hc hdecided
  obtain ⟨es₁', k', r', env₂, es₂', s₁', c₁', hes', hrun₁', -, -, hfrom', hreply'⟩ :=
    deciding_read hrun' hc' (by rwa [hparsed])
  obtain rfl : env₁ = env := by
    refine hfiles (.readDone i k .success r env₁) (List.mem_append_left _ ?_) env₁ rfl
    rw [hes]
    exact List.mem_append_right _ List.mem_cons_self
  obtain rfl : env₂ = env₁ := by
    refine hfiles (.readDone j k' .success r' env₂) (List.mem_append_right _ ?_) env₂ rfl
    rw [hes']
    exact List.mem_append_right _ List.mem_cons_self
  refine ⟨hfrom.answering, hfrom'.answering, ?_⟩
  have hroot := (doc_root_run hrun₁').trans (doc_root_run hrun₁).symm
  rw [hparsed, answerTo_eq_of_doc_root hroot hdata, hreply] at hreply'
  exact (Option.some.inj hreply').symm

theorem length_chartWhole : (str "GET /js%2fchart.js HTTP/1.0\r\n\r\n").length ≤ bufferSize := by
  decide

/-- The same request in one piece, from the second of two clients, after a stat came. -/
def fetchChartBusy : List Event :=
  [.acceptDone .success ⟨⟨List.replicate bufferSize 0, length_zeros⟩, 1, 1, .notFound⟩,
    .acceptDone .success ⟨⟨List.replicate bufferSize 0, length_zeros⟩, 0, 0, .ok⟩,
    .addStat ⟨0, ⟨[], 1, 2⟩⟩,
    .readDone 1 0 .success ⟨str "GET /js%2fchart.js HTTP/1.0\r\n\r\n", length_chartWhole⟩
      (oneFile (str "/www/js/chart.js") (str "draw()"))]

theorem fetchChartBusy_runs :
    (run HttpServerTransport.step anyStep (.initial (str "/www")) fetchChartBusy).isSome
      = true := by
  decide +kernel

theorem fetchChartBusy_connects :
    (((run HttpServerTransport.step anyStep (.initial (str "/www")) fetchChartBusy).get
      fetchChartBusy_runs).connections[1]?).isSome = true := by
  decide +kernel

/-- The connection of the second client. -/
def busyConnection : HttpClientConnection :=
  (((run HttpServerTransport.step anyStep (.initial (str "/www")) fetchChartBusy).get
    fetchChartBusy_runs).connections[1]?).get fetchChartBusy_connects

/-- Both clients are written the same. -/
theorem replies_agree_chart :
    chartConnection.awaitsWrite 0 = true ∧ busyConnection.awaitsWrite 0 = true
      ∧ busyConnection.reply_ = chartConnection.reply_ := by
  have hfiles : ∀ e ∈ fetchChart ++ fetchChartBusy, ∀ env ∈ e.env,
      env = oneFile (str "/www/js/chart.js") (str "draw()") := by
    intro e he env henv
    simp only [fetchChart, fetchChartBusy, List.cons_append, List.nil_append, List.mem_cons,
      List.not_mem_nil, or_false] at he
    rcases he with rfl | rfl | rfl | rfl | rfl | rfl | rfl <;> cases henv <;> rfl
  obtain ⟨-, -, hreply⟩ := replies_agree (str "/www") _ fetchChart fetchChartBusy _ _
    (runs_get fetchChart_runs) (runs_get fetchChartBusy_runs) hfiles 0 1 chartConnection
    busyConnection (Option.some_get fetchChart_connects).symm
    (Option.some_get fetchChartBusy_connects).symm (by decide +kernel) (by decide +kernel)
    (fun _ => by decide +kernel)
  exact ⟨by decide +kernel, by decide +kernel, hreply⟩

end Unichannel
