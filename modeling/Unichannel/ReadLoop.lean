/-
# The read loop does not depend on how the stream is cut

A connection parses each read with the parser and the request the read before it
left, and reads again while the parser has not decided.  However the bytes that
arrive are cut into reads, the verdict, the bytes consumed and the request are
those of one scan of the whole stream, and nothing behind the deciding byte
matters.  The loop is what the read handlers of a connection run
(`session_reads`).
-/
import Unichannel.HttpServerTransport

namespace Unichannel

open GuardedSystem

/-- What the read loop arrives at: the result of the last `parse`, the bytes the
parser has consumed in all, and the request. -/
structure ReadOutcome where
  result : ResultType
  consumed : ℕ
  req_ : HttpRequest
  deriving DecidableEq, Repr

/-- The stream that a list of reads delivers. -/
def stream (reads : List ReadBytes) : Bytes := (reads.map ReadBytes.bytes).flatten

/-- The read loop of a connection, on reads that all succeed. -/
def readLoopOf (c : HttpClientConnection) : List ReadBytes → ReadOutcome
  | [] => ⟨.indeterminate, 0, c.req_⟩
  | r :: reads =>
    let p := c.receive r
    if p.result = .indeterminate then
      let o := readLoopOf p.conn reads
      { o with consumed := p.begin + o.consumed }
    else ⟨p.result, p.begin, p.conn.req_⟩

/-- A scan outcome in the vocabulary of the read loop. -/
def ReadOutcome.ofOutcome (o : Scanner.Outcome (State × HttpRequest) ResultType) : ReadOutcome :=
  ⟨o.verdict.getD .indeterminate, o.consumed, o.state.2⟩

/-- What one read leaves, as a scan of its bytes. -/
theorem receive_eq_scan (c : HttpClientConnection) (r : ReadBytes) :
    (c.receive r).result
        = (parserScanner.scan (c.reqParser_, c.req_) r.bytes).verdict.getD .indeterminate
      ∧ (c.receive r).begin = (parserScanner.scan (c.reqParser_, c.req_) r.bytes).consumed
      ∧ ((c.receive r).conn.reqParser_, (c.receive r).conn.req_)
        = (parserScanner.scan (c.reqParser_, c.req_) r.bytes).state := by
  simp only [HttpClientConnection.receive, Buffer.take_fill, parse_eq_scan]
  exact ⟨rfl, rfl, rfl⟩

/-- The read loop scans the reads one after the other. -/
theorem readLoopOf_eq_scanChunks (c : HttpClientConnection) (reads : List ReadBytes) :
    readLoopOf c reads
      = ReadOutcome.ofOutcome
        (parserScanner.scanChunks (c.reqParser_, c.req_) (reads.map ReadBytes.bytes)) := by
  induction reads generalizing c with
  | nil => rfl
  | cons r reads ih =>
    obtain ⟨hresult, hbegin, hstate⟩ := receive_eq_scan c r
    rw [readLoopOf, List.map_cons, Scanner.scanChunks]
    by_cases hind : (c.receive r).result = .indeterminate
    · -- the next read is parsed from the state this one left
      rw [if_pos hind, ih, hstate, hbegin]
      rw [hresult, getD_eq_indeterminate_iff] at hind
      rw [hind, Scanner.consumed_eq_length_of_none _ hind]
      rfl
    · rw [if_neg hind]
      rw [hresult, getD_eq_indeterminate_iff] at hind
      obtain ⟨v, hv⟩ := Option.ne_none_iff_exists'.mp hind
      rw [hv, hresult, hbegin, ReadOutcome.ofOutcome, ← hstate]

/-- **The read loop is one scan of the stream.** -/
theorem readLoopOf_eq_scan (c : HttpClientConnection) (reads : List ReadBytes) :
    readLoopOf c reads
      = ReadOutcome.ofOutcome (parserScanner.scan (c.reqParser_, c.req_) (stream reads)) := by
  rw [readLoopOf_eq_scanChunks, Scanner.scanChunks_eq_scan_flatten, stream]

/-- **Cuts and trailing bytes do not matter.**  Two ways of cutting one stream
into reads have the same outcome; and once the parser has decided, so has any
stream with the same bytes up to the deciding one, however it is cut and however
it goes on. -/
theorem readLoopOf_eq_of_cuts (c : HttpClientConnection) (reads reads' : List ReadBytes) :
    (stream reads = stream reads' → readLoopOf c reads = readLoopOf c reads')
      ∧ ((readLoopOf c reads).result ≠ .indeterminate →
        (stream reads').take (readLoopOf c reads).consumed
          = (stream reads).take (readLoopOf c reads).consumed →
        readLoopOf c reads' = readLoopOf c reads) := by
  constructor
  · intro hstream
    rw [readLoopOf_eq_scan, readLoopOf_eq_scan, hstream]
  · intro hdecided htake
    rw [readLoopOf_eq_scan] at hdecided htake
    rw [readLoopOf_eq_scan, readLoopOf_eq_scan]
    have hverdict : (parserScanner.scan (c.reqParser_, c.req_) (stream reads)).verdict ≠ none :=
      fun hnone => hdecided ((getD_eq_indeterminate_iff _ _).mpr hnone)
    obtain ⟨v, hv⟩ := Option.ne_none_iff_exists'.mp hverdict
    rw [Scanner.scan_eq_of_take_consumed parserScanner hv htake]

/-- A request that arrives in one read, in three reads, and with bytes behind it. -/
theorem readLoopOf_eq_of_cuts_get :
    let c := HttpClientConnection.new
      ⟨⟨List.replicate bufferSize 0, List.length_replicate⟩, 0, 0, .ok⟩
    let whole : List ReadBytes := [⟨str "GET / HTTP/1.0\r\n\r\n", by decide⟩]
    let cut : List ReadBytes :=
      [⟨str "GE", by decide⟩, ⟨str "T / HTTP/1.0\r", by decide⟩, ⟨str "\n\r\n", by decide⟩]
    let more : List ReadBytes :=
      [⟨str "GET / HTTP/1.0\r\n\r", by decide⟩, ⟨str "\nmore", by decide⟩]
    readLoopOf c whole = readLoopOf c cut ∧ readLoopOf c more = readLoopOf c whole := by
  intro c whole cut more
  exact ⟨(readLoopOf_eq_of_cuts c whole cut).1 (by decide +kernel),
    (readLoopOf_eq_of_cuts c whole more).2 (by decide +kernel) (by decide +kernel)⟩

/-! ## The read handlers run the loop -/

/-- The loop only depends on what the parser remembers. -/
theorem readLoopOf_doRead (c : HttpClientConnection) (reads : List ReadBytes) :
    readLoopOf c.doRead reads = readLoopOf c reads := by
  rw [readLoopOf_eq_scan, readLoopOf_eq_scan]
  rfl

theorem readLoopOf_complete (c : HttpClientConnection) (k : ℕ) (reads : List ReadBytes) :
    readLoopOf (c.complete k) reads = readLoopOf c reads := by
  rw [readLoopOf_eq_scan, readLoopOf_eq_scan]
  rfl

/-- A read of a connection that succeeds, with what the handler finds then. -/
structure SuccessfulRead where
  bytes : ReadBytes
  env : Env
  reqHandler_ : HttpReqHandler

/-- Its completion. -/
def SuccessfulRead.event (r : SuccessfulRead) : SessionEvent :=
  .readDone 0 .success r.bytes r.env r.reqHandler_

/-- **The handlers run the read loop.**  When reads of a connection that awaits one
succeed one after the other, the request is then that of the read loop, and the
connection awaits a further read exactly if the loop has not decided. -/
theorem session_reads {v v' : Session} {b : Bool} (hpending : v.conn.pending = [⟨.read, b⟩])
    (reads : List SuccessfulRead)
    (hrun : Runs Session.step anyStep v (reads.map SuccessfulRead.event) v') :
    v'.conn.req_ = (readLoopOf v.conn (reads.map SuccessfulRead.bytes)).req_
      ∧ (v'.conn.awaitsRead 0 = true
        ↔ (readLoopOf v.conn (reads.map SuccessfulRead.bytes)).result = .indeterminate) := by
  have hreplay := run_of_runs hrun
  clear hrun
  induction reads generalizing v b with
  | nil =>
    cases hreplay
    refine ⟨rfl, iff_of_true ?_ rfl⟩
    rw [HttpClientConnection.awaitsRead, hpending]
    rfl
  | cons r reads ih =>
    obtain ⟨-, v₁, hstep, hreplay⟩ := run_cons_eq_some_iff.mp hreplay
    obtain ⟨-, hv₁⟩ := Session.step_readDone hstep
    have hnone : (v.conn.complete 0).pending = [] := by
      rw [HttpClientConnection.complete, hpending]
      rfl
    rw [← readLoopOf_complete v.conn 0, List.map_cons, readLoopOf]
    rcases HttpClientConnection.onReadSuccess_cases r.env r.reqHandler_ (v.conn.complete 0) r.bytes
      with ⟨hdecided, rep, heq⟩ | ⟨hind, heq⟩
    · -- the connection writes its answer, so no further read can complete
      have hconn : v₁.conn = (((v.conn.complete 0).receive r.bytes).conn.setReply rep).doWrite := by
        rw [hv₁]
        exact heq
      have hwrite : v₁.conn.awaitsRead 0 = false := by
        rw [hconn, HttpClientConnection.awaitsRead, HttpClientConnection.doWrite,
          HttpClientConnection.setReply]
        simp [HttpClientConnection.receive, hnone]
      rw [if_neg hdecided]
      cases reads with
      | nil =>
        cases hreplay
        refine ⟨by rw [hconn]; rfl, iff_of_false ?_ hdecided⟩
        rw [hwrite]
        exact Bool.false_ne_true
      | cons r' reads =>
        obtain ⟨-, v₂, hstep', -⟩ := run_cons_eq_some_iff.mp hreplay
        obtain ⟨hawaits, -⟩ := Session.step_readDone hstep'
        exact absurd (hwrite.symm.trans hawaits) Bool.false_ne_true
    · -- the next read is parsed from the state this one left
      have hconn : v₁.conn = ((v.conn.complete 0).receive r.bytes).conn.doRead := by
        rw [hv₁]
        exact heq
      have hread : v₁.conn.pending
          = [⟨.read, ((v.conn.complete 0).receive r.bytes).conn.socketOpen⟩] := by
        rw [hconn, HttpClientConnection.doRead]
        simp [HttpClientConnection.receive, hnone]
      have hrest := ih hread hreplay
      rw [hconn, readLoopOf_doRead] at hrest
      rw [if_pos hind]
      exact hrest

end Unichannel
