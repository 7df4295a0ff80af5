/-
# Client connections (HttpClientConnection.h, HttpClientConnection.cpp)

A connection with its socket, its read buffer, its parser, its request and its
reply.  `doRead`, `doWrite` and `stop` are the member functions of these names;
`onReadSuccess` is the branch of the read handler for a read that succeeded.
An asynchronous operation is outstanding from its start until its handler runs.

Besides the members of the class a connection carries its `history`: what its
member functions and handlers have done, in order.
-/
import Unichannel.HttpReqHandler
import Unichannel.HttpReqParser

namespace Unichannel

/-! ## Buffers and operations -/

/-- `boost::system::error_code`, as far as the handlers tell the codes apart. -/
inductive ErrorCode
  | success
  | operationAborted
  | other
  deriving DecidableEq, Repr

/-- The size of `buffer_`. -/
def bufferSize : ℕ := 8192

theorem length_zeros : (List.replicate bufferSize (0 : Byte)).length = bufferSize :=
  List.length_replicate

/-- The bytes one read delivers: no more than `buffer_` takes. -/
structure ReadBytes where
  bytes : Bytes
  length_le : bytes.length ≤ bufferSize

/-- The contents of `buffer_`, an array of `bufferSize` characters. -/
structure Buffer where
  bytes : Bytes
  length_eq : bytes.length = bufferSize

/-- A read writes its bytes to the front of the buffer. -/
def Buffer.fill (buffer_ : Buffer) (r : ReadBytes) : Buffer where
  bytes := r.bytes ++ buffer_.bytes.drop r.bytes.length
  length_eq := by
    have hr := r.length_le
    rw [List.length_append, List.length_drop, buffer_.length_eq]
    omega

/-- From `buffer_.data()` to `buffer_.data() + bytes_transferred` lies what the
read delivered. -/
@[simp] theorem Buffer.take_fill (buffer_ : Buffer) (r : ReadBytes) :
    (buffer_.fill r).bytes.take r.bytes.length = r.bytes := by
  rw [Buffer.fill, List.take_left']
  rfl

/-- An asynchronous operation on a socket: a read, or a write of some buffers. -/
inductive OpKind
  | read
  | write (buffers : List Bytes)
  deriving DecidableEq, Repr

/-- An outstanding operation, and whether its socket was open when it was
started. -/
structure Op where
  kind : OpKind
  onOpen : Bool
  deriving DecidableEq, Repr

/-- What is noted in the history of a connection. -/
inductive Act
  /-- `async_read_some` was called, on an open socket or on a closed one. -/
  | readStarted (onOpen : Bool)
  /-- `parse` returned. -/
  | parsed (result : ResultType)
  /-- `reply_` was modified. -/
  | replySet
  /-- `async_write` was called, on an open socket or on a closed one. -/
  | writeStarted (onOpen : Bool)
  /-- `socket_.shutdown` was called. -/
  | shutdown
  deriving DecidableEq, Repr

/-! ## Connections -/

/-- `HttpClientConnection`.  `pending` are its outstanding operations. -/
structure HttpClientConnection where
  socketOpen : Bool
  buffer_ : Buffer
  reqParser_ : State
  req_ : HttpRequest
  reply_ : HttpReply
  pending : List Op
  history : List Act

/-- What the constructors leave uninitialised in a new connection. -/
structure Uninitialised where
  buffer_ : Buffer
  httpMajorVer_ : ℤ
  httpMinorVer_ : ℤ
  status_ : StatusType

namespace HttpClientConnection

/-- The constructor: the socket is the one just accepted. -/
def new (u : Uninitialised) : HttpClientConnection where
  socketOpen := true
  buffer_ := u.buffer_
  reqParser_ := .methodStart
  req_ := HttpRequest.fresh u.httpMajorVer_ u.httpMinorVer_
  reply_ := ⟨u.status_, [], []⟩
  pending := []
  history := []

/-- Assignment to `reply_`. -/
def setReply (c : HttpClientConnection) (rep : HttpReply) : HttpClientConnection :=
  { c with reply_ := rep, history := c.history ++ [.replySet] }

/-- `HttpClientConnection::stop`. -/
def stop (c : HttpClientConnection) : HttpClientConnection := { c with socketOpen := false }

/-- `HttpClientConnection::do_read`, up to the call of `async_read_some`. -/
def doRead (c : HttpClientConnection) : HttpClientConnection :=
  { c with
    pending := c.pending ++ [⟨.read, c.socketOpen⟩]
    history := c.history ++ [.readStarted c.socketOpen] }

/-- `HttpClientConnection::do_write`, up to the call of `async_write`. -/
def doWrite (c : HttpClientConnection) : HttpClientConnection :=
  { c with
    pending := c.pending ++ [⟨.write c.reply_.toBuffers, c.socketOpen⟩]
    history := c.history ++ [.writeStarted c.socketOpen] }

/-- `HttpClientConnection::start`. -/
def start (c : HttpClientConnection) : HttpClientConnection := c.doRead

/-- `socket_.shutdown(shutdown_both, ignored_ec)`. -/
def shutdown (c : HttpClientConnection) : HttpClientConnection :=
  { c with history := c.history ++ [.shutdown] }

/-- The operation number `k` is no longer outstanding: its handler is called. -/
def complete (c : HttpClientConnection) (k : ℕ) : HttpClientConnection :=
  { c with pending := c.pending.eraseIdx k }

/-! ## The read handler -/

/-- What the call of `parse` in the read handler leaves: its result, how far the
iterator has advanced (which the handler ignores) and the connection. -/
structure Received where
  result : ResultType
  begin : ℕ
  conn : HttpClientConnection

/-- The read has filled the buffer, and the handler parses what was read. -/
def receive (c : HttpClientConnection) (r : ReadBytes) : Received :=
  let buffer_ := c.buffer_.fill r
  let p := parse c.reqParser_ c.req_ (buffer_.bytes.take r.bytes.length)
  ⟨p.result, p.begin,
    { c with
      buffer_ := buffer_
      reqParser_ := p.state_
      req_ := p.req
      history := c.history ++ [.parsed p.result] }⟩

/-- The read handler when the read succeeded: the request is answered, refused
or read on. -/
def onReadSuccess (env : Env) (h : HttpReqHandler) (c : HttpClientConnection) (r : ReadBytes) :
    HttpClientConnection × HttpReqHandler :=
  let p := c.receive r
  match p.result with
  | .good =>
    let handled := handleRequest env h p.conn.req_ p.conn.reply_
    ((p.conn.setReply handled.rep).doWrite, handled.handler)
  | .bad => ((p.conn.setReply (HttpReply.stockReply .badRequest)).doWrite, h)
  | .indeterminate => (p.conn.doRead, h)

/-- The read handler, after a success, writes a reply or reads on, depending on
whether the parser has decided. -/
theorem onReadSuccess_cases (env : Env) (h : HttpReqHandler) (c : HttpClientConnection)
    (r : ReadBytes) :
    ((c.receive r).result ≠ .indeterminate
        ∧ ∃ rep, (c.onReadSuccess env h r).1 = ((c.receive r).conn.setReply rep).doWrite)
      ∨ ((c.receive r).result = .indeterminate
        ∧ (c.onReadSuccess env h r).1 = (c.receive r).conn.doRead) := by
  unfold onReadSuccess
  cases hr : (c.receive r).result with
  | good =>
    refine Or.inl ⟨by decide, (handleRequest env h (c.receive r).conn.req_
      (c.receive r).conn.reply_).rep, ?_⟩
    simp only [hr]
  | bad =>
    refine Or.inl ⟨by decide, HttpReply.stockReply .badRequest, ?_⟩
    simp only [hr]
  | indeterminate =>
    refine Or.inr ⟨rfl, ?_⟩
    simp only [hr]

end HttpClientConnection

end Unichannel
