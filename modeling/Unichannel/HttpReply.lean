/-
# Replies (HttpReply.h, HttpReply.cpp)

The reply object, its serialisation `toBuffers` and the stock replies.  The
buffers are modelled by their bytes; on the wire they follow each other.
-/
import Unichannel.HttpRequest

namespace Unichannel

/-- `HttpReply::status_type`. -/
inductive StatusType
  | ok
  | created
  | accepted
  | noContent
  | multipleChoices
  | movedPermanently
  | movedTemporarily
  | notModified
  | badRequest
  | unauthorized
  | forbidden
  | notFound
  | internalServerError
  | notImplemented
  | badGateway
  | serviceUnavailable
  deriving DecidableEq, Repr

/-- `HttpReply`. -/
structure HttpReply where
  status_ : StatusType
  headers_ : List HttpHeader
  content_ : Bytes
  deriving DecidableEq, Repr

/-- `name_value_separator`. -/
def nameValueSeparator : Bytes := [ch ':', ch ' ']

/-- `status_strings::to_buffer`. -/
def StatusStrings.toBuffer : StatusType → Bytes
  | .ok => str "HTTP/1.0 200 OK\r\n"
  | .created => str "HTTP/1.0 201 Created\r\n"
  | .accepted => str "HTTP/1.0 202 Accepted\r\n"
  | .noContent => str "HTTP/1.0 204 No Content\r\n"
  | .multipleChoices => str "HTTP/1.0 300 Multiple Choices\r\n"
  | .movedPermanently => str "HTTP/1.0 301 Moved Permanently\r\n"
  | .movedTemporarily => str "HTTP/1.0 302 Moved Temporarily\r\n"
  | .notModified => str "HTTP/1.0 304 Not Modified\r\n"
  | .badRequest => str "HTTP/1.0 400 Bad Request\r\n"
  | .unauthorized => str "HTTP/1.0 401 Unauthorized\r\n"
  | .forbidden => str "HTTP/1.0 403 Forbidden\r\n"
  | .notFound => str "HTTP/1.0 404 Not Found\r\n"
  | .internalServerError => str "HTTP/1.0 500 Internal Server Error\r\n"
  | .notImplemented => str "HTTP/1.0 501 Not Implemented\r\n"
  | .badGateway => str "HTTP/1.0 502 Bad Gateway\r\n"
  | .serviceUnavailable => str "HTTP/1.0 503 Service Unavailable\r\n"

/-- `stock_replies::to_string`. -/
def StockReplies.toString : StatusType → Bytes
  | .ok =>
    str "<html><head><title>OK</title></head>"
      ++ str "<body><h1>201 OK</h1></body></html>"
  | .created =>
    str "<html><head><title>Created</title></head>"
      ++ str "<body><h1>201 Created</h1></body></html>"
  | .accepted =>
    str "<html><head><title>Accepted</title></head>"
      ++ str "<body><h1>202 Accepted</h1></body></html>"
  | .noContent =>
    str "<html><head><title>No Content</title></head>"
      ++ str "<body><h1>204 Content</h1></body></html>"
  | .multipleChoices =>
    str "<html><head><title>Multiple Choices</title></head>"
      ++ str "<body><h1>300 Multiple Choices</h1></body></html>"
  | .movedPermanently =>
    str "<html><head><title>Moved Permanently</title></head>"
      ++ str "<body><h1>301 Moved Permanently</h1></body></html>"
  | .movedTemporarily =>
    str "<html><head><title>Moved Temporarily</title></head>"
      ++ str "<body><h1>302 Moved Temporarily</h1></body></html>"
  | .notModified =>
    str "<html><head><title>Not Modified</title></head>"
      ++ str "<body><h1>304 Not Modified</h1></body></html>"
  | .badRequest =>
    str "<html><head><title>Bad Request</title></head>"
      ++ str "<body><h1>400 Bad Request</h1></body></html>"
  | .unauthorized =>
    str "<html><head><title>Unauthorized</title></head>"
      ++ str "<body><h1>401 Unauthorized</h1></body></html>"
  | .forbidden =>
    str "<html><head><title>Forbidden</title></head>"
      ++ str "<body><h1>403 Forbidden</h1></body></html>"
  | .notFound =>
    str "<html><head><title>Not Found</title></head>"
      ++ str "<body><h1>404 Not Found</h1></body></html>"
  | .internalServerError =>
    str "<html><head><title>Internal Server Error</title></head>"
      ++ str "<body><h1>500 Internal Server Error</h1></body></html>"
  | .notImplemented =>
    str "<html><head><title>Not Implemented</title></head>"
      ++ str "<body><h1>501 Not Implemented</h1></body></html>"
  | .badGateway =>
    str "<html><head><title>Bad Gateway</title></head>"
      ++ str "<body><h1>502 Bad Gateway</h1></body></html>"
  | .serviceUnavailable =>
    str "<html><head><title>Service Unavailable</title></head>"
      ++ str "<body><h1>503 Service Unavailable</h1></body></html>"

namespace HttpReply

/-- The four buffers of one header. -/
def headerBuffers (h : HttpHeader) : List Bytes := [h.name, nameValueSeparator, h.value, crlf]

/-- `HttpReply::to_buffers`. -/
def toBuffers (rep : HttpReply) : List Bytes :=
  [StatusStrings.toBuffer rep.status_] ++ rep.headers_.flatMap headerBuffers ++ [crlf]
    ++ [rep.content_]

/-- The bytes written for a reply. -/
def wire (rep : HttpReply) : Bytes := rep.toBuffers.flatten

/-- `HttpReply::stock_reply`. -/
def stockReply (status : StatusType) : HttpReply :=
  let content_ := StockReplies.toString status
  { status_ := status
    headers_ := [⟨str "Content-Length", stdToString content_.length⟩,
      ⟨str "Content-Type", str "text/html"⟩]
    content_ := content_ }

/-- The bytes of a header line. -/
def headerLine (h : HttpHeader) : Bytes := h.name ++ nameValueSeparator ++ h.value ++ crlf

/-- A reply is written as the status line, the header lines, an empty line and
the content. -/
theorem wire_eq (rep : HttpReply) :
    rep.wire = StatusStrings.toBuffer rep.status_ ++ rep.headers_.flatMap headerLine ++ crlf
      ++ rep.content_ := by
  have hheaders : ∀ hs : List HttpHeader,
      (hs.flatMap headerBuffers).flatten = hs.flatMap headerLine := by
    intro hs
    induction hs with
    | nil => rfl
    | cons h hs ih =>
      rw [List.flatMap_cons, List.flatMap_cons, List.flatten_append, ih]
      simp [headerBuffers, headerLine]
  simp [wire, toBuffers, hheaders]

end HttpReply

end Unichannel
