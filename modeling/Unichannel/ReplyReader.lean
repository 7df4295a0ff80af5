/-
# What a client reads

A client that knows the sixteen status lines, reads header lines as the parser of this
repository does and takes as much content as `Content-Length` says reads every reply
that the server writes, whatever bytes follow it (`reply_reads`).

And a request that was accepted can be written again: its fields, each header on one
line, are accepted as the same request (`parse_rewritten`).
-/
import Unichannel.FreshRequest
import Unichannel.HeaderRoundTrip
import Unichannel.ReplyFraming

namespace Unichannel

open Scanner

/-! ## Reading a reply -/

/-- The members of `status_type`. -/
def statusTypes : List StatusType :=
  [.ok, .created, .accepted, .noContent, .multipleChoices, .movedPermanently, .movedTemporarily,
    .notModified, .badRequest, .unauthorized, .forbidden, .notFound, .internalServerError,
    .notImplemented, .badGateway, .serviceUnavailable]

/-- The status line in front of a text. -/
def readStatus (s : Bytes) : Option StatusType :=
  statusTypes.find? fun status => (StatusStrings.toBuffer status).isPrefixOf s

/-- The content and what is behind it, if all of it is there. -/
def readContent (headers_ : List HttpHeader) (s : Bytes) : Option (Bytes × Bytes) :=
  match headers_.find? fun h => h.name = str "Content-Length" with
  | some h =>
    if decimalNumber h.value ≤ s.length then some (s.splitAt (decimalNumber h.value)) else none
  | none => none

/-- A reply, and what is behind it. -/
def readReply (s : Bytes) : Option (HttpReply × Bytes) :=
  (readStatus s).bind fun status_ =>
    let s := s.drop (StatusStrings.toBuffer status_).length
    let p := parse .headerLineStart (.fresh 0 0) s
    if p.result = .good then
      (readContent p.req.headers_ (s.drop p.begin)).map fun c =>
        (⟨status_, p.req.headers_, c.1⟩, c.2)
    else none

/-! ## The status line -/

theorem mem_statusTypes (status : StatusType) : status ∈ statusTypes := by
  cases status <;> decide

/-- No status line begins another one. -/
theorem statusLine_inj : ∀ status ∈ statusTypes, ∀ status' ∈ statusTypes,
    StatusStrings.toBuffer status <+: StatusStrings.toBuffer status' → status = status' := by
  decide +kernel

/-- A status line is read back, whatever follows. -/
theorem readStatus_append (status : StatusType) (s : Bytes) :
    readStatus (StatusStrings.toBuffer status ++ s) = some status := by
  have hbegins : ∀ status', (StatusStrings.toBuffer status').isPrefixOf
      (StatusStrings.toBuffer status ++ s) = true → status' = status := by
    intro status' h
    have h' := List.isPrefixOf_iff_prefix.mp h
    rcases List.prefix_or_prefix_of_prefix h' (List.prefix_append _ s) with h | h
    · exact statusLine_inj _ (mem_statusTypes _) _ (mem_statusTypes _) h
    · exact (statusLine_inj _ (mem_statusTypes _) _ (mem_statusTypes _) h).symm
  have hself : (StatusStrings.toBuffer status).isPrefixOf (StatusStrings.toBuffer status ++ s)
      = true :=
    List.isPrefixOf_iff_prefix.mpr (List.prefix_append _ s)
  unfold readStatus
  cases hfind : statusTypes.find? fun status' =>
      (StatusStrings.toBuffer status').isPrefixOf (StatusStrings.toBuffer status ++ s) with
  | none => exact absurd hself (List.find?_eq_none.mp hfind status (mem_statusTypes status))
  | some status' =>
    have hfound := List.find?_some hfind
    rw [hbegins status' hfound]

/-! ## The headers and the content -/

/-- The headers of a reply of the server. -/
structure Sized (rep : HttpReply) : Prop where
  stored : ∀ h ∈ rep.headers_, StoredHeader h
  length : ∃ h, (rep.headers_.find? fun h => h.name = str "Content-Length") = some h
    ∧ decimalNumber h.value = rep.content_.length

/-- As much content is read as the headers say. -/
theorem readContent_append {rep : HttpReply} (h : Sized rep) (t : Bytes) :
    readContent rep.headers_ (rep.content_ ++ t) = some (rep.content_, t) := by
  obtain ⟨header, hfind, hlength⟩ := h.length
  unfold readContent
  rw [hfind]
  dsimp only
  rw [hlength, if_pos (by rw [List.length_append]; omega), List.splitAt_eq, List.take_left,
    List.drop_left]

/-- **Round trip of replies.** -/
theorem readReply_wire {rep : HttpReply} (h : Sized rep) (t : Bytes) :
    readReply (rep.wire ++ t) = some (rep, t) := by
  have hwire : rep.wire ++ t = StatusStrings.toBuffer rep.status_
      ++ (rep.headers_.flatMap HttpReply.headerLine ++ (crlf ++ (rep.content_ ++ t))) := by
    rw [rep.wire_eq]
    simp only [List.append_assoc]
  have hlines := feeds_headerLines (.fresh 0 0) [] rep.headers_ h.stored
  have hparse : parse .headerLineStart (.fresh 0 0)
      (rep.headers_.flatMap HttpReply.headerLine ++ (crlf ++ (rep.content_ ++ t)))
      = ⟨.good, (rep.headers_.flatMap HttpReply.headerLine).length + 2, .expectingNewline3,
        { HttpRequest.fresh 0 0 with headers_ := rep.headers_ }⟩ := by
    rw [parse_eq_scan]
    rw [show parserScanner.scan (.headerLineStart, .fresh 0 0) _ = _ from hlines.scan_append _,
      scan_final_crlf]
    rfl
  have hdrop : (rep.headers_.flatMap HttpReply.headerLine ++ (crlf ++ (rep.content_ ++ t))).drop
      ((rep.headers_.flatMap HttpReply.headerLine).length + 2) = rep.content_ ++ t := by
    rw [← List.append_assoc]
    exact List.drop_left' (List.length_append ..)
  rw [hwire, readReply, readStatus_append, Option.bind_some]
  simp only [List.drop_left, hparse, hdrop, if_true]
  rw [readContent_append h t]
  rfl

/-! ## The replies of the server -/

theorem DigitByte.text {b : Byte} (h : DigitByte b) : TextByte b := by
  have h0 : (ch '0').toNat = 48 := by decide
  have h9 : (ch '9').toNat = 57 := by decide
  rintro (hctl | hctl) <;> unfold DigitByte at h <;> omega

theorem extensionToType_text (extension : Bytes) : ∀ b ∈ extensionToType extension, TextByte b := by
  have hmap : ∀ m ∈ mimemaps, ∀ b ∈ m.2, TextByte b := by decide +kernel
  unfold extensionToType
  split
  · rename_i m hfind
    exact hmap m (List.mem_of_find?_eq_some hfind)
  · decide +kernel

/-- The two headers that the server sets. -/
theorem sized_of_headers {rep : HttpReply} {mime : Bytes} (hmime : ∀ b ∈ mime, TextByte b)
    (hheaders : rep.headers_ = [⟨str "Content-Length", stdToString rep.content_.length⟩,
      ⟨str "Content-Type", mime⟩]) : Sized rep := by
  have hnames : ∀ name ∈ [str "Content-Length", str "Content-Type"],
      name ≠ [] ∧ ∀ b ∈ name, TokenByte b := by
    decide +kernel
  refine ⟨?_, ⟨str "Content-Length", stdToString rep.content_.length⟩, ?_, ?_⟩
  · rw [hheaders]
    intro h hh
    rcases List.mem_cons.mp hh with rfl | hh
    · obtain ⟨hne, htoken⟩ := hnames _ List.mem_cons_self
      exact ⟨hne, htoken, fun b hb => (digitByte_of_mem_stdToString b hb).text⟩
    · obtain ⟨hne, htoken⟩ := hnames _ (List.mem_cons_of_mem _ (List.mem_singleton_self _))
      rw [List.mem_singleton.mp hh]
      exact ⟨hne, htoken, hmime⟩
  · rw [hheaders]
    rfl
  · exact decimalNumber_stdToString _

/-- The headers say how long the content is. -/
theorem sized_setHeaders (rep : HttpReply) (extension : Bytes) :
    Sized (setHeaders rep extension) :=
  sized_of_headers (extensionToType_text extension) (setHeaders_headers rep extension)

theorem sized_stockReply (status : StatusType) : Sized (HttpReply.stockReply status) :=
  have htext : ∀ b ∈ str "text/html", TextByte b := by decide +kernel
  sized_of_headers htext rfl

/-- And those of every reply of `handle_request`. -/
theorem sized_handleRequest (env : Env) (h : HttpReqHandler) (req : HttpRequest)
    (rep : HttpReply) : Sized (handleRequest env h req rep).rep := by
  rw [handleRequest_eq]
  cases route req.uri_ with
  | reject => exact sized_stockReply .badRequest
  | page => exact sized_setHeaders _ _
  | giveMeValues => exact sized_setHeaders _ _
  | updateValues => exact sized_setHeaders _ _
  | file request_path =>
    dsimp only
    cases env.openFile (cStr (h.doc_root_ ++ request_path)) with
    | none => exact sized_stockReply .notFound
    | some file => exact sized_setHeaders _ _

/-- **Every reply is read as it was written**: a client reads the reply of
`handle_request` to any request and every stock reply back, with its status, headers and
content, and stops in front of whatever follows. -/
theorem reply_reads (t : Bytes) :
    (∀ (env : Env) (h : HttpReqHandler) (req : HttpRequest) (rep : HttpReply),
      readReply ((handleRequest env h req rep).rep.wire ++ t)
        = some ((handleRequest env h req rep).rep, t))
      ∧ ∀ status, readReply ((HttpReply.stockReply status).wire ++ t)
        = some (HttpReply.stockReply status, t) :=
  ⟨fun env h req rep => readReply_wire (sized_handleRequest env h req rep) t,
    fun status => readReply_wire (sized_stockReply status) t⟩

/-! ## Writing a request again -/

/-- The text of a request, with each header on one line. -/
def HttpRequest.rewritten (req : HttpRequest) : Bytes :=
  lineHead req.method_ req.uri_ ++ versionText 0 req.httpMajorVer_.toNat ++ str "."
    ++ versionText 0 req.httpMinorVer_.toNat ++ crlf ++ req.headers_.flatMap HttpReply.headerLine
    ++ crlf

/-- A version number that can be written. -/
def SmallVersion (v : ℤ) : Prop := 0 ≤ v ∧ v < 10 ^ 9

instance : DecidablePred SmallVersion := fun v => inferInstanceAs (Decidable (0 ≤ v ∧ v < 10 ^ 9))

/-- A well-stored request is read again from its text. -/
theorem WellStored.reads_rewritten {state_ : State} {req : HttpRequest} (h : WellStored state_ req)
    (hmethod : req.method_ ≠ []) (hmajor : SmallVersion req.httpMajorVer_)
    (hminor : SmallVersion req.httpMinorVer_) (maj min : ℤ) (t : Bytes) :
    parse .methodStart (.fresh maj min) (req.rewritten ++ t)
      = ⟨.good, req.rewritten.length, .expectingNewline3, req⟩ := by
  obtain ⟨method_, uri_, major, minor, headers_⟩ := req
  obtain ⟨major, rfl⟩ := Int.eq_ofNat_of_zero_le hmajor.1
  obtain ⟨minor, rfl⟩ := Int.eq_ofNat_of_zero_le hminor.1
  have hmajorlt : major < 10 ^ 9 := by
    have hlt : (major : ℤ) < 10 ^ 9 := hmajor.2
    omega
  have hminorlt : minor < 10 ^ 9 := by
    have hlt : (minor : ℤ) < 10 ^ 9 := hminor.2
    omega
  have hline := RequestText.feeds_requestLine ⟨method_, uri_, 0, major, 0, minor, [], hmethod,
    h.method_token, h.uri_uriByte, hmajorlt, hminorlt⟩ maj min
  have hheaders := feeds_headerLines ⟨method_, uri_, major, minor, []⟩ [] headers_
    h.headers_stored
  have hall := hline.append hheaders
  have htext : (⟨method_, uri_, major, minor, headers_⟩ : HttpRequest).rewritten
      = method_ ++ str " " ++ uri_ ++ str " " ++ str "HTTP/" ++ versionText 0 major ++ str "."
        ++ versionText 0 minor ++ crlf ++ headers_.flatMap HttpReply.headerLine ++ crlf := rfl
  rw [parse_eq_scan, htext, List.append_assoc _ crlf t]
  rw [show parserScanner.scan _ _ = _ from hall.scan_append (crlf ++ t), scan_final_crlf]
  simp [Parsed.ofOutcome, Outcome.shift, crlf]
  omega

/-- **An accepted request can be written again.**  If a text is accepted, with version
numbers that can be written, then the fields it has left, written with each header on one
line, are accepted as the same request, up to the last byte, whatever follows. -/
theorem parse_rewritten (maj min maj' min' : ℤ) (s t : Bytes)
    (hgood : (parse .methodStart (.fresh maj min) s).result = .good)
    (hmajor : SmallVersion (parse .methodStart (.fresh maj min) s).req.httpMajorVer_)
    (hminor : SmallVersion (parse .methodStart (.fresh maj min) s).req.httpMinorVer_) :
    parse .methodStart (.fresh maj' min')
        ((parse .methodStart (.fresh maj min) s).req.rewritten ++ t)
      = ⟨.good, (parse .methodStart (.fresh maj min) s).req.rewritten.length, .expectingNewline3,
        (parse .methodStart (.fresh maj min) s).req⟩ := by
  have hstored := wellStored_parse (WellStored.fresh maj min) s
  refine hstored.reads_rewritten (hstored.method_ne_nil_iff.mpr ?_) hmajor hminor maj' min' t
  rw [parse_result_eq_iff _ _ _ (by decide)] at hgood
  have hset := versionsSet_of_good hgood
  rw [parse_eq_scan]
  intro hstart
  rw [show (parserScanner.scan (.methodStart, .fresh maj min) s).state.1 = .methodStart from hstart]
    at hset
  cases hset

/-- A version with leading zeros, and a header on two lines. -/
theorem parse_rewritten_folded :
    (parse .methodStart (.fresh 3 4) (str "GET / HTTP/1.0\r\nA: bc\r\n\r\nrest")).begin = 25 := by
  have h := parse_rewritten 0 0 3 4 (str "GET / HTTP/01.00\r\nA: b\r\n c\r\n\r\n") (str "rest")
    (by decide +kernel) (by decide +kernel) (by decide +kernel)
  have htext : (parse .methodStart (.fresh 0 0)
      (str "GET / HTTP/01.00\r\nA: b\r\n c\r\n\r\n")).req.rewritten ++ str "rest"
        = str "GET / HTTP/1.0\r\nA: bc\r\n\r\nrest" := by
    decide +kernel
  rw [htext] at h
  rw [h]
  decide +kernel

end Unichannel
