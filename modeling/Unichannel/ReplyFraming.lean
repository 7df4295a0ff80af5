/-
# Replies are framed by their Content-Length

Every reply `handle_request` produces, and the stock reply for a request the
parser refuses, is written as a status line, one `Content-Length` line, one
`Content-Type` line, a blank line and the content.  None of the three lines holds
a line end, so the first blank line is the one in front of the content, and the
number in the `Content-Length` line is the number of bytes behind it.
-/
import Unichannel.HttpReqHandler
import Unichannel.ParserMoves
import Unichannel.Lib.LineBlock

namespace Unichannel

open LineBlock

/-! ## Well-framed replies -/

/-- A text without line ends. -/
def NoLineEnd (s : Bytes) : Prop := ch '\r' ∉ s ∧ ch '\n' ∉ s

instance : DecidablePred NoLineEnd := fun _ => inferInstanceAs (Decidable (_ ∧ _))

/-- The line of a text: the text and `crlf`. -/
def textLine (s : Bytes) : Bytes := s ++ crlf

/-- The three status lines that are used, without their ends. -/
def statusLines : List Bytes :=
  [str "HTTP/1.0 200 OK", str "HTTP/1.0 400 Bad Request", str "HTTP/1.0 404 Not Found"]

/-- The first two lines of a reply and the text of the third. -/
def replyHead (status len mime : Bytes) : Bytes :=
  textLine status ++ textLine (str "Content-Length: " ++ len) ++ (str "Content-Type: " ++ mime)

/-- A reply that is well framed, with the texts of its status line, its length
and its type. -/
structure Framed (rep : HttpReply) (status len mime : Bytes) : Prop where
  /-- The status is 200, 400 or 404. -/
  status_line : status ∈ statusLines ∧ textLine status = StatusStrings.toBuffer rep.status_
  /-- What is written: the three lines, the blank line and the content. -/
  wire_eq : rep.wire = replyHead status len mime ++ (crlf ++ crlf) ++ rep.content_
  /-- Each of the three lines is one line. -/
  one_line : NoLineEnd status ∧ NoLineEnd len ∧ NoLineEnd mime
  /-- The length is the decimal number of bytes of the content. -/
  length_eq : (∀ b ∈ len, DigitByte b) ∧ decimalNumber len = rep.content_.length
  /-- The blank line in front of the content is the first one. -/
  first_blank : FirstAt (crlf ++ crlf) (replyHead status len mime) rep.wire
  /-- Reading as many bytes behind the first blank line as the length says gives
  the content, and nothing is left over. -/
  read_back : ∀ pre post, FirstAt (crlf ++ crlf) pre rep.wire →
    rep.wire = pre ++ (crlf ++ crlf) ++ post →
    post.take (decimalNumber len) = rep.content_ ∧ post.drop (decimalNumber len) = []

/-! ## The three lines -/

/-- Texts without a line end have none together. -/
theorem noLineEnd_append {s t : Bytes} (hs : NoLineEnd s) (ht : NoLineEnd t) :
    NoLineEnd (s ++ t) := by
  refine ⟨?_, ?_⟩ <;> rw [List.mem_append, not_or]
  · exact ⟨hs.1, ht.1⟩
  · exact ⟨hs.2, ht.2⟩

/-- The status lines are lines. -/
theorem noLineEnd_statusLines : ∀ s ∈ statusLines, NoLineEnd s ∧ s ≠ [] := by decide

/-- A printed number consists of digits. -/
theorem digitByte_of_mem_stdToString {n : ℕ} : ∀ b ∈ stdToString n, DigitByte b := by
  intro b hb
  obtain ⟨d, hd, rfl⟩ := List.mem_map.mp hb
  have hlt : d < 10 := Decimal.lt_ten_of_mem_digits hd
  have h0 : (ch '0').toNat = 48 := by decide
  have h9 : (ch '9').toNat = 57 := by decide
  rw [DigitByte, toNat_digitByte hlt, h0, h9]
  omega

theorem noLineEnd_of_digits {s : Bytes} (hs : ∀ b ∈ s, DigitByte b) : NoLineEnd s :=
  ⟨fun h => absurd (hs _ h) (by decide), fun h => absurd (hs _ h) (by decide)⟩

/-- The types in `mimemaps`, and the default, are texts without line ends; the
extension cannot reach the reply in any other way. -/
theorem noLineEnd_extensionToType (extension : Bytes) : NoLineEnd (extensionToType extension) := by
  have hmap : ∀ m ∈ mimemaps, NoLineEnd m.2 := by decide
  unfold extensionToType
  split
  · rename_i m hfind
    exact hmap m (List.mem_of_find?_eq_some hfind)
  · decide

/-- `resize` and the two assignments leave exactly the two headers, whatever the
reply held before. -/
theorem setHeaders_headers (rep : HttpReply) (extension : Bytes) :
    (setHeaders rep extension).headers_
      = [⟨str "Content-Length", stdToString rep.content_.length⟩,
        ⟨str "Content-Type", extensionToType extension⟩] := by
  obtain ⟨a, b, hab⟩ : ∃ a b, resize 2 rep.headers_ = [a, b] := by
    rcases rep.headers_ with _ | ⟨x, _ | ⟨y, l⟩⟩
    · exact ⟨HttpHeader.empty, HttpHeader.empty, rfl⟩
    · exact ⟨x, HttpHeader.empty, rfl⟩
    · exact ⟨x, y, by simp [resize]⟩
  simp [setHeaders, hab]

/-- The first blank line stands behind the three lines, whose texts are not empty. -/
theorem firstAt_replyHead {status len mime : Bytes} (hs : NoLineEnd status) (hne : status ≠ [])
    (hlen : NoLineEnd len) (hmime : NoLineEnd mime) (content_ : Bytes) :
    FirstAt (crlf ++ crlf) (replyHead status len mime)
      (replyHead status len mime ++ (crlf ++ crlf) ++ content_) := by
  have hlines : ∀ l ∈ [status, str "Content-Length: " ++ len] ++ [str "Content-Type: " ++ mime],
      ch '\r' ∉ l ∧ l ≠ [] := by
    intro l hl
    simp only [List.cons_append, List.nil_append, List.mem_cons, List.not_mem_nil, or_false] at hl
    rcases hl with rfl | rfl | rfl
    · exact ⟨hs.1, hne⟩
    · exact ⟨(noLineEnd_append (by decide) hlen).1, by simp [str]⟩
    · exact ⟨(noLineEnd_append (by decide) hmime).1, by simp [str]⟩
  have hblock := firstAt_blank (show ch '\r' ≠ ch '\n' by decide)
    [status, str "Content-Length: " ++ len] (str "Content-Type: " ++ mime) content_
    (fun l hl => (hlines l hl).1) (fun l hl => (hlines l hl).2)
  simpa [replyHead, textLine, line, blank, crlf] using hblock

/-! ## What two correct headers give -/

/-- A reply with one of the three status lines and the two headers is well
framed. -/
theorem framed_of_headers {rep : HttpReply} (status mime : Bytes) (hstatus : status ∈ statusLines)
    (hline : textLine status = StatusStrings.toBuffer rep.status_) (hmime : NoLineEnd mime)
    (hheaders : rep.headers_ = [⟨str "Content-Length", stdToString rep.content_.length⟩,
      ⟨str "Content-Type", mime⟩]) :
    Framed rep status (stdToString rep.content_.length) mime := by
  obtain ⟨hs, hsnil⟩ := noLineEnd_statusLines status hstatus
  have hdigits : ∀ b ∈ stdToString rep.content_.length, DigitByte b :=
    digitByte_of_mem_stdToString
  have hlen : NoLineEnd (stdToString rep.content_.length) := noLineEnd_of_digits hdigits
  have hwire : rep.wire = replyHead status (stdToString rep.content_.length) mime
      ++ (crlf ++ crlf) ++ rep.content_ := by
    have hl : str "Content-Length" ++ nameValueSeparator = str "Content-Length: " := by decide
    have ht : str "Content-Type" ++ nameValueSeparator = str "Content-Type: " := by decide
    rw [HttpReply.wire_eq, hheaders, ← hline, replyHead, ← hl, ← ht]
    simp [HttpReply.headerLine, textLine]
  have hfirst : FirstAt (crlf ++ crlf)
      (replyHead status (stdToString rep.content_.length) mime) rep.wire := by
    rw [hwire]
    exact firstAt_replyHead hs hsnil hlen hmime rep.content_
  refine ⟨⟨hstatus, hline⟩, hwire, ⟨hs, hlen, hmime⟩,
    ⟨hdigits, decimalNumber_stdToString _⟩, hfirst, ?_⟩
  intro pre post hpre hpost
  have hpre' := hpre.unique hfirst
  rw [hpre', hwire] at hpost
  have hcontent : rep.content_ = post := List.append_cancel_left hpost
  rw [decimalNumber_stdToString, hcontent]
  exact ⟨List.take_length, List.drop_length⟩

/-- A success of `handle_request`, whatever the reply held before. -/
theorem framed_setHeaders (rep : HttpReply) (content_ extension : Bytes) :
    ∃ status len mime,
      Framed (setHeaders { rep with status_ := .ok, content_ := content_ } extension)
        status len mime :=
  ⟨_, _, _, framed_of_headers (str "HTTP/1.0 200 OK") _ (by decide) rfl
    (noLineEnd_extensionToType extension) (setHeaders_headers _ extension)⟩

/-- The stock reply to a bad request is framed. -/
theorem framed_badRequest :
    ∃ status len mime, Framed (HttpReply.stockReply .badRequest) status len mime :=
  ⟨_, _, _, framed_of_headers (str "HTTP/1.0 400 Bad Request") (str "text/html") (by decide)
    (by decide) (by decide) rfl⟩

theorem framed_notFound :
    ∃ status len mime, Framed (HttpReply.stockReply .notFound) status len mime :=
  ⟨_, _, _, framed_of_headers (str "HTTP/1.0 404 Not Found") (str "text/html") (by decide)
    (by decide) (by decide) rfl⟩

/-- **Every reply is well framed**: the one `handle_request` leaves, for any
request, any reply object it is given and anything the template and the file
system answer, and the stock reply to a request that does not parse. -/
theorem reply_framed (env : Env) (h : HttpReqHandler) (req : HttpRequest) (rep : HttpReply) :
    (∃ status len mime, Framed (handleRequest env h req rep).rep status len mime)
      ∧ ∃ status len mime, Framed (HttpReply.stockReply .badRequest) status len mime := by
  refine ⟨?_, framed_badRequest⟩
  rw [handleRequest_eq]
  cases route req.uri_ with
  | reject => exact framed_badRequest
  | page => exact framed_setHeaders rep _ _
  | giveMeValues => exact framed_setHeaders rep _ _
  | updateValues => exact framed_setHeaders rep _ _
  | file request_path =>
    dsimp only
    cases env.openFile (cStr (h.doc_root_ ++ request_path)) with
    | none => exact framed_notFound
    | some file => exact framed_setHeaders rep _ _

end Unichannel
