/-
# The header writer and the header reader agree

What `HttpReply::to_buffers` writes after the status line is read by the parser, from
the start of a header line, as the headers of the reply: it answers good at the first
byte of the content, whatever the content is.

A header of a reply is a written header without continuation lines, so the pieces of
the round trip of requests apply.
-/
import Unichannel.RequestRoundTrip
import Unichannel.StoredFields
import Unichannel.HttpReply

open Scanner

namespace Unichannel

namespace HttpReply

/-- The bytes that `to_buffers` emits after the status line. -/
def afterStatusLine (rep : HttpReply) : Bytes := rep.toBuffers.tail.flatten

/-- Behind the status line come the header lines, an empty line and the content. -/
theorem afterStatusLine_eq (rep : HttpReply) :
    rep.afterStatusLine = rep.headers_.flatMap headerLine ++ (crlf ++ rep.content_) := by
  have hwire := rep.wire_eq
  have hsplit : rep.wire = StatusStrings.toBuffer rep.status_ ++ rep.afterStatusLine := rfl
  rw [hsplit, List.append_assoc, List.append_assoc] at hwire
  exact List.append_cancel_left hwire

end HttpReply

/-- A header on one line. -/
def StoredHeader.folded {h : HttpHeader} (hh : StoredHeader h) : FoldedHeader where
  name := h.name
  first := h.value
  folds := []
  name_ne_nil := hh.name_ne_nil
  name_token := hh.name_token
  first_text := hh.value_text
  blanks_ne_nil := fun _ h => absurd h List.not_mem_nil
  blanks_lws := fun _ h => absurd h List.not_mem_nil
  segment_text := fun _ h => absurd h List.not_mem_nil
  segment_head := fun _ h => absurd h List.not_mem_nil

/-- A header is written on one line. -/
theorem StoredHeader.folded_text {h : HttpHeader} (hh : StoredHeader h) :
    hh.folded.text = HttpReply.headerLine h := by
  rw [FoldedHeader.text, HttpReply.headerLine]
  show h.name ++ str ": " ++ h.value ++ crlf ++ [] = _
  rw [List.append_nil]
  rfl

theorem StoredHeader.folded_header {h : HttpHeader} (hh : StoredHeader h) :
    hh.folded.header = h := by
  rw [FoldedHeader.header]
  show (⟨h.name, h.value ++ []⟩ : HttpHeader) = h
  rw [List.append_nil]

/-- A header line of a reply is read as one more header. -/
theorem StoredHeader.feeds (req : HttpRequest) (hs : List HttpHeader) {h : HttpHeader}
    (hh : StoredHeader h) :
    parserScanner.Feeds (.headerLineStart, { req with headers_ := hs }) (HttpReply.headerLine h)
      (.headerLineStart, { req with headers_ := hs ++ [h] }) := by
  have hfeeds := hh.folded.feeds req hs
  rw [hh.folded_text, hh.folded_header] at hfeeds
  exact hfeeds

/-- The header lines of a reply, one after the other. -/
theorem feeds_headerLines (req : HttpRequest) (done todo : List HttpHeader)
    (htodo : ∀ h ∈ todo, StoredHeader h) :
    parserScanner.Feeds (.headerLineStart, { req with headers_ := done })
      (todo.flatMap HttpReply.headerLine)
      (.headerLineStart, { req with headers_ := done ++ todo }) := by
  induction todo generalizing done with
  | nil =>
    rw [List.append_nil]
    exact Feeds.nil _
  | cons h todo ih =>
    have hhead := (htodo h List.mem_cons_self).feeds req done
    have hrest := ih (done ++ [h]) fun g hg => htodo g (List.mem_cons_of_mem h hg)
    rw [List.append_assoc] at hrest
    exact hhead.append hrest

/-- **The writer and the reader agree.**  Let the names of a reply's headers be
nonempty strings of token bytes and their values hold no control byte.  From the start
of a header line and without headers, the parser answers good on what is written after
the status line, stops in front of the content, and holds the reply's headers. -/
theorem parse_afterStatusLine (rep : HttpReply) (req : HttpRequest) (hreq : req.headers_ = [])
    (hrep : ∀ h ∈ rep.headers_, StoredHeader h) :
    parse .headerLineStart req rep.afterStatusLine
        = ⟨.good, rep.afterStatusLine.length - rep.content_.length, .expectingNewline3,
          { req with headers_ := rep.headers_ }⟩
      ∧ rep.afterStatusLine.drop (parse .headerLineStart req rep.afterStatusLine).begin
        = rep.content_ := by
  have hlines := feeds_headerLines req [] rep.headers_ hrep
  rw [List.nil_append, ← hreq] at hlines
  have hlength : rep.afterStatusLine.length
      = (rep.headers_.flatMap HttpReply.headerLine).length + 2 + rep.content_.length := by
    rw [rep.afterStatusLine_eq, List.length_append, List.length_append, Nat.add_assoc]
    rfl
  have hparse : parse .headerLineStart req rep.afterStatusLine
      = ⟨.good, (rep.headers_.flatMap HttpReply.headerLine).length + 2, .expectingNewline3,
        { req with headers_ := rep.headers_ }⟩ := by
    rw [parse_eq_scan, rep.afterStatusLine_eq]
    rw [show parserScanner.scan (.headerLineStart, req) _ = _ from hlines.scan_append _,
      scan_final_crlf]
    rfl
  constructor
  · rw [hparse, hlength, Nat.add_sub_cancel]
  · rw [hparse]
    -- the two bytes behind the header lines are the empty line
    show rep.afterStatusLine.drop _ = _
    rw [rep.afterStatusLine_eq, ← List.append_assoc]
    exact List.drop_left' (List.length_append ..)

/-- An empty value, a value that starts with blanks and colons, and content that looks
like a folded header. -/
theorem parse_afterStatusLine_example :
    (parse .headerLineStart (.fresh 0 0) (HttpReply.afterStatusLine
        ⟨.ok, [⟨str "A", []⟩, ⟨str "B", str " : c"⟩], str " d\r\n\r\n"⟩)).req.headers_
      = [⟨str "A", []⟩, ⟨str "B", str " : c"⟩] := by
  have hrep : ∀ h ∈ [⟨str "A", []⟩, (⟨str "B", str " : c"⟩ : HttpHeader)], StoredHeader h := by
    intro h hh
    rcases List.mem_cons.mp hh with rfl | hh
    · exact ⟨by decide +kernel, by decide +kernel, by decide +kernel⟩
    · rw [List.mem_singleton.mp hh]
      exact ⟨by decide +kernel, by decide +kernel, by decide +kernel⟩
  rw [(parse_afterStatusLine ⟨.ok, _, str " d\r\n\r\n"⟩ (.fresh 0 0) rfl hrep).1]

end Unichannel
