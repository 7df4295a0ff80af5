/-
# Written requests are read back

A request written with any leading zeros in its version and any folding of its
header values is read back by the parser as the request that was written, and
the iterator stops at the first byte after it.

The proof follows the text: each piece of it (the method, the URI, a version
number, a header line, a continuation line) feeds the automaton from the state
in front of it to the state behind it (`Scanner.Feeds`), and the pieces are
composed with `Feeds.append`.
-/
import Unichannel.ParserMoves

open Scanner

namespace Unichannel

/-! ## Requests as they are written -/

/-- A header as it is written: its value is `first` and then one segment for
each continuation line, which starts with blanks. -/
structure FoldedHeader where
  name : Bytes
  first : Bytes
  /-- The blanks and the segment of each continuation line. -/
  folds : List (Bytes × Bytes)
  name_ne_nil : name ≠ []
  name_token : ∀ b ∈ name, TokenByte b
  first_text : ∀ b ∈ first, TextByte b
  blanks_ne_nil : ∀ f ∈ folds, f.1 ≠ []
  blanks_lws : ∀ f ∈ folds, ∀ b ∈ f.1, LwsByte b
  segment_text : ∀ f ∈ folds, ∀ b ∈ f.2, TextByte b
  segment_head : ∀ f ∈ folds, f.2.head? ≠ some (ch ' ')

/-- The text of a continuation line. -/
def foldText (f : Bytes × Bytes) : Bytes := f.1 ++ f.2 ++ crlf

/-- The text of a header with its continuation lines. -/
def FoldedHeader.text (h : FoldedHeader) : Bytes :=
  h.name ++ str ": " ++ h.first ++ crlf ++ h.folds.flatMap foldText

/-- The header that is written. -/
def FoldedHeader.header (h : FoldedHeader) : HttpHeader :=
  ⟨h.name, h.first ++ h.folds.flatMap (·.2)⟩

/-- A number written with `zeros` leading zeros. -/
def versionText (zeros n : ℕ) : Bytes := (List.replicate zeros 0 ++ Decimal.digits n).map digitByte

/-- A request as it is written. -/
structure RequestText where
  method : Bytes
  uri : Bytes
  majorZeros : ℕ
  major : ℕ
  minorZeros : ℕ
  minor : ℕ
  headers : List FoldedHeader
  method_ne_nil : method ≠ []
  method_token : ∀ b ∈ method, TokenByte b
  uri_uriByte : ∀ b ∈ uri, UriByte b
  major_lt : major < 10 ^ 9
  minor_lt : minor < 10 ^ 9

/-- The bytes of a request. -/
def RequestText.text (r : RequestText) : Bytes :=
  r.method ++ str " " ++ r.uri ++ str " " ++ str "HTTP/" ++ versionText r.majorZeros r.major
    ++ str "." ++ versionText r.minorZeros r.minor ++ crlf
    ++ r.headers.flatMap FoldedHeader.text ++ crlf

/-- The request that is written. -/
def RequestText.request (r : RequestText) : HttpRequest :=
  ⟨r.method, r.uri, r.major, r.minor, r.headers.map FoldedHeader.header⟩

/-! ## The request line -/

/-- A byte of a class is not a byte outside of it. -/
theorem ne_of_class {p : Byte → Prop} {b c : Byte} (hb : p b) (hc : ¬ p c) : b ≠ c :=
  fun h => hc (h ▸ hb)

/-- Bytes pushed one after the other are appended to the method. -/
theorem foldl_pushMethod (req : HttpRequest) (m : Bytes) :
    m.foldl HttpRequest.pushMethod req = { req with method_ := req.method_ ++ m } := by
  induction m generalizing req with
  | nil => simp
  | cons b m ih => simp [ih, HttpRequest.pushMethod]

theorem foldl_pushUri (req : HttpRequest) (u : Bytes) :
    u.foldl HttpRequest.pushUri req = { req with uri_ := req.uri_ ++ u } := by
  induction u generalizing req with
  | nil => simp
  | cons b u ih => simp [ih, HttpRequest.pushUri]

/-- The parser takes the rest of a method. -/
theorem feeds_method (req : HttpRequest) (m : Bytes) (hm : ∀ b ∈ m, TokenByte b) :
    parserScanner.Feeds (.method, req) m (.method, { req with method_ := req.method_ ++ m }) := by
  rw [← foldl_pushMethod]
  refine Feeds.foldl (s := fun r => (State.method, r)) (fun r b hb => ?_) req m hm
  rw [step_method, if_neg (ne_of_class hb (by decide)), if_pos hb]

/-- It takes a whole method from the start. -/
theorem feeds_methodStart (req : HttpRequest) (m : Bytes) (hne : m ≠ [])
    (hm : ∀ b ∈ m, TokenByte b) :
    parserScanner.Feeds (.methodStart, req) m
      (.method, { req with method_ := req.method_ ++ m }) := by
  obtain ⟨b, m, rfl⟩ := List.exists_cons_of_ne_nil hne
  have hb : TokenByte b := hm b List.mem_cons_self
  have hstep : parserScanner.step (.methodStart, req) b = goesTo .method (req.pushMethod b) := by
    rw [step_methodStart, if_pos hb]
  have hrest := feeds_method (req.pushMethod b) m (fun c hc => hm c (List.mem_cons_of_mem b hc))
  have h := Feeds.cons hstep hrest
  simpa [HttpRequest.pushMethod] using h

/-- It takes a URI. -/
theorem feeds_uri (req : HttpRequest) (u : Bytes) (hu : ∀ b ∈ u, UriByte b) :
    parserScanner.Feeds (.uri, req) u (.uri, { req with uri_ := req.uri_ ++ u }) := by
  rw [← foldl_pushUri]
  refine Feeds.foldl (s := fun r => (State.uri, r)) (fun r b hb => ?_) req u hu
  rw [step_uri, if_neg hb.2, if_neg hb.1]

/-- The bytes of a request line in front of its version. -/
def lineHead (method uri : Bytes) : Bytes := method ++ str " " ++ uri ++ str " " ++ str "HTTP/"

/-- They feed the automaton up to the first number. -/
theorem feeds_lineHead (maj min : ℤ) {method uri : Bytes} (hne : method ≠ [])
    (hmethod : ∀ b ∈ method, TokenByte b) (huri : ∀ b ∈ uri, UriByte b) :
    parserScanner.Feeds (.methodStart, .fresh maj min) (lineHead method uri)
      (.httpVersionMajorStart, ⟨method, uri, 0, 0, []⟩) := by
  have hm := feeds_methodStart (.fresh maj min) method hne hmethod
  have hsp₁ : parserScanner.Feeds (.method, ⟨method, [], maj, min, []⟩) (str " ")
      (.uri, ⟨method, [], maj, min, []⟩) := Feeds.single rfl
  have hu := feeds_uri ⟨method, [], maj, min, []⟩ uri huri
  have hsp₂ : parserScanner.Feeds (.uri, ⟨method, uri, maj, min, []⟩) (str " ")
      (.httpVersionH, ⟨method, uri, maj, min, []⟩) := Feeds.single rfl
  have hhttp : parserScanner.Feeds (.httpVersionH, ⟨method, uri, maj, min, []⟩) (str "HTTP/")
      (.httpVersionMajorStart, ⟨method, uri, 0, 0, []⟩) := rfl
  exact (((hm.append hsp₁).append hu).append hsp₂).append hhttp

/-! ## Version numbers -/

/-- The digit `d` as a `char`. -/
theorem charToInt_digitByte {d : ℕ} (hd : d < 10) : charToInt (digitByte d) = 48 + d := by
  have hnat := toNat_digitByte hd
  rw [charToInt_of_lt (by omega), hnat]
  push_cast
  rfl

/-- A written digit is one that the parser takes. -/
theorem digitByte_digit {d : ℕ} (hd : d < 10) : DigitByte (digitByte d) := by
  have hnat := toNat_digitByte hd
  have h0 : (ch '0').toNat = 48 := by decide
  have h9 : (ch '9').toNat = 57 := by decide
  rw [DigitByte, hnat, h0, h9]
  omega

/-- Small numbers do not wrap around. -/
theorem toInt32_of_lt {v : ℤ} (h0 : 0 ≤ v) (h : v < 2 ^ 31) : toInt32 v = v := by
  unfold toInt32
  rw [Int.bmod_eq_of_le] <;> omega

/-- As long as the number stays small, a digit is pushed as in the decimal system. -/
theorem pushDigit_digitByte {a d : ℕ} (hd : d < 10) (h : a * 10 + d < 2 ^ 31) :
    pushDigit a (digitByte d) = ((a * 10 + d : ℕ) : ℤ) := by
  have hzero : charToInt (ch '0') = 48 := by decide
  have hsum : (a : ℤ) * 10 + (48 + d) - 48 = ((a * 10 + d : ℕ) : ℤ) := by
    push_cast
    ring
  rw [pushDigit, charToInt_digitByte hd, hzero, hsum]
  exact toInt32_of_lt (by omega) (by omega)

/-- As long as the number is an `int` no digit overflows. -/
theorem foldl_pushDigit (a : ℕ) (ds : List ℕ) (hds : ∀ d ∈ ds, d < 10)
    (h : Decimal.value a ds < 2 ^ 31) :
    (ds.map digitByte).foldl pushDigit (a : ℤ) = Decimal.value a ds := by
  induction ds generalizing a with
  | nil => rfl
  | cons d ds ih =>
    -- what has been read is never more than the whole number
    have hle := Decimal.le_value (a * 10 + d) ds
    rw [Decimal.value_cons] at h
    rw [List.map_cons, List.foldl_cons,
      pushDigit_digitByte (hds d List.mem_cons_self) (by omega),
      ih (a * 10 + d) (fun e he => hds e (List.mem_cons_of_mem d he)) h, Decimal.value_cons]

/-- A version number has at least one digit. -/
theorem versionText_ne_nil (zeros n : ℕ) : versionText zeros n ≠ [] := by
  simp [versionText, Decimal.digits_ne_nil]

/-- The digits of a number are digits, leading zeros included. -/
theorem lt_ten_of_mem_zeros_append {zeros n d : ℕ}
    (hd : d ∈ List.replicate zeros 0 ++ Decimal.digits n) : d < 10 := by
  rcases List.mem_append.mp hd with h | h
  · rw [List.eq_of_mem_replicate h]
    omega
  · exact Decimal.lt_ten_of_mem_digits h

/-- A version number is written in digits. -/
theorem versionText_digit (zeros n : ℕ) : ∀ b ∈ versionText zeros n, DigitByte b := by
  intro b hb
  obtain ⟨d, hd, rfl⟩ := List.mem_map.mp hb
  exact digitByte_digit (lt_ten_of_mem_zeros_append hd)

/-- The parser's arithmetic reads a version number below 10^9 exactly. -/
theorem foldl_pushDigit_versionText (zeros n : ℕ) (h : n < 10 ^ 9) :
    (versionText zeros n).foldl pushDigit 0 = n := by
  have hval : Decimal.value 0 (List.replicate zeros 0 ++ Decimal.digits n) = n := by
    rw [Decimal.value_zeros_append, Decimal.value_digits]
  have hfold := foldl_pushDigit 0 (List.replicate zeros 0 ++ Decimal.digits n)
    (fun d hd => lt_ten_of_mem_zeros_append hd) (by rw [hval]; omega)
  rw [hval] at hfold
  exact hfold

/-- Digits are read one by one, from the state in front of the first to the one that
holds what they add up to. -/
theorem feeds_digits {start : State × HttpRequest} {s : ℤ → State × HttpRequest}
    (hstart : ∀ b, DigitByte b → parserScanner.step start b = (s (pushDigit 0 b), none))
    (hstep : ∀ v b, DigitByte b → parserScanner.step (s v) b = (s (pushDigit v b), none))
    (w : Bytes) (hne : w ≠ []) (hw : ∀ b ∈ w, DigitByte b) :
    parserScanner.Feeds start w (s (w.foldl pushDigit 0)) := by
  obtain ⟨b, ds, rfl⟩ := List.exists_cons_of_ne_nil hne
  have hrest := Feeds.foldl hstep (pushDigit 0 b) ds
    (fun c hc => hw c (List.mem_cons_of_mem b hc))
  exact Feeds.cons (hstart b (hw b List.mem_cons_self)) hrest

/-- The parser takes the digits of the major version. -/
theorem feeds_majorDigits (req : HttpRequest) (w : Bytes) (hne : w ≠ [])
    (hw : ∀ b ∈ w, DigitByte b) :
    parserScanner.Feeds (.httpVersionMajorStart, { req with httpMajorVer_ := 0 }) w
      (.httpVersionMajor, { req with httpMajorVer_ := w.foldl pushDigit 0 }) := by
  refine feeds_digits
    (s := fun v => (State.httpVersionMajor, { req with httpMajorVer_ := v })) ?_ ?_ w hne hw
  · intro b hb
    rw [step_httpVersionMajorStart, if_pos hb]
  · intro v b hb
    rw [step_httpVersionMajor, if_neg (ne_of_class hb (by decide)), if_pos hb]

theorem feeds_minorDigits (req : HttpRequest) (w : Bytes) (hne : w ≠ [])
    (hw : ∀ b ∈ w, DigitByte b) :
    parserScanner.Feeds (.httpVersionMinorStart, { req with httpMinorVer_ := 0 }) w
      (.httpVersionMinor, { req with httpMinorVer_ := w.foldl pushDigit 0 }) := by
  refine feeds_digits
    (s := fun v => (State.httpVersionMinor, { req with httpMinorVer_ := v })) ?_ ?_ w hne hw
  · intro b hb
    rw [step_httpVersionMinorStart, if_pos hb]
  · intro v b hb
    rw [step_httpVersionMinor, if_neg (ne_of_class hb (by decide)), if_pos hb]

/-- A major version that was written is read back. -/
theorem feeds_major (req : HttpRequest) (zeros n : ℕ) (h : n < 10 ^ 9) :
    parserScanner.Feeds (.httpVersionMajorStart, { req with httpMajorVer_ := 0 })
      (versionText zeros n) (.httpVersionMajor, { req with httpMajorVer_ := n }) := by
  have hdigits := feeds_majorDigits req (versionText zeros n) (versionText_ne_nil zeros n)
    (versionText_digit zeros n)
  rw [foldl_pushDigit_versionText zeros n h] at hdigits
  exact hdigits

theorem feeds_minor (req : HttpRequest) (zeros n : ℕ) (h : n < 10 ^ 9) :
    parserScanner.Feeds (.httpVersionMinorStart, { req with httpMinorVer_ := 0 })
      (versionText zeros n) (.httpVersionMinor, { req with httpMinorVer_ := n }) := by
  have hdigits := feeds_minorDigits req (versionText zeros n) (versionText_ne_nil zeros n)
    (versionText_digit zeros n)
  rw [foldl_pushDigit_versionText zeros n h] at hdigits
  exact hdigits

/-! ## Header lines -/

section Headers

variable (req : HttpRequest) (hs : List HttpHeader) (h : HttpHeader)

/-- The request while `h` is its last header. -/
abbrev withLast : HttpRequest := { req with headers_ := hs ++ [h] }

/-- A byte of a name goes to the last header. -/
theorem pushName_withLast (b : Byte) :
    (withLast req hs h).pushName b = withLast req hs { h with name := h.name ++ [b] } := by
  simp [HttpRequest.pushName, HttpRequest.onBack]

/-- A byte of a value goes to the last header. -/
theorem pushValue_withLast (b : Byte) :
    (withLast req hs h).pushValue b = withLast req hs { h with value := h.value ++ [b] } := by
  simp [HttpRequest.pushValue, HttpRequest.onBack]

/-- Bytes pushed one after the other are appended to the name. -/
theorem foldl_name (w : Bytes) :
    w.foldl (fun (g : HttpHeader) b => { g with name := g.name ++ [b] }) h
      = { h with name := h.name ++ w } := by
  induction w generalizing h with
  | nil => simp
  | cons b w ih => simp [ih]

theorem foldl_value (w : Bytes) :
    w.foldl (fun (g : HttpHeader) b => { g with value := g.value ++ [b] }) h
      = { h with value := h.value ++ w } := by
  induction w generalizing h with
  | nil => simp
  | cons b w ih => simp [ih]

/-- The parser takes the rest of a name. -/
theorem feeds_headerName (w : Bytes) (hw : ∀ b ∈ w, TokenByte b) :
    parserScanner.Feeds (.headerName, withLast req hs h) w
      (.headerName, withLast req hs { h with name := h.name ++ w }) := by
  rw [← foldl_name]
  refine Feeds.foldl (s := fun g => (State.headerName, withLast req hs g)) (fun g b hb => ?_) h w hw
  rw [step_headerName, if_neg (ne_of_class hb (by decide)), if_pos hb, pushName_withLast]

/-- It takes a value, or a part of it. -/
theorem feeds_headerValue (w : Bytes) (hw : ∀ b ∈ w, TextByte b) :
    parserScanner.Feeds (.headerValue, withLast req hs h) w
      (.headerValue, withLast req hs { h with value := h.value ++ w }) := by
  rw [← foldl_value]
  refine Feeds.foldl (s := fun g => (State.headerValue, withLast req hs g)) (fun g b hb => ?_) h w
    hw
  rw [step_headerValue, if_neg (ne_of_class hb (by decide)), if_neg hb, pushValue_withLast]

/-- It skips the blanks a folded line starts with. -/
theorem feeds_headerLws (w : Bytes) (hw : ∀ b ∈ w, LwsByte b) :
    parserScanner.Feeds (.headerLws, req) w (.headerLws, req) := by
  have hloop := Feeds.foldl (M := parserScanner) (p := LwsByte) (f := fun r _ => r)
    (s := fun _ : Unit => (State.headerLws, req)) (fun _ b hb => ?_) () w hw
  · exact hloop
  · rw [step_headerLws, if_neg (ne_of_class hb (by decide)), if_pos hb]

/-- A line end is read to the start of the next line from any state that takes
its first byte. -/
theorem feeds_crlf {state_ : State}
    (hcr : parserScanner.step (state_, req) (ch '\r') = ((.expectingNewline2, req), none)) :
    parserScanner.Feeds (state_, req) crlf (.headerLineStart, req) := by
  have hlf : parserScanner.step (.expectingNewline2, req) (ch '\n')
      = ((.headerLineStart, req), none) := rfl
  exact Feeds.cons hcr (Feeds.single hlf)

/-- A header name at the start of a line opens a new header. -/
theorem feeds_open (w : Bytes) (hne : w ≠ []) (hw : ∀ b ∈ w, TokenByte b) :
    parserScanner.Feeds (.headerLineStart, { req with headers_ := hs }) w
      (.headerName, withLast req hs ⟨w, []⟩) := by
  obtain ⟨b, w, rfl⟩ := List.exists_cons_of_ne_nil hne
  have hb : TokenByte b := hw b List.mem_cons_self
  -- a token byte neither ends the block nor continues the header before it
  have hlws : ¬ LwsByte b := by
    rintro (rfl | rfl) <;> exact absurd hb (by decide)
  have hstep : parserScanner.step (.headerLineStart, { req with headers_ := hs }) b
      = goesTo .headerName (withLast req hs ⟨[b], []⟩) := by
    rw [step_headerLineStart, if_neg (ne_of_class hb (by decide)), if_neg (fun h => hlws h.2),
      if_pos hb]
    simp [HttpRequest.pushHeader, HttpRequest.pushName, HttpRequest.onBack, HttpHeader.empty]
  have hrest := feeds_headerName req hs ⟨[b], []⟩ w (fun c hc => hw c (List.mem_cons_of_mem b hc))
  exact Feeds.cons hstep hrest

/-- A continuation line appends its segment to the last header. -/
theorem feeds_fold (f : Bytes × Bytes) (hne : f.1 ≠ []) (hlws : ∀ b ∈ f.1, LwsByte b)
    (htext : ∀ b ∈ f.2, TextByte b) (hhead : f.2.head? ≠ some (ch ' ')) :
    parserScanner.Feeds (.headerLineStart, withLast req hs h) (foldText f)
      (.headerLineStart, withLast req hs { h with value := h.value ++ f.2 }) := by
  obtain ⟨blanks, segment⟩ := f
  obtain ⟨b, blanks, rfl⟩ := List.exists_cons_of_ne_nil hne
  have hb : LwsByte b := hlws b List.mem_cons_self
  have hstep : parserScanner.step (.headerLineStart, withLast req hs h) b
      = goesTo .headerLws (withLast req hs h) := by
    rw [step_headerLineStart, if_neg (ne_of_class hb (by decide)), if_pos ⟨by simp, hb⟩]
  have hblanks := Feeds.cons hstep (feeds_headerLws (withLast req hs h) blanks
    (fun c hc => hlws c (List.mem_cons_of_mem b hc)))
  -- the segment is empty, or its first byte moves the automaton into the value
  have hsegment : parserScanner.Feeds (.headerLws, withLast req hs h) (segment ++ crlf)
      (.headerLineStart, withLast req hs { h with value := h.value ++ segment }) := by
    cases segment with
    | nil =>
      rw [List.append_nil]
      exact feeds_crlf _ rfl
    | cons c segment =>
      have hc : TextByte c := htext c List.mem_cons_self
      have hclws : ¬ LwsByte c := by
        rintro (rfl | rfl)
        · exact hhead rfl
        · exact hc (by decide)
      have hstart : parserScanner.step (.headerLws, withLast req hs h) c
          = goesTo .headerValue (withLast req hs { h with value := h.value ++ [c] }) := by
        rw [step_headerLws, if_neg (ne_of_class hc (by decide)), if_neg hclws, if_neg hc,
          pushValue_withLast]
      have hvalue := feeds_headerValue req hs { h with value := h.value ++ [c] } segment
        (fun d hd => htext d (List.mem_cons_of_mem c hd))
      have hall := (Feeds.cons hstart hvalue).append (feeds_crlf _ rfl)
      simpa using hall
  rw [foldText, List.append_assoc]
  exact hblanks.append hsegment

end Headers

/-- All continuation lines of a header. -/
theorem feeds_folds (req : HttpRequest) (hs : List HttpHeader) (h : HttpHeader)
    (fs : List (Bytes × Bytes)) (hne : ∀ f ∈ fs, f.1 ≠ []) (hlws : ∀ f ∈ fs, ∀ b ∈ f.1, LwsByte b)
    (htext : ∀ f ∈ fs, ∀ b ∈ f.2, TextByte b) (hhead : ∀ f ∈ fs, f.2.head? ≠ some (ch ' ')) :
    parserScanner.Feeds (.headerLineStart, withLast req hs h) (fs.flatMap foldText)
      (.headerLineStart, withLast req hs { h with value := h.value ++ fs.flatMap (·.2) }) := by
  induction fs generalizing h with
  | nil =>
    rw [List.flatMap_nil, List.flatMap_nil, List.append_nil]
    exact Feeds.nil _
  | cons f fs ih =>
    have hf := feeds_fold req hs h f (hne f List.mem_cons_self) (hlws f List.mem_cons_self)
      (htext f List.mem_cons_self) (hhead f List.mem_cons_self)
    have hrest := ih { h with value := h.value ++ f.2 }
      (fun g hg => hne g (List.mem_cons_of_mem f hg))
      (fun g hg => hlws g (List.mem_cons_of_mem f hg))
      (fun g hg => htext g (List.mem_cons_of_mem f hg))
      (fun g hg => hhead g (List.mem_cons_of_mem f hg))
    rw [List.flatMap_cons, List.flatMap_cons, ← List.append_assoc]
    exact hf.append hrest

/-- A written header is read as one more header. -/
theorem FoldedHeader.feeds (req : HttpRequest) (hs : List HttpHeader) (h : FoldedHeader) :
    parserScanner.Feeds (.headerLineStart, { req with headers_ := hs }) h.text
      (.headerLineStart, { req with headers_ := hs ++ [h.header] }) := by
  have hname := feeds_open req hs h.name h.name_ne_nil h.name_token
  have hsep : parserScanner.Feeds (.headerName, withLast req hs ⟨h.name, []⟩) (str ": ")
      (.headerValue, withLast req hs ⟨h.name, []⟩) := by
    have hcolon : parserScanner.step (.headerName, withLast req hs ⟨h.name, []⟩) (ch ':')
        = ((.spaceBeforeHeaderValue, withLast req hs ⟨h.name, []⟩), none) := rfl
    exact Feeds.cons hcolon (Feeds.single rfl)
  have hfirst := feeds_headerValue req hs ⟨h.name, []⟩ h.first h.first_text
  have hfolds := feeds_folds req hs ⟨h.name, h.first⟩ h.folds h.blanks_ne_nil h.blanks_lws
    h.segment_text h.segment_head
  exact (((hname.append hsep).append hfirst).append (feeds_crlf _ rfl)).append hfolds

/-- The whole header block, header by header. -/
theorem feeds_headers (req : HttpRequest) (hs : List HttpHeader) (fs : List FoldedHeader) :
    parserScanner.Feeds (.headerLineStart, { req with headers_ := hs })
      (fs.flatMap FoldedHeader.text)
      (.headerLineStart, { req with headers_ := hs ++ fs.map FoldedHeader.header }) := by
  induction fs generalizing hs with
  | nil =>
    rw [List.map_nil, List.append_nil]
    exact Feeds.nil _
  | cons f fs ih =>
    have hrest := ih (hs ++ [f.header])
    rw [List.append_assoc] at hrest
    exact (f.feeds req hs).append hrest

/-! ## The whole request -/

/-- The request line feeds the automaton up to the start of the first header. -/
theorem RequestText.feeds_requestLine (r : RequestText) (maj min : ℤ) :
    parserScanner.Feeds (.methodStart, .fresh maj min)
      (r.method ++ str " " ++ r.uri ++ str " " ++ str "HTTP/"
        ++ versionText r.majorZeros r.major ++ str "." ++ versionText r.minorZeros r.minor ++ crlf)
      (.headerLineStart, ⟨r.method, r.uri, r.major, r.minor, []⟩) := by
  have hhead := feeds_lineHead maj min r.method_ne_nil r.method_token r.uri_uriByte
  have hmajor := feeds_major ⟨r.method, r.uri, 0, 0, []⟩ r.majorZeros r.major r.major_lt
  have hdot : parserScanner.Feeds (.httpVersionMajor, ⟨r.method, r.uri, r.major, 0, []⟩) (str ".")
      (.httpVersionMinorStart, ⟨r.method, r.uri, r.major, 0, []⟩) := Feeds.single rfl
  have hminor :=
    feeds_minor ⟨r.method, r.uri, r.major, 0, []⟩ r.minorZeros r.minor r.minor_lt
  have hcrlf : parserScanner.Feeds
      (.httpVersionMinor, ⟨r.method, r.uri, r.major, r.minor, []⟩) crlf
      (.headerLineStart, ⟨r.method, r.uri, r.major, r.minor, []⟩) := rfl
  exact (((hhead.append hmajor).append hdot).append hminor).append hcrlf

/-- The final line end is answered with good. -/
theorem scan_final_crlf (req : HttpRequest) (t : Bytes) :
    parserScanner.scan (.headerLineStart, req) (crlf ++ t)
      = ⟨(.expectingNewline3, req), some .good, 2⟩ := rfl

/-- **Round trip.**  Parsing a written request followed by any bytes answers
good at the first of these bytes and yields exactly the written request. -/
theorem parse_text (r : RequestText) (maj min : ℤ) (t : Bytes) :
    parse .methodStart (.fresh maj min) (r.text ++ t)
      = ⟨.good, r.text.length, .expectingNewline3, r.request⟩ := by
  have hline := r.feeds_requestLine maj min
  have hheaders := feeds_headers ⟨r.method, r.uri, r.major, r.minor, []⟩ [] r.headers
  have hall := hline.append hheaders
  rw [parse_eq_scan, RequestText.text, List.append_assoc _ crlf t, hall.scan_append,
    scan_final_crlf]
  simp [Parsed.ofOutcome, Outcome.shift, RequestText.request, crlf]
  omega

/-- The segment of a continuation line goes to the header before it. -/
example : (parse .methodStart (.fresh 7 7)
    (str "GET / HTTP/1.01\r\nA: b\r\n\tc\r\nD: \r\n\r\nrest")).req
      = ⟨str "GET", str "/", 1, 1, [⟨str "A", str "bc"⟩, ⟨str "D", []⟩]⟩ := by
  decide +kernel

end Unichannel
