/-
# What the parser stores

Whatever bytes arrive, and however they are cut into calls of `parse`, the fields of
the request hold only bytes of their class, and a header exists in every state from
which `consume` appends to the last one (`WellStored`).  This is kept by every
step, also by one that answers good or bad, so it holds however long the same parser
and request are used.
-/
import Unichannel.ParserMoves

namespace Unichannel

/-! ## Well-stored requests -/

/-- A header as the parser may leave it: its name is not empty. -/
structure StoredHeader (h : HttpHeader) : Prop where
  name_ne_nil : h.name ≠ []
  name_token : ∀ b ∈ h.name, TokenByte b
  value_text : ∀ b ∈ h.value, TextByte b

/-- A token byte can be appended to the name of a header. -/
theorem StoredHeader.appendName {h : HttpHeader} (hh : StoredHeader h) {b : Byte}
    (hb : TokenByte b) : StoredHeader { h with name := h.name ++ [b] } where
  name_ne_nil := by simp
  name_token := forall_mem_concat hh.name_token hb
  value_text := hh.value_text

theorem StoredHeader.appendValue {h : HttpHeader} (hh : StoredHeader h) {b : Byte}
    (hb : TextByte b) : StoredHeader { h with value := h.value ++ [b] } where
  name_ne_nil := hh.name_ne_nil
  name_token := hh.name_token
  value_text := forall_mem_concat hh.value_text hb

/-- The states inside a header and behind one. -/
def State.hasHeader : State → Bool
  | .headerLws => true
  | .headerName => true
  | .spaceBeforeHeaderValue => true
  | .headerValue => true
  | .expectingNewline2 => true
  | _ => false

/-- The vector on which `consume` calls `back()` in a state, if it may call it
there: at the start of a line this is after the `push_back`. -/
def backOperand (state_ : State) (req : HttpRequest) : Option (List HttpHeader) :=
  match state_ with
  | .headerLineStart => some req.pushHeader.headers_
  | .headerLws => some req.headers_
  | .headerName => some req.headers_
  | .headerValue => some req.headers_
  | _ => none

/-- What holds of the parser's state and the request between two bytes. -/
structure WellStored (state_ : State) (req : HttpRequest) : Prop where
  headers_ne_nil : state_.hasHeader = true → req.headers_ ≠ []
  method_ne_nil_iff : req.method_ ≠ [] ↔ state_ ≠ .methodStart
  method_token : ∀ b ∈ req.method_, TokenByte b
  uri_uriByte : ∀ b ∈ req.uri_, UriByte b
  headers_stored : ∀ h ∈ req.headers_, StoredHeader h

/-- The bytes stored in a request. -/
def HttpRequest.stored (req : HttpRequest) : Bytes :=
  req.method_ ++ req.uri_ ++ req.headers_.flatMap fun h => h.name ++ h.value

/-- Token bytes are no control bytes. -/
theorem TokenByte.text {b : Byte} (h : TokenByte b) : TextByte b := h.2.1

theorem UriByte.text {b : Byte} (h : UriByte b) : TextByte b := h.1

namespace WellStored

variable {state_ : State} {req : HttpRequest} {b : Byte}

/-- A new request is well stored. -/
theorem fresh (maj min : ℤ) : WellStored .methodStart (.fresh maj min) where
  headers_ne_nil := fun h => absurd h (by decide)
  method_ne_nil_iff := iff_of_false (fun h => h rfl) (fun h => h rfl)
  method_token := fun _ h => absurd h List.not_mem_nil
  uri_uriByte := fun _ h => absurd h List.not_mem_nil
  headers_stored := fun _ h => absurd h List.not_mem_nil

/-! ### The updates of `consume` -/

/-- A move that leaves the request as it is. -/
theorem goes (h : WellStored state_ req) (state' : State) (hstart : state_ ≠ .methodStart)
    (hstart' : state' ≠ .methodStart)
    (hheader : state'.hasHeader = true → state_.hasHeader = true ∨ req.headers_ ≠ []) :
    WellStored state' req where
  headers_ne_nil := fun h' => (hheader h').elim h.headers_ne_nil id
  method_ne_nil_iff := iff_of_true (h.method_ne_nil_iff.mpr hstart) hstart'
  method_token := h.method_token
  uri_uriByte := h.uri_uriByte
  headers_stored := h.headers_stored

/-- It stays so with a byte of the method. -/
theorem pushMethod (h : WellStored state_ req) (hb : TokenByte b) :
    WellStored .method (req.pushMethod b) where
  headers_ne_nil := fun h' => absurd h' (by decide)
  method_ne_nil_iff := iff_of_true (List.append_ne_nil_of_right_ne_nil _ (by simp)) (by decide)
  method_token := forall_mem_concat h.method_token hb
  uri_uriByte := h.uri_uriByte
  headers_stored := h.headers_stored

theorem pushUri (h : WellStored .uri req) (hb : UriByte b) : WellStored .uri (req.pushUri b) where
  headers_ne_nil := fun h' => absurd h' (by decide)
  method_ne_nil_iff := h.method_ne_nil_iff
  method_token := h.method_token
  uri_uriByte := forall_mem_concat h.uri_uriByte hb
  headers_stored := h.headers_stored

/-- The versions are no fields of bytes. -/
theorem setVersions (h : WellStored state_ req) (state' : State) (hstart : state_ ≠ .methodStart)
    (hstart' : state' ≠ .methodStart) (hheader : state'.hasHeader = false) (maj min : ℤ) :
    WellStored state' { req with httpMajorVer_ := maj, httpMinorVer_ := min } where
  headers_ne_nil := fun h' => absurd (hheader.symm.trans h') Bool.false_ne_true
  method_ne_nil_iff := iff_of_true (h.method_ne_nil_iff.mpr hstart) hstart'
  method_token := h.method_token
  uri_uriByte := h.uri_uriByte
  headers_stored := h.headers_stored

/-- A header line starts with the first byte of a name. -/
theorem openHeader (h : WellStored .headerLineStart req) (hb : TokenByte b) :
    WellStored .headerName (req.pushHeader.pushName b) := by
  rw [HttpRequest.pushHeader_pushName]
  refine ⟨fun _ => by simp, iff_of_true (h.method_ne_nil_iff.mpr (by decide)) (by decide),
    h.method_token, h.uri_uriByte, forall_mem_concat h.headers_stored ?_⟩
  refine ⟨by simp, ?_, fun c hc => absurd hc List.not_mem_nil⟩
  intro c hc
  rw [List.mem_singleton.mp hc]
  exact hb

/-- An update of the last header that keeps it as it may be. -/
theorem onBack (h : WellStored state_ req) (state' : State)
    (hheader : state_.hasHeader = true) (hstart : state' ≠ .methodStart)
    {f : HttpHeader → HttpHeader}
    (hf : ∀ g, StoredHeader g → StoredHeader (f g)) : WellStored state' (req.onBack f) where
  headers_ne_nil := by
    intro _ hnil
    have hempty := HttpRequest.onBack_isEmpty f req
    rw [hnil, List.isEmpty_nil, eq_comm, List.isEmpty_iff] at hempty
    exact h.headers_ne_nil hheader hempty
  method_ne_nil_iff := by
    refine iff_of_true (h.method_ne_nil_iff.mpr ?_) hstart
    rintro rfl
    exact absurd hheader (by decide)
  method_token := h.method_token
  uri_uriByte := h.uri_uriByte
  headers_stored := by
    intro g hg
    rcases HttpRequest.mem_onBack hg with hg | ⟨k, hk, rfl⟩
    · exact h.headers_stored g hg
    · exact hf k (h.headers_stored k hk)

end WellStored

/-! ## Every byte keeps the request well stored -/

/-- **Step lemma**, whether the byte is answered or not. -/
theorem wellStored_step {state_ : State} {req : HttpRequest} (h : WellStored state_ req)
    (b : Byte) :
    WellStored (parserScanner.step (state_, req) b).1.1
      (parserScanner.step (state_, req) b).1.2 := by
  -- a move to a state that needs no header
  have hmove : ∀ state' : State, state_ ≠ .methodStart → state' ≠ .methodStart →
      state'.hasHeader = false → WellStored state' req := fun _ hstart hstart' hno =>
    h.goes _ hstart hstart' fun hheader => absurd (hno.symm.trans hheader) Bool.false_ne_true
  cases state_ with
  | methodStart =>
    rw [step_methodStart]
    split_ifs with hb
    · exact h.pushMethod hb
    · exact h
  | method =>
    rw [step_method]
    split_ifs with hsp hb
    · exact hmove .uri (by decide) (by decide) rfl
    · exact h.pushMethod hb
    · exact h
  | uri =>
    rw [step_uri]
    split_ifs with hsp hb
    · exact hmove .httpVersionH (by decide) (by decide) rfl
    · exact h
    · exact h.pushUri ⟨hb, hsp⟩
  | httpVersionH =>
    rw [step_httpVersionH]
    split_ifs
    · exact hmove .httpVersionT1 (by decide) (by decide) rfl
    · exact h
  | httpVersionT1 =>
    rw [step_httpVersionT1]
    split_ifs
    · exact hmove .httpVersionT2 (by decide) (by decide) rfl
    · exact h
  | httpVersionT2 =>
    rw [step_httpVersionT2]
    split_ifs
    · exact hmove .httpVersionP (by decide) (by decide) rfl
    · exact h
  | httpVersionP =>
    rw [step_httpVersionP]
    split_ifs
    · exact hmove .httpVersionSlash (by decide) (by decide) rfl
    · exact h
  | httpVersionSlash =>
    rw [step_httpVersionSlash]
    split_ifs
    · exact h.setVersions .httpVersionMajorStart (by decide) (by decide) rfl 0 0
    · exact h
  | httpVersionMajorStart =>
    rw [step_httpVersionMajorStart]
    split_ifs
    · exact h.setVersions .httpVersionMajor (by decide) (by decide) rfl _ _
    · exact h
  | httpVersionMajor =>
    rw [step_httpVersionMajor]
    split_ifs
    · exact hmove .httpVersionMinorStart (by decide) (by decide) rfl
    · exact h.setVersions .httpVersionMajor (by decide) (by decide) rfl _ _
    · exact h
  | httpVersionMinorStart =>
    rw [step_httpVersionMinorStart]
    split_ifs
    · exact h.setVersions .httpVersionMinor (by decide) (by decide) rfl _ _
    · exact h
  | httpVersionMinor =>
    rw [step_httpVersionMinor]
    split_ifs
    · exact hmove .expectingNewline1 (by decide) (by decide) rfl
    · exact h.setVersions .httpVersionMinor (by decide) (by decide) rfl _ _
    · exact h
  | expectingNewline1 =>
    rw [step_expectingNewline1]
    split_ifs
    · exact hmove .headerLineStart (by decide) (by decide) rfl
    · exact h
  | headerLineStart =>
    rw [step_headerLineStart]
    split_ifs with hcr hblank hb
    · exact hmove .expectingNewline3 (by decide) (by decide) rfl
    · -- a line is only taken as a continuation when there is a header
      refine h.goes .headerLws (by decide) (by decide) fun _ => Or.inr ?_
      rintro hnil
      rw [hnil] at hblank
      exact absurd hblank.1 (by decide)
    · exact h.openHeader hb
    · exact h
  | headerLws =>
    rw [step_headerLws]
    split_ifs with hcr hblank hctl
    · exact h.goes .expectingNewline2 (by decide) (by decide) fun _ => Or.inl rfl
    · exact h
    · exact h
    · exact h.onBack .headerValue rfl (by decide) fun g hg => hg.appendValue hctl
  | headerName =>
    rw [step_headerName]
    split_ifs with hcolon hb
    · exact h.goes .spaceBeforeHeaderValue (by decide) (by decide) fun _ => Or.inl rfl
    · exact h.onBack .headerName rfl (by decide) fun g hg => hg.appendName hb
    · exact h
  | spaceBeforeHeaderValue =>
    rw [step_spaceBeforeHeaderValue]
    split_ifs
    · exact h.goes .headerValue (by decide) (by decide) fun _ => Or.inl rfl
    · exact h
  | headerValue =>
    rw [step_headerValue]
    split_ifs with hcr hctl
    · exact h.goes .expectingNewline2 (by decide) (by decide) fun _ => Or.inl rfl
    · exact h
    · exact h.onBack .headerValue rfl (by decide) fun g hg => hg.appendValue hctl
  | expectingNewline2 =>
    rw [step_expectingNewline2]
    split_ifs
    · exact hmove .headerLineStart (by decide) (by decide) rfl
    · exact h
  | expectingNewline3 =>
    rw [step_expectingNewline3]
    exact h

/-- One call of `parse` leaves a well-stored request. -/
theorem wellStored_parse {state_ : State} {req : HttpRequest} (h : WellStored state_ req)
    (s : Bytes) : WellStored (parse state_ req s).state_ (parse state_ req s).req := by
  rw [parse_eq_scan]
  exact parserScanner.scan_state_invariant (I := fun p => WellStored p.1 p.2)
    (fun _ b hp => wellStored_step hp b) h s

/-! ## Any number of calls -/

/-- The parser's state and the request after `parse` was called on each piece, with
the same parser and request. -/
def feed (p : State × HttpRequest) (pieces : List Bytes) : State × HttpRequest :=
  pieces.foldl (fun p piece => ((parse p.1 p.2 piece).state_, (parse p.1 p.2 piece).req)) p

/-- It stays so with any pieces. -/
theorem wellStored_feed {p : State × HttpRequest} (h : WellStored p.1 p.2)
    (pieces : List Bytes) : WellStored (feed p pieces).1 (feed p pieces).2 := by
  induction pieces generalizing p with
  | nil => exact h
  | cons piece pieces ih =>
    rw [feed, List.foldl_cons]
    exact ih (wellStored_parse h piece)

/-- So `back()` is defined wherever it is called. -/
theorem WellStored.back_defined {state_ : State} {req : HttpRequest} (h : WellStored state_ req) :
    ∀ hs ∈ backOperand state_ req, hs ≠ [] := by
  intro hs hhs
  cases state_ with
  | headerLineStart =>
    cases hhs
    simp [HttpRequest.pushHeader]
  | headerLws =>
    cases hhs
    exact h.headers_ne_nil rfl
  | headerName =>
    cases hhs
    exact h.headers_ne_nil rfl
  | headerValue =>
    cases hhs
    exact h.headers_ne_nil rfl
  | _ => cases hhs

/-- And no stored byte is a control byte. -/
theorem WellStored.stored_text {state_ : State} {req : HttpRequest} (h : WellStored state_ req) :
    ∀ b ∈ req.stored, TextByte b := by
  intro b hb
  rcases List.mem_append.mp hb with hb | hb
  · rcases List.mem_append.mp hb with hb | hb
    · exact (h.method_token b hb).text
    · exact (h.uri_uriByte b hb).text
  · obtain ⟨g, hg, hb⟩ := List.mem_flatMap.mp hb
    rcases List.mem_append.mp hb with hb | hb
    · exact ((h.headers_stored g hg).name_token b hb).text
    · exact (h.headers_stored g hg).value_text b hb

/-- **What the parser stores.**  However a fresh parser and request are fed, and
however often the parser has answered, the request is well stored: in the states
inside a header there is one, and `back()` is called on a vector that is not empty;
the method is empty in the first state only; all fields hold bytes of their class,
so no CR, LF, NUL or HT. -/
theorem feed_wellStored (maj min : ℤ) (pieces : List Bytes) :
    WellStored (feed (.methodStart, .fresh maj min) pieces).1
        (feed (.methodStart, .fresh maj min) pieces).2
      ∧ (∀ hs ∈ backOperand (feed (.methodStart, .fresh maj min) pieces).1
          (feed (.methodStart, .fresh maj min) pieces).2, hs ≠ [])
      ∧ ∀ b ∈ (feed (.methodStart, .fresh maj min) pieces).2.stored,
        b ∉ [ch '\r', ch '\n', 0, ch '\t'] := by
  have h : WellStored _ _ :=
    wellStored_feed (p := (.methodStart, .fresh maj min)) (WellStored.fresh maj min) pieces
  refine ⟨h, h.back_defined, ?_⟩
  intro b hb hmem
  have htext : TextByte b := h.stored_text b hb
  simp only [List.mem_cons, List.not_mem_nil, or_false] at hmem
  rcases hmem with rfl | rfl | rfl | rfl <;> exact absurd htext (by decide)

/-- A bad byte is not stored, and the byte behind it goes on where it stood. -/
example : (feed (.methodStart, .fresh 0 0)
    [str "GET / HTTP/1.0\r\nA", str ": b\n", str "c"]).2.headers_ = [⟨str "A", str "bc"⟩] := by
  decide +kernel

end Unichannel
