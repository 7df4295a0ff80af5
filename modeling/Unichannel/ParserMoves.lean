/-
# Byte classes and the moves of the parser

The byte classes the automaton distinguishes, stated over the byte itself, and
one equation for each state of the automaton (`step_method`, `step_uri`, ...)
that says, in terms of these classes, where each byte leads.  Later modules
reason about the parser through these equations only.
-/
import Unichannel.HttpReqParser

namespace Unichannel

/-! ## Byte classes -/

/-- Control bytes. -/
def CtlByte (b : Byte) : Prop := b.toNat ≤ 31 ∨ b.toNat = 127

/-- Token bytes: 0..127, neither control bytes nor `tspecials`. -/
def TokenByte (b : Byte) : Prop := b.toNat ≤ 127 ∧ ¬ CtlByte b ∧ b ∉ tspecials

/-- Bytes of a header value. -/
def TextByte (b : Byte) : Prop := ¬ CtlByte b

/-- Bytes of a URI. -/
def UriByte (b : Byte) : Prop := ¬ CtlByte b ∧ b ≠ ch ' '

/-- Decimal digits. -/
def DigitByte (b : Byte) : Prop := (ch '0').toNat ≤ b.toNat ∧ b.toNat ≤ (ch '9').toNat

/-- The bytes a folded header line starts with. -/
def LwsByte (b : Byte) : Prop := b = ch ' ' ∨ b = ch '\t'

instance : DecidablePred CtlByte := fun _ => inferInstanceAs (Decidable (_ ∨ _))
instance : DecidablePred TokenByte := fun _ => inferInstanceAs (Decidable (_ ∧ _ ∧ _))
instance : DecidablePred TextByte := fun _ => inferInstanceAs (Decidable (¬ _))
instance : DecidablePred UriByte := fun _ => inferInstanceAs (Decidable (_ ∧ _))
instance : DecidablePred DigitByte := fun _ => inferInstanceAs (Decidable (_ ∧ _))
instance : DecidablePred LwsByte := fun _ => inferInstanceAs (Decidable (_ ∨ _))

/-- A byte below 128 is the same number as a `char`. -/
theorem charToInt_of_lt {b : Byte} (h : b.toNat < 128) : charToInt b = b.toNat := if_pos h

/-- The other bytes are negative as a `char`. -/
theorem charToInt_neg_of_le {b : Byte} (h : 128 ≤ b.toNat) : charToInt b < 0 := by
  have hlt := b.toNat_lt
  rw [charToInt, if_neg (by omega)]
  omega

/-- No two bytes are the same `char`. -/
theorem charToInt_injective : Function.Injective charToInt := by
  intro a b h
  have ha := a.toNat_lt
  have hb := b.toNat_lt
  rw [← UInt8.toNat_inj]
  unfold charToInt at h
  split_ifs at h <;> omega

/-- `is_char` admits the bytes of seven bits. -/
theorem isChar_charToInt (b : Byte) : isChar (charToInt b) = true ↔ b.toNat ≤ 127 := by
  rw [isChar, decide_eq_true_iff]
  by_cases h : b.toNat < 128
  · rw [charToInt_of_lt h]
    omega
  · have hneg := charToInt_neg_of_le (b := b) (by omega)
    omega

/-- `is_ctl` admits the control bytes. -/
theorem isCtl_charToInt (b : Byte) : isCtl (charToInt b) = true ↔ CtlByte b := by
  rw [isCtl, decide_eq_true_iff, CtlByte]
  by_cases h : b.toNat < 128
  · rw [charToInt_of_lt h]
    omega
  · have hneg := charToInt_neg_of_le (b := b) (by omega)
    omega

/-- `is_tspecial` admits the bytes of its list. -/
theorem isTspecial_charToInt (b : Byte) : isTspecial (charToInt b) = true ↔ b ∈ tspecials := by
  rw [isTspecial, decide_eq_true_iff, List.mem_map_of_injective charToInt_injective]

/-- `is_digit` admits the decimal digits. -/
theorem isDigit_charToInt (b : Byte) : isDigit (charToInt b) = true ↔ DigitByte b := by
  rw [isDigit, decide_eq_true_iff, DigitByte, charToInt_of_lt (b := ch '0') (by decide),
    charToInt_of_lt (b := ch '9') (by decide)]
  by_cases h : b.toNat < 128
  · rw [charToInt_of_lt h]
    omega
  · have hneg := charToInt_neg_of_le (b := b) (by omega)
    have h9 : (ch '9').toNat = 57 := by decide
    omega

/-- The test the automaton makes on the bytes of a method or a header name. -/
theorem notToken_iff (b : Byte) :
    (!isChar (charToInt b) || isCtl (charToInt b) || isTspecial (charToInt b)) = true
      ↔ ¬ TokenByte b := by
  rw [Bool.or_eq_true, Bool.or_eq_true, isCtl_charToInt, isTspecial_charToInt,
    Bool.not_eq_true', ← Bool.not_eq_true, isChar_charToInt, TokenByte]
  tauto

/-! ## The moves of the automaton -/

/-- A move that gives no verdict. -/
abbrev goesTo (state_ : State) (req : HttpRequest) :
    (State × HttpRequest) × Option ResultType := ((state_, req), none)

/-- A move that rejects the input. -/
abbrev rejects (state_ : State) (req : HttpRequest) :
    (State × HttpRequest) × Option ResultType := ((state_, req), some .bad)

section Moves

variable (req : HttpRequest) (b : Byte)

/-- A step of the scanner is one call of `consume`. -/
theorem step_eq (state_ : State) :
    parserScanner.step (state_, req) b
      = (((consume state_ req b).state_, (consume state_ req b).req),
          (consume state_ req b).result.verdict) := rfl

/-- A request starts with a token byte. -/
theorem step_methodStart : parserScanner.step (.methodStart, req) b =
    if TokenByte b then goesTo .method (req.pushMethod b) else rejects .methodStart req := by
  simp only [step_eq, consume, notToken_iff]
  split_ifs <;> rfl

/-- A space ends the method. -/
theorem step_method : parserScanner.step (.method, req) b =
    if b = ch ' ' then goesTo .uri req
    else if TokenByte b then goesTo .method (req.pushMethod b)
    else rejects .method req := by
  simp only [step_eq, consume, notToken_iff]
  split_ifs <;> rfl

/-- A space ends the URI, which takes every byte that is not a control byte. -/
theorem step_uri : parserScanner.step (.uri, req) b =
    if b = ch ' ' then goesTo .httpVersionH req
    else if CtlByte b then rejects .uri req
    else goesTo .uri (req.pushUri b) := by
  simp only [step_eq, consume, isCtl_charToInt]
  split_ifs <;> rfl

/-- The `H` of `HTTP/`. -/
theorem step_httpVersionH : parserScanner.step (.httpVersionH, req) b =
    if b = ch 'H' then goesTo .httpVersionT1 req else rejects .httpVersionH req := by
  simp only [step_eq, consume]
  split_ifs <;> rfl

/-- Its first `T`. -/
theorem step_httpVersionT1 : parserScanner.step (.httpVersionT1, req) b =
    if b = ch 'T' then goesTo .httpVersionT2 req else rejects .httpVersionT1 req := by
  simp only [step_eq, consume]
  split_ifs <;> rfl

/-- Its second `T`. -/
theorem step_httpVersionT2 : parserScanner.step (.httpVersionT2, req) b =
    if b = ch 'T' then goesTo .httpVersionP req else rejects .httpVersionT2 req := by
  simp only [step_eq, consume]
  split_ifs <;> rfl

/-- Its `P`. -/
theorem step_httpVersionP : parserScanner.step (.httpVersionP, req) b =
    if b = ch 'P' then goesTo .httpVersionSlash req else rejects .httpVersionP req := by
  simp only [step_eq, consume]
  split_ifs <;> rfl

/-- Its slash, which sets both version numbers to 0. -/
theorem step_httpVersionSlash : parserScanner.step (.httpVersionSlash, req) b =
    if b = ch '/' then
      goesTo .httpVersionMajorStart { req with httpMajorVer_ := 0, httpMinorVer_ := 0 }
    else rejects .httpVersionSlash req := by
  simp only [step_eq, consume]
  split_ifs <;> rfl

/-- The major version starts with a digit. -/
theorem step_httpVersionMajorStart : parserScanner.step (.httpVersionMajorStart, req) b =
    if DigitByte b then goesTo .httpVersionMajor
      { req with httpMajorVer_ := pushDigit req.httpMajorVer_ b }
    else rejects .httpVersionMajorStart req := by
  simp only [step_eq, consume, isDigit_charToInt]
  split_ifs <;> rfl

/-- A dot ends the major version. -/
theorem step_httpVersionMajor : parserScanner.step (.httpVersionMajor, req) b =
    if b = ch '.' then goesTo .httpVersionMinorStart req
    else if DigitByte b then goesTo .httpVersionMajor
      { req with httpMajorVer_ := pushDigit req.httpMajorVer_ b }
    else rejects .httpVersionMajor req := by
  simp only [step_eq, consume, isDigit_charToInt]
  split_ifs <;> rfl

/-- The minor version starts with a digit. -/
theorem step_httpVersionMinorStart : parserScanner.step (.httpVersionMinorStart, req) b =
    if DigitByte b then goesTo .httpVersionMinor
      { req with httpMinorVer_ := pushDigit req.httpMinorVer_ b }
    else rejects .httpVersionMinorStart req := by
  simp only [step_eq, consume, isDigit_charToInt]
  split_ifs <;> rfl

/-- A carriage return ends the minor version. -/
theorem step_httpVersionMinor : parserScanner.step (.httpVersionMinor, req) b =
    if b = ch '\r' then goesTo .expectingNewline1 req
    else if DigitByte b then goesTo .httpVersionMinor
      { req with httpMinorVer_ := pushDigit req.httpMinorVer_ b }
    else rejects .httpVersionMinor req := by
  simp only [step_eq, consume, isDigit_charToInt]
  split_ifs <;> rfl

/-- The end of the request line. -/
theorem step_expectingNewline1 : parserScanner.step (.expectingNewline1, req) b =
    if b = ch '\n' then goesTo .headerLineStart req else rejects .expectingNewline1 req := by
  simp only [step_eq, consume]
  split_ifs <;> rfl

/-- The one branch that looks at the request: a blank continues a header only
when there is one. -/
theorem step_headerLineStart : parserScanner.step (.headerLineStart, req) b =
    if b = ch '\r' then goesTo .expectingNewline3 req
    else if req.headers_.isEmpty = false ∧ LwsByte b then goesTo .headerLws req
    else if TokenByte b then goesTo .headerName (req.pushHeader.pushName b)
    else rejects .headerLineStart req := by
  have hblank : (!req.headers_.isEmpty && (b = ch ' ' || b = ch '\t')) = true
      ↔ req.headers_.isEmpty = false ∧ LwsByte b := by
    simp [LwsByte]
  simp only [step_eq, consume, notToken_iff, hblank]
  split_ifs <;> rfl

/-- A folded line: blanks are skipped, and the next byte goes on with the value. -/
theorem step_headerLws : parserScanner.step (.headerLws, req) b =
    if b = ch '\r' then goesTo .expectingNewline2 req
    else if LwsByte b then goesTo .headerLws req
    else if CtlByte b then rejects .headerLws req
    else goesTo .headerValue (req.pushValue b) := by
  have hblank : (decide (b = ch ' ') || decide (b = ch '\t')) = true ↔ LwsByte b := by
    simp [LwsByte]
  simp only [step_eq, consume, isCtl_charToInt, hblank]
  split_ifs <;> rfl

/-- A colon ends the name of a header. -/
theorem step_headerName : parserScanner.step (.headerName, req) b =
    if b = ch ':' then goesTo .spaceBeforeHeaderValue req
    else if TokenByte b then goesTo .headerName (req.pushName b)
    else rejects .headerName req := by
  simp only [step_eq, consume, notToken_iff]
  split_ifs <;> rfl

/-- There is one space in front of a value. -/
theorem step_spaceBeforeHeaderValue : parserScanner.step (.spaceBeforeHeaderValue, req) b =
    if b = ch ' ' then goesTo .headerValue req else rejects .spaceBeforeHeaderValue req := by
  simp only [step_eq, consume]
  split_ifs <;> rfl

/-- A carriage return ends a value, or its line. -/
theorem step_headerValue : parserScanner.step (.headerValue, req) b =
    if b = ch '\r' then goesTo .expectingNewline2 req
    else if CtlByte b then rejects .headerValue req
    else goesTo .headerValue (req.pushValue b) := by
  simp only [step_eq, consume, isCtl_charToInt]
  split_ifs <;> rfl

/-- The end of a header line. -/
theorem step_expectingNewline2 : parserScanner.step (.expectingNewline2, req) b =
    if b = ch '\n' then goesTo .headerLineStart req else rejects .expectingNewline2 req := by
  simp only [step_eq, consume]
  split_ifs <;> rfl

/-- The newline behind the empty line ends the request; any other byte spoils it. -/
theorem step_expectingNewline3 : parserScanner.step (.expectingNewline3, req) b =
    ((.expectingNewline3, req), some (if b = ch '\n' then .good else .bad)) := by
  simp only [step_eq, consume]
  split_ifs <;> rfl

end Moves

/-- The answer good is given on the last line end only, and leaves the request. -/
theorem eq_of_step_good {p q : State × HttpRequest} {b : Byte}
    (h : parserScanner.step p b = (q, some .good)) : p.1 = .expectingNewline3 ∧ q.2 = p.2 := by
  obtain ⟨state_, req⟩ := p
  cases state_ with
  | expectingNewline3 =>
    rw [step_expectingNewline3] at h
    exact ⟨rfl, (congrArg (fun o => o.1.2) h).symm⟩
  | _ =>
    simp only [step_methodStart, step_method, step_uri, step_httpVersionH, step_httpVersionT1,
      step_httpVersionT2, step_httpVersionP, step_httpVersionSlash, step_httpVersionMajorStart,
      step_httpVersionMajor, step_httpVersionMinorStart, step_httpVersionMinor,
      step_expectingNewline1, step_headerLineStart, step_headerLws, step_headerName,
      step_spaceBeforeHeaderValue, step_headerValue, step_expectingNewline2] at h
    split_ifs at h <;> cases h

end Unichannel
