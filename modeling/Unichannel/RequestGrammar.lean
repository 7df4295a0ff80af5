/-
# The language of complete requests

The grammar of the requests the server answers, as a product of languages over
bytes, and the proof that the parser accepts exactly this language:

    request = 1*token SP *uri SP "HTTP/" 1*digit "." 1*digit CRLF fields CRLF

`expects` gives, for every parser state, the language of the input still needed
to complete a request.  It only depends on the state and on whether a header
has been opened, and it satisfies the one-symbol equations of the automaton
(`cons_mem_residual`), so `Scanner.decides_iff_mem_residual` applies.
-/
import Mathlib.Order.Antichain
import Unichannel.ParserMoves
import Unichannel.Lib.SymbolLanguage

open Computability SymbolLanguage

namespace Unichannel

/-! ## The grammar -/

/-- The line end. -/
def eol : Language Byte := word crlf

/-- A header field on its own line. -/
def fieldLine : Language Byte :=
  plus TokenByte * word (str ":") * word (str " ") * (single TextByte)∗ * eol

/-- A line that continues the value of the field before it. -/
def continuationLine : Language Byte :=
  plus LwsByte * (1 + single (fun b => TextByte b ∧ b ≠ ch ' ') * (single TextByte)∗) * eol

/-- The header block: nothing, or a field line and then field and continuation
lines. -/
def fields : Language Byte := 1 + fieldLine * (fieldLine + continuationLine)∗

/-- A complete request. -/
def request : Language Byte :=
  plus TokenByte * word (str " ") * (single UriByte)∗ * word (str " ") * word (str "HTTP/")
    * plus DigitByte * word (str ".") * plus DigitByte * eol * fields * eol

/-! ## What each state still expects -/

/-- What completes a request from the start of a header line; `opened` says
whether a header has been opened already. -/
def fromLineStart (opened : Bool) : Language Byte :=
  bif opened then (fieldLine + continuationLine)∗ * eol else fields * eol

/-- A line end, then `L`. -/
def eolThen (L : Language Byte) : Language Byte :=
  single (· = ch '\r') * (single (· = ch '\n') * L)

/-- From inside a header value. -/
def fromValue (opened : Bool) : Language Byte :=
  (single TextByte)∗ * eolThen (fromLineStart opened)

/-- From the blanks at the start of a continuation line. -/
def fromLws (opened : Bool) : Language Byte :=
  (single LwsByte)∗ * ((1 + single (fun b => TextByte b ∧ b ≠ ch ' ') * (single TextByte)∗)
    * eolThen (fromLineStart opened))

/-- From inside a header name. -/
def fromName (opened : Bool) : Language Byte :=
  (single TokenByte)∗ * (single (· = ch ':') * (single (· = ch ' ') * fromValue opened))

/-- From inside the minor version. -/
def fromMinor (opened : Bool) : Language Byte :=
  (single DigitByte)∗ * eolThen (fromLineStart opened)

/-- From inside the major version. -/
def fromMajor (opened : Bool) : Language Byte :=
  (single DigitByte)∗ * (single (· = ch '.') * (single DigitByte * fromMinor opened))

/-- From the slash before the version. -/
def fromSlash (opened : Bool) : Language Byte :=
  single (· = ch '/') * (single DigitByte * fromMajor opened)

/-- From the word `HTTP`. -/
def fromHttp (opened : Bool) : Language Byte :=
  single (· = ch 'H') * (single (· = ch 'T') * (single (· = ch 'T')
    * (single (· = ch 'P') * fromSlash opened)))

/-- From inside the URI. -/
def fromUri (opened : Bool) : Language Byte :=
  (single UriByte)∗ * (single (· = ch ' ') * fromHttp opened)

/-- From inside the method. -/
def fromMethod (opened : Bool) : Language Byte :=
  (single TokenByte)∗ * (single (· = ch ' ') * fromUri opened)

/-- The language of the input that completes a request from each state. -/
def expects (opened : Bool) : State → Language Byte
  | .methodStart => single TokenByte * fromMethod opened
  | .method => fromMethod opened
  | .uri => fromUri opened
  | .httpVersionH => fromHttp opened
  | .httpVersionT1 =>
    single (· = ch 'T') * (single (· = ch 'T') * (single (· = ch 'P') * fromSlash opened))
  | .httpVersionT2 => single (· = ch 'T') * (single (· = ch 'P') * fromSlash opened)
  | .httpVersionP => single (· = ch 'P') * fromSlash opened
  | .httpVersionSlash => fromSlash opened
  | .httpVersionMajorStart => single DigitByte * fromMajor opened
  | .httpVersionMajor => fromMajor opened
  | .httpVersionMinorStart => single DigitByte * fromMinor opened
  | .httpVersionMinor => fromMinor opened
  | .expectingNewline1 => single (· = ch '\n') * fromLineStart opened
  | .headerLineStart => fromLineStart opened
  | .headerLws => fromLws opened
  | .headerName => fromName opened
  | .spaceBeforeHeaderValue => single (· = ch ' ') * fromValue opened
  | .headerValue => fromValue opened
  | .expectingNewline2 => single (· = ch '\n') * fromLineStart opened
  | .expectingNewline3 => single (· = ch '\n') * 1

/-- The input that completes a request from a state of the automaton. -/
def residual (s : State × HttpRequest) : Language Byte := expects (!s.2.headers_.isEmpty) s.1

/-! ## Reading the grammar one byte at a time -/

/-- The end of a line in front of a language. -/
theorem eol_mul (L : Language Byte) : eol * L = eolThen L := by
  rw [eol, crlf, word_cons, word_singleton, mul_assoc, eolThen]

theorem fieldLine_mul (L : Language Byte) :
    fieldLine * L = plus TokenByte * (single (· = ch ':') * (single (· = ch ' ')
      * ((single TextByte)∗ * eolThen L))) := by
  have hcolon : word (str ":") = single (· = ch ':') := word_singleton _
  have hspace : word (str " ") = single (· = ch ' ') := word_singleton _
  rw [fieldLine, hcolon, hspace]
  simp only [mul_assoc, eol_mul]

theorem continuationLine_mul (L : Language Byte) :
    continuationLine * L = plus LwsByte * ((1 + single (fun b => TextByte b ∧ b ≠ ch ' ')
      * (single TextByte)∗) * eolThen L) := by
  rw [continuationLine, mul_assoc, mul_assoc, eol_mul]

/-- The header block as seen from its first line. -/
theorem fromLineStart_false :
    fromLineStart false = eolThen 1 + fieldLine * fromLineStart true := by
  rw [fromLineStart, fromLineStart, cond_false, cond_true, fields, add_mul, one_mul, mul_assoc,
    ← eol_mul, mul_one]

/-- The header block as seen from a later line. -/
theorem fromLineStart_true :
    fromLineStart true
      = eolThen 1 + fieldLine * fromLineStart true + continuationLine * fromLineStart true := by
  conv_lhs => rw [fromLineStart, cond_true, kstar_mul_eq, add_mul]
  rw [fromLineStart, cond_true, ← eol_mul, mul_one, add_comm, ← add_assoc]

/-- A request is what the parser expects at the start. -/
theorem request_eq_expects : request = expects false .methodStart := by
  have hspace : word (str " ") = single (· = ch ' ') := word_singleton _
  have hdot : word (str ".") = single (· = ch '.') := word_singleton _
  have hhttp (L : Language Byte) : word (str "HTTP/") * L = single (· = ch 'H')
      * (single (· = ch 'T') * (single (· = ch 'T') * (single (· = ch 'P')
        * (single (· = ch '/') * L)))) := by
    rw [show str "HTTP/" = [ch 'H', ch 'T', ch 'T', ch 'P', ch '/'] from rfl]
    simp only [word_cons, word_nil, mul_assoc, one_mul]
  rw [request, hspace, hdot]
  simp only [mul_assoc, hhttp, plus, ← eol_mul, expects, fromMethod, fromUri, fromHttp, fromSlash,
    fromMajor, fromMinor, fromLineStart, cond_false]

/-! ## The one-symbol equations -/

/-- The end of a line is not empty. -/
@[simp] theorem nil_notMem_eolThen (L : Language Byte) : [] ∉ eolThen L := by
  simp [eolThen]

/-- It begins with a carriage return. -/
@[simp] theorem cons_mem_eolThen (L : Language Byte) (b : Byte) (w : Bytes) :
    b :: w ∈ eolThen L ↔ b = ch '\r' ∧ w ∈ single (· = ch '\n') * L := by
  simp [eolThen]

/-- At the start of a line a request is not complete. -/
theorem nil_notMem_fromLineStart (opened : Bool) : [] ∉ fromLineStart opened := by
  cases opened with
  | false =>
    rw [fromLineStart_false, Language.mem_add, fieldLine_mul]
    simp
  | true =>
    rw [fromLineStart_true, Language.mem_add, Language.mem_add, fieldLine_mul,
      continuationLine_mul]
    simp

/-- Reading the first byte of a line while no header is open. -/
theorem cons_mem_fromLineStart_false (b : Byte) (w : Bytes) :
    b :: w ∈ fromLineStart false ↔
      (b = ch '\r' ∧ w ∈ single (· = ch '\n') * 1) ∨ (TokenByte b ∧ w ∈ fromName true) := by
  rw [fromLineStart_false, Language.mem_add, cons_mem_eolThen, fieldLine_mul, cons_mem_plus_mul]
  rfl

/-- Reading the first byte of a line while a header is open. -/
theorem cons_mem_fromLineStart_true (b : Byte) (w : Bytes) :
    b :: w ∈ fromLineStart true ↔
      ((b = ch '\r' ∧ w ∈ single (· = ch '\n') * 1) ∨ (TokenByte b ∧ w ∈ fromName true))
        ∨ (LwsByte b ∧ w ∈ fromLws true) := by
  rw [fromLineStart_true, Language.mem_add, Language.mem_add, cons_mem_eolThen, fieldLine_mul,
    continuationLine_mul, cons_mem_plus_mul, cons_mem_plus_mul]
  rfl

/-- Reading a byte at the start of a continuation line. -/
theorem cons_mem_fromLws (opened : Bool) (b : Byte) (w : Bytes) :
    b :: w ∈ fromLws opened ↔
      (LwsByte b ∧ w ∈ fromLws opened)
        ∨ (b = ch '\r' ∧ w ∈ single (· = ch '\n') * fromLineStart opened)
        ∨ ((TextByte b ∧ b ≠ ch ' ') ∧ w ∈ fromValue opened) := by
  rw [fromLws, cons_mem_kstar_single_mul, add_mul, one_mul, Language.mem_add, cons_mem_eolThen,
    mul_assoc, cons_mem_single_mul]
  rfl

/-- **The one-symbol equations of the automaton.** -/
theorem cons_mem_residual (s : State × HttpRequest) (b : Byte) (w : Bytes) :
    b :: w ∈ residual s ↔
      ((parserScanner.step s b).2 = some .good ∧ w = [])
        ∨ ((parserScanner.step s b).2 = none ∧ w ∈ residual (parserScanner.step s b).1) := by
  obtain ⟨state_, req⟩ := s
  have hsp : ¬ TokenByte (ch ' ') := by decide
  have hcr : ¬ TokenByte (ch '\r') := by decide
  have hco : ¬ TokenByte (ch ':') := by decide
  cases state_ with
  | methodStart =>
    rw [step_methodStart]
    split_ifs with h <;> simp [residual, expects, h]
  | method =>
    rw [step_method]
    split_ifs with h1 h2 <;> simp [residual, expects, fromMethod, *]
  | uri =>
    rw [step_uri]
    split_ifs with h1 h2 <;> simp [residual, expects, fromUri, UriByte, *]
  | httpVersionH =>
    rw [step_httpVersionH]
    split_ifs with h <;> simp [residual, expects, fromHttp, h]
  | httpVersionT1 =>
    rw [step_httpVersionT1]
    split_ifs with h <;> simp [residual, expects, h]
  | httpVersionT2 =>
    rw [step_httpVersionT2]
    split_ifs with h <;> simp [residual, expects, h]
  | httpVersionP =>
    rw [step_httpVersionP]
    split_ifs with h <;> simp [residual, expects, h]
  | httpVersionSlash =>
    rw [step_httpVersionSlash]
    split_ifs with h <;> simp [residual, expects, fromSlash, h]
  | httpVersionMajorStart =>
    rw [step_httpVersionMajorStart]
    split_ifs with h <;> simp [residual, expects, h]
  | httpVersionMajor =>
    have hdot : ¬ DigitByte (ch '.') := by decide
    rw [step_httpVersionMajor]
    split_ifs with h1 h2 <;> simp [residual, expects, fromMajor, *]
  | httpVersionMinorStart =>
    rw [step_httpVersionMinorStart]
    split_ifs with h <;> simp [residual, expects, h]
  | httpVersionMinor =>
    have hcrd : ¬ DigitByte (ch '\r') := by decide
    rw [step_httpVersionMinor]
    split_ifs with h1 h2 <;> simp [residual, expects, fromMinor, *]
  | expectingNewline1 =>
    rw [step_expectingNewline1]
    split_ifs with h <;> simp [residual, expects, h]
  | headerLineStart =>
    have hlws : LwsByte b → ¬ TokenByte b := by
      rintro (rfl | rfl) <;> decide
    have hlcr : ¬ LwsByte (ch '\r') := by decide
    rw [step_headerLineStart]
    -- the move depends on whether a header is open, and so does what is expected
    cases hopen : req.headers_.isEmpty with
    | true =>
      rw [residual, hopen, Bool.not_true, expects, cons_mem_fromLineStart_false]
      simp only [Bool.true_eq_false, false_and, if_false]
      split_ifs with h1 h2 <;> simp [residual, expects, *]
    | false =>
      rw [residual, hopen, Bool.not_false, expects, cons_mem_fromLineStart_true]
      simp only [true_and]
      split_ifs with h1 h2 h3 <;> simp [residual, expects, *]
  | headerLws =>
    have hctl : CtlByte (ch '\r') := by decide
    have hlcr : ¬ LwsByte (ch '\r') := by decide
    -- a blank of the fold is no value byte: SP is excluded and HT is a control byte
    have hlws : LwsByte b → ¬ (TextByte b ∧ b ≠ ch ' ') := by
      rintro (rfl | rfl) <;> decide
    have hlsp : ¬ LwsByte b → b ≠ ch ' ' := fun h hb => h (Or.inl hb)
    rw [step_headerLws, residual, expects, cons_mem_fromLws]
    split_ifs with h1 h2 h3
    · simp [residual, expects, TextByte, *]
    · simp [residual, expects, *]
    · simp [residual, expects, TextByte, *]
    · simp [residual, expects, TextByte, h1, h2, h3, hlsp h2]
  | headerName =>
    rw [step_headerName]
    split_ifs with h1 h2 <;> simp [residual, expects, fromName, *]
  | spaceBeforeHeaderValue =>
    rw [step_spaceBeforeHeaderValue]
    split_ifs with h <;> simp [residual, expects, h]
  | headerValue =>
    have hctl : CtlByte (ch '\r') := by decide
    rw [step_headerValue]
    split_ifs with h1 h2 <;> simp [residual, expects, fromValue, TextByte, *]
  | expectingNewline2 =>
    rw [step_expectingNewline2]
    split_ifs with h <;> simp [residual, expects, h]
  | expectingNewline3 =>
    rw [step_expectingNewline3]
    split_ifs with h <;> simp [residual, expects, h]

theorem nil_notMem_fromLws (opened : Bool) : [] ∉ fromLws opened := by
  rw [fromLws, nil_mem_kstar_single_mul, add_mul, one_mul, Language.mem_add, mul_assoc]
  simp

/-- In no state a request is complete. -/
theorem nil_notMem_residual (s : State × HttpRequest) : [] ∉ residual s := by
  obtain ⟨state_, req⟩ := s
  cases state_ <;>
    simp [residual, expects, fromMethod, fromUri, fromHttp, fromSlash, fromMajor, fromMinor,
      fromName, fromValue, nil_notMem_fromLineStart, nil_notMem_fromLws]

/-- The automaton answers good exactly at the end of the words it expects. -/
theorem decides_good_iff_mem_residual (s : State × HttpRequest) (w : Bytes) :
    parserScanner.Decides s .good w ↔ w ∈ residual s :=
  parserScanner.decides_iff_mem_residual .good residual nil_notMem_residual cons_mem_residual s w

/-! ## The accepted language -/

/-- A new parser accepts the requests. -/
theorem decides_good_fresh (maj min : ℤ) (w : Bytes) :
    parserScanner.Decides (.methodStart, .fresh maj min) .good w ↔ w ∈ request := by
  rw [decides_good_iff_mem_residual, request_eq_expects]
  rfl

/-- No request is a proper prefix of another one. -/
theorem isAntichain_request : IsAntichain (· <+: ·) {w | w ∈ request} := by
  rintro w hw - hz hne ⟨z, rfl⟩
  have hdec := (decides_good_fresh 0 0 w).mpr hw
  have hdecz := (decides_good_fresh 0 0 (w ++ z)).mpr hz
  have hnil := Scanner.Decides.eq_of_append parserScanner hdec hdecz
  rw [hnil, List.append_nil] at hne
  exact hne rfl

/-- **The accepted language.**  From a fresh parser and a fresh request, `parse`
answers good after `k` bytes exactly when the first `k` bytes are a word of
`request`; at most one `k` qualifies, and no request is a proper prefix of
another. -/
theorem parse_good_iff_request (maj min : ℤ) :
    (∀ (s : Bytes) (k : ℕ),
      ((parse .methodStart (.fresh maj min) s).result = .good
          ∧ (parse .methodStart (.fresh maj min) s).begin = k)
        ↔ k ≤ s.length ∧ s.take k ∈ request)
    ∧ (∀ s : Bytes, {k | k ≤ s.length ∧ s.take k ∈ request}.Subsingleton)
    ∧ IsAntichain (· <+: ·) {w | w ∈ request} := by
  have hiff : ∀ (s : Bytes) (k : ℕ),
      ((parse .methodStart (.fresh maj min) s).result = .good
          ∧ (parse .methodStart (.fresh maj min) s).begin = k)
        ↔ k ≤ s.length ∧ s.take k ∈ request := by
    intro s k
    rw [parse_result_eq_iff _ _ _ (by decide), parse_begin_eq, ← decides_good_fresh maj min]
    exact parserScanner.verdict_and_consumed_iff _ _ s k
  refine ⟨hiff, ?_, isAntichain_request⟩
  intro s k₁ hk₁ k₂ hk₂
  have h₁ := (hiff s k₁).mpr hk₁
  have h₂ := (hiff s k₂).mpr hk₂
  exact h₁.2.symm.trans h₂.2

end Unichannel
