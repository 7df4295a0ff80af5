/-
# The request parser (HttpReqParser.h, HttpReqParser.cpp)

`consume` is the twenty-state automaton of `HttpReqParser::consume`, branch by
branch, and `parse` the loop of `HttpReqParser::parse`.  Everything the parser
remembers between two calls is its `state_` and the request it is filling.

`parserScanner` presents the automaton as a `Scanner`, and `parse_eq_scan` says
that `parse` is its scan.
-/
import Unichannel.HttpRequest
import Unichannel.Lib.Scanner

namespace Unichannel

/-! ## Character classes -/

/-- `HttpReqParser::is_char`. -/
def isChar (c : ℤ) : Bool := 0 ≤ c ∧ c ≤ 127

/-- `HttpReqParser::is_ctl`. -/
def isCtl (c : ℤ) : Bool := (0 ≤ c ∧ c ≤ 31) ∨ c = 127

/-- The characters of the `case` labels of `HttpReqParser::is_tspecial`. -/
def tspecials : List Byte :=
  [ch '(', ch ')', ch '<', ch '>', ch '@', ch ',', ch ';', ch ':', ch '\\', ch '"', ch '/',
    ch '[', ch ']', ch '?', ch '=', ch '\x7b', ch '\x7d', ch ' ', ch '\t']

/-- `HttpReqParser::is_tspecial`. -/
def isTspecial (c : ℤ) : Bool := c ∈ tspecials.map charToInt

/-- `HttpReqParser::is_digit`. -/
def isDigit (c : ℤ) : Bool := charToInt (ch '0') ≤ c ∧ c ≤ charToInt (ch '9')

/-! ## The automaton -/

/-- `HttpReqParser::state`. -/
inductive State
  | methodStart
  | method
  | uri
  | httpVersionH
  | httpVersionT1
  | httpVersionT2
  | httpVersionP
  | httpVersionSlash
  | httpVersionMajorStart
  | httpVersionMajor
  | httpVersionMinorStart
  | httpVersionMinor
  | expectingNewline1
  | headerLineStart
  | headerLws
  | headerName
  | spaceBeforeHeaderValue
  | headerValue
  | expectingNewline2
  | expectingNewline3
  deriving DecidableEq, Repr

/-- `HttpReqParser::result_type`. -/
inductive ResultType
  | good
  | bad
  | indeterminate
  deriving DecidableEq, Repr

/-- The value a 32-bit `int` holds after an arithmetic result is stored in it. -/
def toInt32 (v : ℤ) : ℤ := Int.bmod v (2 ^ 32)

/-- `ver * 10 + input - '0'`, stored back into a version field. -/
def pushDigit (ver : ℤ) (input : Byte) : ℤ :=
  toInt32 (ver * 10 + charToInt input - charToInt (ch '0'))

/-- What one call of `consume` leaves behind: its result, `state_` and the
request. -/
structure Consumed where
  result : ResultType
  state_ : State
  req : HttpRequest
  deriving DecidableEq, Repr

/-- `HttpReqParser::consume`: handle the next character of input. -/
def consume (state_ : State) (req : HttpRequest) (input : Byte) : Consumed :=
  match state_ with
  | .methodStart =>
    if !isChar (charToInt input) || isCtl (charToInt input) || isTspecial (charToInt input) then
      ⟨.bad, .methodStart, req⟩
    else ⟨.indeterminate, .method, req.pushMethod input⟩
  | .method =>
    if input = ch ' ' then ⟨.indeterminate, .uri, req⟩
    else if !isChar (charToInt input) || isCtl (charToInt input)
        || isTspecial (charToInt input) then ⟨.bad, .method, req⟩
    else ⟨.indeterminate, .method, req.pushMethod input⟩
  | .uri =>
    if input = ch ' ' then ⟨.indeterminate, .httpVersionH, req⟩
    else if isCtl (charToInt input) then ⟨.bad, .uri, req⟩
    else ⟨.indeterminate, .uri, req.pushUri input⟩
  | .httpVersionH =>
    if input = ch 'H' then ⟨.indeterminate, .httpVersionT1, req⟩ else ⟨.bad, .httpVersionH, req⟩
  | .httpVersionT1 =>
    if input = ch 'T' then ⟨.indeterminate, .httpVersionT2, req⟩ else ⟨.bad, .httpVersionT1, req⟩
  | .httpVersionT2 =>
    if input = ch 'T' then ⟨.indeterminate, .httpVersionP, req⟩ else ⟨.bad, .httpVersionT2, req⟩
  | .httpVersionP =>
    if input = ch 'P' then ⟨.indeterminate, .httpVersionSlash, req⟩
    else ⟨.bad, .httpVersionP, req⟩
  | .httpVersionSlash =>
    if input = ch '/' then
      ⟨.indeterminate, .httpVersionMajorStart, { req with httpMajorVer_ := 0, httpMinorVer_ := 0 }⟩
    else ⟨.bad, .httpVersionSlash, req⟩
  | .httpVersionMajorStart =>
    if isDigit (charToInt input) then
      ⟨.indeterminate, .httpVersionMajor,
        { req with httpMajorVer_ := pushDigit req.httpMajorVer_ input }⟩
    else ⟨.bad, .httpVersionMajorStart, req⟩
  | .httpVersionMajor =>
    if input = ch '.' then ⟨.indeterminate, .httpVersionMinorStart, req⟩
    else if isDigit (charToInt input) then
      ⟨.indeterminate, .httpVersionMajor,
        { req with httpMajorVer_ := pushDigit req.httpMajorVer_ input }⟩
    else ⟨.bad, .httpVersionMajor, req⟩
  | .httpVersionMinorStart =>
    if isDigit (charToInt input) then
      ⟨.indeterminate, .httpVersionMinor,
        { req with httpMinorVer_ := pushDigit req.httpMinorVer_ input }⟩
    else ⟨.bad, .httpVersionMinorStart, req⟩
  | .httpVersionMinor =>
    if input = ch '\r' then ⟨.indeterminate, .expectingNewline1, req⟩
    else if isDigit (charToInt input) then
      ⟨.indeterminate, .httpVersionMinor,
        { req with httpMinorVer_ := pushDigit req.httpMinorVer_ input }⟩
    else ⟨.bad, .httpVersionMinor, req⟩
  | .expectingNewline1 =>
    if input = ch '\n' then ⟨.indeterminate, .headerLineStart, req⟩
    else ⟨.bad, .expectingNewline1, req⟩
  | .headerLineStart =>
    if input = ch '\r' then ⟨.indeterminate, .expectingNewline3, req⟩
    else if !req.headers_.isEmpty && (input = ch ' ' || input = ch '\t') then
      ⟨.indeterminate, .headerLws, req⟩
    else if !isChar (charToInt input) || isCtl (charToInt input)
        || isTspecial (charToInt input) then ⟨.bad, .headerLineStart, req⟩
    else ⟨.indeterminate, .headerName, req.pushHeader.pushName input⟩
  | .headerLws =>
    if input = ch '\r' then ⟨.indeterminate, .expectingNewline2, req⟩
    else if input = ch ' ' || input = ch '\t' then ⟨.indeterminate, .headerLws, req⟩
    else if isCtl (charToInt input) then ⟨.bad, .headerLws, req⟩
    else ⟨.indeterminate, .headerValue, req.pushValue input⟩
  | .headerName =>
    if input = ch ':' then ⟨.indeterminate, .spaceBeforeHeaderValue, req⟩
    else if !isChar (charToInt input) || isCtl (charToInt input)
        || isTspecial (charToInt input) then ⟨.bad, .headerName, req⟩
    else ⟨.indeterminate, .headerName, req.pushName input⟩
  | .spaceBeforeHeaderValue =>
    if input = ch ' ' then ⟨.indeterminate, .headerValue, req⟩
    else ⟨.bad, .spaceBeforeHeaderValue, req⟩
  | .headerValue =>
    if input = ch '\r' then ⟨.indeterminate, .expectingNewline2, req⟩
    else if isCtl (charToInt input) then ⟨.bad, .headerValue, req⟩
    else ⟨.indeterminate, .headerValue, req.pushValue input⟩
  | .expectingNewline2 =>
    if input = ch '\n' then ⟨.indeterminate, .headerLineStart, req⟩
    else ⟨.bad, .expectingNewline2, req⟩
  | .expectingNewline3 =>
    if input = ch '\n' then ⟨.good, .expectingNewline3, req⟩ else ⟨.bad, .expectingNewline3, req⟩

/-- What `parse` returns and leaves behind: the result, how far the iterator
`begin` has advanced, `state_` and the request. -/
structure Parsed where
  result : ResultType
  begin : ℕ
  state_ : State
  req : HttpRequest
  deriving DecidableEq, Repr

/-- `HttpReqParser::parse`. -/
def parse (state_ : State) (req : HttpRequest) : Bytes → Parsed
  | [] => ⟨.indeterminate, 0, state_, req⟩
  | input :: rest =>
    let c := consume state_ req input
    if c.result = .good ∨ c.result = .bad then ⟨c.result, 1, c.state_, c.req⟩
    else
      let p := parse c.state_ c.req rest
      { p with begin := p.begin + 1 }

/-! ## The automaton as a scanner -/

/-- The verdict a result stands for: `indeterminate` is none. -/
def ResultType.verdict : ResultType → Option ResultType
  | .indeterminate => none
  | r => some r

/-- The automaton as a scanner over the parser state and the request. -/
def parserScanner : Scanner (State × HttpRequest) Byte ResultType where
  step s input :=
    let c := consume s.1 s.2 input
    ((c.state_, c.req), c.result.verdict)

/-- The scan outcome in the vocabulary of `parse`. -/
def Parsed.ofOutcome (o : Scanner.Outcome (State × HttpRequest) ResultType) : Parsed :=
  ⟨o.verdict.getD .indeterminate, o.consumed, o.state.1, o.state.2⟩

/-- **`parse` is the scan of the automaton.** -/
theorem parse_eq_scan (state_ : State) (req : HttpRequest) (s : Bytes) :
    parse state_ req s = Parsed.ofOutcome (parserScanner.scan (state_, req) s) := by
  induction s generalizing state_ req with
  | nil => rfl
  | cons input rest ih =>
    rw [parse]
    have hstep : parserScanner.step (state_, req) input
        = (((consume state_ req input).state_, (consume state_ req input).req),
            (consume state_ req input).result.verdict) := rfl
    cases hr : (consume state_ req input).result with
    | indeterminate =>
      rw [Scanner.scan_cons_of_none _ _ (by rw [hstep, hr]; rfl), hstep, ih]
      simp [Parsed.ofOutcome, Nat.add_comm]
    | good =>
      rw [Scanner.scan_cons_of_some (v := .good) _ _ (by rw [hstep, hr]; rfl), hstep]
      simp [Parsed.ofOutcome]
    | bad =>
      rw [Scanner.scan_cons_of_some (v := .bad) _ _ (by rw [hstep, hr]; rfl), hstep]
      simp [Parsed.ofOutcome]

/-- `indeterminate` is no verdict. -/
theorem verdict_ne_indeterminate (s : State × HttpRequest) (bs : Bytes) :
    (parserScanner.scan s bs).verdict ≠ some .indeterminate := by
  induction bs generalizing s with
  | nil =>
    intro h
    cases h
  | cons b bs ih =>
    cases hv : (parserScanner.step s b).2 with
    | none =>
      rw [Scanner.scan_cons_of_none _ _ hv, Scanner.Outcome.shift_verdict]
      exact ih _
    | some v =>
      rw [Scanner.scan_cons_of_some _ _ hv]
      intro h
      rw [Option.some.inj h] at hv
      change (consume s.1 s.2 b).result.verdict = some .indeterminate at hv
      cases hr : (consume s.1 s.2 b).result <;> rw [hr] at hv <;> cases hv

/-- No verdict of the scanner is `indeterminate`. -/
theorem getD_eq_indeterminate_iff (s : State × HttpRequest) (bs : Bytes) :
    (parserScanner.scan s bs).verdict.getD .indeterminate = .indeterminate
      ↔ (parserScanner.scan s bs).verdict = none := by
  have hne := verdict_ne_indeterminate s bs
  cases hv : (parserScanner.scan s bs).verdict with
  | none => simp
  | some v =>
    rw [hv] at hne
    simpa using hne

/-- In the vocabulary of `parse`, an answer is a verdict of the scan. -/
theorem parse_result_eq_iff (state_ : State) (req : HttpRequest) (s : Bytes) {r : ResultType}
    (hr : r ≠ .indeterminate) :
    (parse state_ req s).result = r
      ↔ (parserScanner.scan (state_, req) s).verdict = some r := by
  rw [parse_eq_scan, Parsed.ofOutcome]
  cases h : (parserScanner.scan (state_, req) s).verdict with
  | none => simpa using hr.symm
  | some v => simp

/-- `parse` is undecided if the scanner is. -/
theorem parse_result_eq_indeterminate_iff (state_ : State) (req : HttpRequest) (s : Bytes) :
    (parse state_ req s).result = .indeterminate
      ↔ (parserScanner.scan (state_, req) s).verdict = none := by
  rw [parse_eq_scan]
  exact getD_eq_indeterminate_iff _ _

/-- The iterator stands behind the bytes that the scanner has consumed. -/
theorem parse_begin_eq (state_ : State) (req : HttpRequest) (s : Bytes) :
    (parse state_ req s).begin = (parserScanner.scan (state_, req) s).consumed := by
  rw [parse_eq_scan]
  rfl

end Unichannel
