/-
# The version numbers of a request line

The parser reads a version number with `ver * 10 + input - '0'` in an `int`, from left
to right and without a bound on the number of digits.  `consumeTerms` are the values the
expression takes on the way, `VersionsExact` says that all of them are `int`s and that a
request is answered good with the numbers that are written, and `VersionsFit` bounds
the numbers that are read.

The bound is not that of an `int`: the character is added before `'0'` is subtracted,
so the last 48 values of an `int` are out of reach.

* `LineRead`: what the state and the request say about the bytes read so far;
* `foldl_pushDigit_eq`: below the bound of an `int`, the digits add up to the number;
* `versionsExact_iff`: exactness is the bound, for every input.
-/
import Unichannel.RequestRoundTrip
import Unichannel.StoredFields

open Scanner

namespace Unichannel

/-! ## The expression and its values -/

/-- The values of `ver * 10 + input - '0'`, evaluated from left to right. -/
def versionTerms (ver : ℤ) (input : Byte) : List ℤ :=
  [ver * 10, ver * 10 + charToInt input, ver * 10 + charToInt input - charToInt (ch '0')]

/-- The values a call of `consume` computes for a version field. -/
def consumeTerms (state_ : State) (req : HttpRequest) (input : Byte) : List ℤ :=
  match state_ with
  | .httpVersionMajorStart =>
    if isDigit (charToInt input) then versionTerms req.httpMajorVer_ input else []
  | .httpVersionMajor =>
    if input = ch '.' then []
    else if isDigit (charToInt input) then versionTerms req.httpMajorVer_ input
    else []
  | .httpVersionMinorStart =>
    if isDigit (charToInt input) then versionTerms req.httpMinorVer_ input else []
  | .httpVersionMinor =>
    if input = ch '\r' then []
    else if isDigit (charToInt input) then versionTerms req.httpMinorVer_ input
    else []
  | _ => []

/-- The values a call of `parse` computes for the version fields. -/
def parseTerms (state_ : State) (req : HttpRequest) (s : Bytes) : List ℤ :=
  parserScanner.emitted (fun p input => consumeTerms p.1 p.2 input) (state_, req) s

/-- A value of a 32-bit `int`. -/
def InInt (v : ℤ) : Prop := -2 ^ 31 ≤ v ∧ v < 2 ^ 31

instance : DecidablePred InInt := fun _ => inferInstanceAs (Decidable (_ ∧ _))

/-! ## Request lines -/

/-- A nonempty string of digits. -/
def DigitRun (ds : Bytes) : Prop := ds ≠ [] ∧ ∀ b ∈ ds, DigitByte b

/-- A request line. -/
structure RequestLine where
  method : Bytes
  uri : Bytes
  major : Bytes
  minor : Bytes
  method_ne_nil : method ≠ []
  method_token : ∀ b ∈ method, TokenByte b
  uri_uriByte : ∀ b ∈ uri, UriByte b
  major_run : DigitRun major
  minor_run : DigitRun minor

/-- The bytes of a request line. -/
def RequestLine.text (line : RequestLine) : Bytes :=
  lineHead line.method line.uri ++ line.major ++ str "." ++ line.minor ++ crlf

/-- The bytes of a request line in front of one of its two numbers. -/
inductive BeforeNumber : Bytes → Prop
  | major {method uri : Bytes} (method_ne_nil : method ≠ [])
      (method_token : ∀ b ∈ method, TokenByte b) (uri_uriByte : ∀ b ∈ uri, UriByte b) :
      BeforeNumber (lineHead method uri)
  | minor {method uri major : Bytes} (method_ne_nil : method ≠ [])
      (method_token : ∀ b ∈ method, TokenByte b) (uri_uriByte : ∀ b ∈ uri, UriByte b)
      (major_run : DigitRun major) : BeforeNumber (lineHead method uri ++ major ++ str ".")

/-- The largest number whose last digit leaves room for `'0'` in an `int`. -/
def versionMax : ℕ := 2 ^ 31 - 1 - (ch '0').toNat

/-- The digits the parser reads for a version, as far as `s` goes, are at most
`versionMax`. -/
def VersionsFit (s : Bytes) : Prop :=
  ∀ w ds, BeforeNumber w → (∀ b ∈ ds, DigitByte b) → w ++ ds <+: s →
    decimalNumber ds ≤ versionMax

/-- Nothing overflows while `s` is parsed from a fresh parser and a fresh request, and
if the answer is good then the versions are the numbers of the request line. -/
def VersionsExact (maj min : ℤ) (s : Bytes) : Prop :=
  (∀ t ∈ parseTerms .methodStart (.fresh maj min) s, InInt t)
    ∧ ((parse .methodStart (.fresh maj min) s).result = .good →
      ∃ line : RequestLine, line.text <+: s
        ∧ (parse .methodStart (.fresh maj min) s).req.httpMajorVer_ = decimalNumber line.major
        ∧ (parse .methodStart (.fresh maj min) s).req.httpMinorVer_ = decimalNumber line.minor)

/-! ## The number of a digit string -/

/-- A last digit is added to the number. -/
theorem decimalNumber_concat (ds : Bytes) (b : Byte) :
    decimalNumber (ds ++ [b]) = decimalNumber ds * 10 + (b.toNat - (ch '0').toNat) := by
  simp [decimalNumber, Decimal.value, List.foldl_append]

theorem toNat_of_digit {b : Byte} (hb : DigitByte b) :
    48 ≤ b.toNat ∧ b.toNat ≤ 57 := hb

/-- A digit is the same number as a `char`. -/
theorem charToInt_of_digit {b : Byte} (hb : DigitByte b) : charToInt b = b.toNat := by
  have hrange := toNat_of_digit hb
  exact charToInt_of_lt (by omega)

/-- Digits are the characters of their values. -/
theorem map_digitByte_of_digits {ds : Bytes} (hds : ∀ b ∈ ds, DigitByte b) :
    (ds.map fun b => b.toNat - (ch '0').toNat).map digitByte = ds := by
  rw [List.map_map]
  conv_rhs => rw [← List.map_id ds]
  refine List.map_congr_left fun b hb => ?_
  have hrange := toNat_of_digit (hds b hb)
  have h0 : (ch '0').toNat = 48 := by decide
  rw [Function.comp_apply, id, ← UInt8.toNat_inj, h0, toNat_digitByte (by omega)]
  omega

/-- Below the bound of an `int`, the digits add up to the number they denote. -/
theorem foldl_pushDigit_eq {ds : Bytes} (hds : ∀ b ∈ ds, DigitByte b)
    (h : decimalNumber ds < 2 ^ 31) : ds.foldl pushDigit 0 = decimalNumber ds := by
  have hlt : ∀ d ∈ ds.map (fun b => b.toNat - (ch '0').toNat), d < 10 := by
    intro d hd
    obtain ⟨b, hb, rfl⟩ := List.mem_map.mp hd
    have hrange := toNat_of_digit (hds b hb)
    have h0 : (ch '0').toNat = 48 := by decide
    omega
  have hfold := foldl_pushDigit 0 _ hlt h
  rw [map_digitByte_of_digits hds] at hfold
  exact hfold

theorem versionMax_eq : versionMax = 2147483599 := by decide

/-- The values on the way to a number that has one digit more are `int`s exactly if the
number leaves room for `'0'`. -/
theorem inInt_versionTerms_iff {ds : Bytes} {b : Byte} (hb : DigitByte b) :
    (∀ t ∈ versionTerms (decimalNumber ds) b, InInt t)
      ↔ decimalNumber (ds ++ [b]) ≤ versionMax := by
  have hrange := toNat_of_digit hb
  have h0 : (ch '0').toNat = 48 := by decide
  have hz : charToInt (ch '0') = 48 := by decide
  rw [decimalNumber_concat, versionMax_eq, h0, versionTerms, charToInt_of_digit hb, hz]
  simp only [List.forall_mem_cons, List.not_mem_nil, false_imp_iff, implies_true, and_true, InInt]
  omega

/-! ## What has been read -/

/-- The request line is among the bytes read, and the versions have absorbed its
digits. -/
def LineDone (w : Bytes) (req : HttpRequest) : Prop :=
  ∃ ds es, DigitRun ds ∧ DigitRun es
    ∧ lineHead req.method_ req.uri_ ++ ds ++ str "." ++ es ++ crlf <+: w
    ∧ req.httpMajorVer_ = ds.foldl pushDigit 0 ∧ req.httpMinorVer_ = es.foldl pushDigit 0

/-- The request line as far as it has been read when the parser is in `state_`: the
method and the URI are the stored ones, and the versions have absorbed the digits. -/
def LineRead (w : Bytes) (state_ : State) (req : HttpRequest) : Prop :=
  match state_ with
  | .methodStart => w = [] ∧ req.method_ = [] ∧ req.uri_ = []
  | .method => w = req.method_ ∧ req.uri_ = []
  | .uri => w = req.method_ ++ str " " ++ req.uri_
  | .httpVersionH => w = req.method_ ++ str " " ++ req.uri_ ++ str " "
  | .httpVersionT1 => w = req.method_ ++ str " " ++ req.uri_ ++ str " " ++ str "H"
  | .httpVersionT2 => w = req.method_ ++ str " " ++ req.uri_ ++ str " " ++ str "HT"
  | .httpVersionP => w = req.method_ ++ str " " ++ req.uri_ ++ str " " ++ str "HTT"
  | .httpVersionSlash => w = req.method_ ++ str " " ++ req.uri_ ++ str " " ++ str "HTTP"
  | .httpVersionMajorStart =>
    w = lineHead req.method_ req.uri_ ∧ req.httpMajorVer_ = 0 ∧ req.httpMinorVer_ = 0
  | .httpVersionMajor =>
    ∃ ds, DigitRun ds ∧ w = lineHead req.method_ req.uri_ ++ ds
      ∧ req.httpMajorVer_ = ds.foldl pushDigit 0 ∧ req.httpMinorVer_ = 0
  | .httpVersionMinorStart =>
    ∃ ds, DigitRun ds ∧ w = lineHead req.method_ req.uri_ ++ ds ++ str "."
      ∧ req.httpMajorVer_ = ds.foldl pushDigit 0 ∧ req.httpMinorVer_ = 0
  | .httpVersionMinor =>
    ∃ ds es, DigitRun ds ∧ DigitRun es ∧ w = lineHead req.method_ req.uri_ ++ ds ++ str "." ++ es
      ∧ req.httpMajorVer_ = ds.foldl pushDigit 0 ∧ req.httpMinorVer_ = es.foldl pushDigit 0
  | .expectingNewline1 =>
    ∃ ds es, DigitRun ds ∧ DigitRun es
      ∧ w = lineHead req.method_ req.uri_ ++ ds ++ str "." ++ es ++ str "\r"
      ∧ req.httpMajorVer_ = ds.foldl pushDigit 0 ∧ req.httpMinorVer_ = es.foldl pushDigit 0
  | _ => LineDone w req

theorem DigitRun.single {b : Byte} (hb : DigitByte b) : DigitRun [b] :=
  ⟨by simp, fun c hc => by rw [List.mem_singleton.mp hc]; exact hb⟩

/-- One more digit makes a number. -/
theorem DigitRun.concat {ds : Bytes} (hds : DigitRun ds) {b : Byte} (hb : DigitByte b) :
    DigitRun (ds ++ [b]) :=
  ⟨by simp, forall_mem_concat hds.2 hb⟩

/-- The states behind the request line. -/
def State.behindLine : State → Bool
  | .headerLineStart => true
  | .headerLws => true
  | .headerName => true
  | .spaceBeforeHeaderValue => true
  | .headerValue => true
  | .expectingNewline2 => true
  | .expectingNewline3 => true
  | _ => false

/-- In these states the whole line has been read. -/
theorem lineRead_iff_lineDone {w : Bytes} {state_ : State} {req : HttpRequest}
    (hbehind : state_.behindLine = true) : LineRead w state_ req ↔ LineDone w req := by
  cases state_ <;> first | exact Iff.rfl | exact absurd hbehind (by decide)

/-- Behind the request line only headers change. -/
theorem step_behindLine {p p' : State × HttpRequest} {b : Byte} (hbehind : p.1.behindLine = true)
    (hb : parserScanner.step p b = (p', none)) :
    p'.1.behindLine = true ∧ p'.2.method_ = p.2.method_ ∧ p'.2.uri_ = p.2.uri_
      ∧ p'.2.httpMajorVer_ = p.2.httpMajorVer_ ∧ p'.2.httpMinorVer_ = p.2.httpMinorVer_ := by
  obtain ⟨state_, req⟩ := p
  cases state_ with
  | headerLineStart =>
    rw [step_headerLineStart] at hb
    split_ifs at hb <;> cases hb
    · exact ⟨rfl, rfl, rfl, rfl, rfl⟩
    · exact ⟨rfl, rfl, rfl, rfl, rfl⟩
    · exact ⟨rfl, rfl, rfl, rfl, rfl⟩
  | headerLws =>
    rw [step_headerLws] at hb
    split_ifs at hb <;> cases hb
    · exact ⟨rfl, rfl, rfl, rfl, rfl⟩
    · exact ⟨rfl, rfl, rfl, rfl, rfl⟩
    · exact ⟨rfl, rfl, rfl, rfl, rfl⟩
  | headerName =>
    rw [step_headerName] at hb
    split_ifs at hb <;> cases hb
    · exact ⟨rfl, rfl, rfl, rfl, rfl⟩
    · exact ⟨rfl, rfl, rfl, rfl, rfl⟩
  | spaceBeforeHeaderValue =>
    rw [step_spaceBeforeHeaderValue] at hb
    split_ifs at hb <;> cases hb
    exact ⟨rfl, rfl, rfl, rfl, rfl⟩
  | headerValue =>
    rw [step_headerValue] at hb
    split_ifs at hb <;> cases hb
    · exact ⟨rfl, rfl, rfl, rfl, rfl⟩
    · exact ⟨rfl, rfl, rfl, rfl, rfl⟩
  | expectingNewline2 =>
    rw [step_expectingNewline2] at hb
    split_ifs at hb <;> cases hb
    exact ⟨rfl, rfl, rfl, rfl, rfl⟩
  | expectingNewline3 =>
    rw [step_expectingNewline3] at hb
    cases hb
  | _ => cases hbehind

/-- Behind the request line, what has been read of it stays. -/
theorem LineRead.behind {w : Bytes} {p p' : State × HttpRequest} {b : Byte}
    (h : LineRead w p.1 p.2) (hbehind : p.1.behindLine = true)
    (hb : parserScanner.step p b = (p', none)) : LineRead (w ++ [b]) p'.1 p'.2 := by
  obtain ⟨hbehind', hmethod, huri, hmaj, hmin⟩ := step_behindLine hbehind hb
  rw [lineRead_iff_lineDone hbehind] at h
  obtain ⟨ds, es, hds, hes, hprefix, hvers⟩ := h
  rw [lineRead_iff_lineDone hbehind', LineDone, hmethod, huri, hmaj, hmin]
  exact ⟨ds, es, hds, hes, hprefix.trans (List.prefix_append w [b]), hvers⟩

/-- Every byte without a verdict keeps what has been read. -/
theorem LineRead.step {w : Bytes} {p p' : State × HttpRequest} {b : Byte}
    (h : LineRead w p.1 p.2) (hb : parserScanner.step p b = (p', none)) :
    LineRead (w ++ [b]) p'.1 p'.2 := by
  obtain ⟨state_, req⟩ := p
  cases state_ with
  | methodStart =>
    obtain ⟨rfl, hmethod, huri⟩ := h
    rw [step_methodStart] at hb
    split_ifs at hb
    · cases hb
      refine ⟨?_, huri⟩
      show [b] = req.method_ ++ [b]
      rw [show req.method_ = [] from hmethod, List.nil_append]
    · cases hb
  | method =>
    obtain ⟨rfl, huri⟩ := h
    rw [step_method] at hb
    split_ifs at hb with hsp
    · cases hb
      show _ = _ ++ str " " ++ req.uri_
      rw [huri, hsp, List.append_nil]
      rfl
    · cases hb
      exact ⟨rfl, huri⟩
    · cases hb
  | uri =>
    rw [step_uri] at hb
    split_ifs at hb with hsp
    · cases hb
      rw [hsp, h]
      rfl
    · cases hb
    · cases hb
      rw [h]
      exact List.append_assoc ..
  | httpVersionH =>
    rw [step_httpVersionH] at hb
    split_ifs at hb with hc
    · cases hb
      rw [hc, h]
      rfl
    · cases hb
  | httpVersionT1 =>
    rw [step_httpVersionT1] at hb
    split_ifs at hb with hc
    · cases hb
      rw [hc, h]
      exact List.append_assoc ..
    · cases hb
  | httpVersionT2 =>
    rw [step_httpVersionT2] at hb
    split_ifs at hb with hc
    · cases hb
      rw [hc, h]
      exact List.append_assoc ..
    · cases hb
  | httpVersionP =>
    rw [step_httpVersionP] at hb
    split_ifs at hb with hc
    · cases hb
      rw [hc, h]
      exact List.append_assoc ..
    · cases hb
  | httpVersionSlash =>
    rw [step_httpVersionSlash] at hb
    split_ifs at hb with hc
    · cases hb
      rw [hc, h]
      exact ⟨List.append_assoc .., rfl, rfl⟩
    · cases hb
  | httpVersionMajorStart =>
    obtain ⟨rfl, hmaj, hmin⟩ := h
    rw [step_httpVersionMajorStart] at hb
    split_ifs at hb with hdigit
    · cases hb
      exact ⟨[b], DigitRun.single hdigit, rfl, by rw [hmaj]; rfl, hmin⟩
    · cases hb
  | httpVersionMajor =>
    obtain ⟨ds, hds, rfl, hmaj, hmin⟩ := h
    rw [step_httpVersionMajor] at hb
    split_ifs at hb with hdot hdigit
    · cases hb
      rw [hdot]
      exact ⟨ds, hds, rfl, hmaj, hmin⟩
    · cases hb
      refine ⟨ds ++ [b], hds.concat hdigit, List.append_assoc .., ?_, hmin⟩
      rw [hmaj, List.foldl_append]
      rfl
    · cases hb
  | httpVersionMinorStart =>
    obtain ⟨ds, hds, rfl, hmaj, hmin⟩ := h
    rw [step_httpVersionMinorStart] at hb
    split_ifs at hb with hdigit
    · cases hb
      exact ⟨ds, [b], hds, DigitRun.single hdigit, rfl, hmaj, by rw [hmin]; rfl⟩
    · cases hb
  | httpVersionMinor =>
    obtain ⟨ds, es, hds, hes, rfl, hmaj, hmin⟩ := h
    rw [step_httpVersionMinor] at hb
    split_ifs at hb with hcr hdigit
    · cases hb
      rw [hcr]
      exact ⟨ds, es, hds, hes, rfl, hmaj, hmin⟩
    · cases hb
      refine ⟨ds, es ++ [b], hds, hes.concat hdigit, List.append_assoc .., hmaj, ?_⟩
      rw [hmin, List.foldl_append]
      rfl
    · cases hb
  | expectingNewline1 =>
    obtain ⟨ds, es, hds, hes, rfl, hmaj, hmin⟩ := h
    rw [step_expectingNewline1] at hb
    split_ifs at hb with hlf
    · cases hb
      rw [hlf, List.append_assoc _ (str "\r")]
      exact ⟨ds, es, hds, hes, List.prefix_refl _, hmaj, hmin⟩
    · cases hb
  | _ => exact h.behind rfl hb

/-- What has been read after a stretch from the start. -/
theorem wellStored_and_lineRead {maj min : ℤ} {w : Bytes} {p : State × HttpRequest}
    (h : parserScanner.Feeds (.methodStart, .fresh maj min) w p) :
    WellStored p.1 p.2 ∧ LineRead w p.1 p.2 := by
  have hstart : WellStored .methodStart (.fresh maj min)
      ∧ LineRead [] .methodStart (.fresh maj min) := ⟨WellStored.fresh maj min, rfl, rfl, rfl⟩
  refine Feeds.trace (R := fun w p => WellStored p.1 p.2 ∧ LineRead w p.1 p.2) hstart ?_ h
  rintro w p b p' ⟨hstored, hread⟩ hb
  have hstep := wellStored_step hstored b
  rw [show parserScanner.step (p.1, p.2) b = _ from hb] at hstep
  exact ⟨hstep, hread.step hb⟩

/-! ## The values that are computed -/

/-- A value is computed for a digit of one of the two numbers, from what the digits
before it add up to. -/
theorem exists_of_mem_consumeTerms {w : Bytes} {p : State × HttpRequest} {b : Byte} {t : ℤ}
    (hstored : WellStored p.1 p.2) (hread : LineRead w p.1 p.2) (ht : t ∈ consumeTerms p.1 p.2 b) :
    ∃ w₀ ds, BeforeNumber w₀ ∧ (∀ c ∈ ds, DigitByte c) ∧ DigitByte b ∧ w = w₀ ++ ds
      ∧ t ∈ versionTerms (ds.foldl pushDigit 0) b := by
  obtain ⟨state_, req⟩ := p
  cases state_ with
  | httpVersionMajorStart =>
    have hne := hstored.method_ne_nil_iff.mpr (by simp)
    obtain ⟨rfl, hmaj, -⟩ := hread
    rw [consumeTerms] at ht
    split_ifs at ht with hdigit
    · rw [hmaj] at ht
      exact ⟨_, [], .major hne hstored.method_token hstored.uri_uriByte,
        fun _ h => absurd h List.not_mem_nil, (isDigit_charToInt b).mp hdigit,
        (List.append_nil _).symm, ht⟩
    · cases ht
  | httpVersionMajor =>
    have hne := hstored.method_ne_nil_iff.mpr (by simp)
    obtain ⟨ds, hds, rfl, hmaj, -⟩ := hread
    rw [consumeTerms] at ht
    split_ifs at ht with hdot hdigit
    · cases ht
    · rw [hmaj] at ht
      exact ⟨_, ds, .major hne hstored.method_token hstored.uri_uriByte, hds.2,
        (isDigit_charToInt b).mp hdigit, rfl, ht⟩
    · cases ht
  | httpVersionMinorStart =>
    have hne := hstored.method_ne_nil_iff.mpr (by simp)
    obtain ⟨ds, hds, rfl, -, hmin⟩ := hread
    rw [consumeTerms] at ht
    split_ifs at ht with hdigit
    · rw [hmin] at ht
      exact ⟨_, [], .minor hne hstored.method_token hstored.uri_uriByte hds,
        fun _ h => absurd h List.not_mem_nil, (isDigit_charToInt b).mp hdigit,
        (List.append_nil _).symm, ht⟩
    · cases ht
  | httpVersionMinor =>
    have hne := hstored.method_ne_nil_iff.mpr (by simp)
    obtain ⟨ds, es, hds, hes, rfl, -, hmin⟩ := hread
    rw [consumeTerms] at ht
    split_ifs at ht with hcr hdigit
    · cases ht
    · rw [hmin] at ht
      exact ⟨_, es, .minor hne hstored.method_token hstored.uri_uriByte hds, hes.2,
        (isDigit_charToInt b).mp hdigit, rfl, ht⟩
    · cases ht
  | _ => cases ht

/-- Every digit of a number is read, and the values are computed from what the digits
before it add up to. -/
theorem exists_feeds_beforeNumber (maj min : ℤ) {w ds : Bytes} (hw : BeforeNumber w)
    (hds : ∀ b ∈ ds, DigitByte b) :
    ∃ p, parserScanner.Feeds (.methodStart, .fresh maj min) (w ++ ds) p
      ∧ ∀ b, DigitByte b → consumeTerms p.1 p.2 b = versionTerms (ds.foldl pushDigit 0) b := by
  have hdigit : ∀ {b : Byte}, DigitByte b → isDigit (charToInt b) = true :=
    fun h => (isDigit_charToInt _).mpr h
  cases hw with
  | @major method uri hne hmethod huri =>
    have hhead := feeds_lineHead maj min hne hmethod huri
    by_cases hnil : ds = []
    · subst hnil
      rw [List.append_nil]
      refine ⟨_, hhead, fun b hb => ?_⟩
      rw [consumeTerms, if_pos (hdigit hb), List.foldl_nil]
    · have hmajor := feeds_majorDigits ⟨method, uri, 0, 0, []⟩ ds hnil hds
      refine ⟨_, hhead.append hmajor, fun b hb => ?_⟩
      rw [consumeTerms, if_neg (ne_of_class hb (by decide)), if_pos (hdigit hb)]
  | @minor method uri major hne hmethod huri hmajor =>
    have hhead := (feeds_lineHead maj min hne hmethod huri).append
      (feeds_majorDigits ⟨method, uri, 0, 0, []⟩ major hmajor.1 hmajor.2)
    have hdot : parserScanner.Feeds
        (.httpVersionMajor, ⟨method, uri, major.foldl pushDigit 0, 0, []⟩) (str ".")
        (.httpVersionMinorStart, ⟨method, uri, major.foldl pushDigit 0, 0, []⟩) := Feeds.single rfl
    by_cases hnil : ds = []
    · subst hnil
      rw [List.append_nil]
      refine ⟨_, hhead.append hdot, fun b hb => ?_⟩
      rw [consumeTerms, if_pos (hdigit hb), List.foldl_nil]
    · have hminor := feeds_minorDigits ⟨method, uri, major.foldl pushDigit 0, 0, []⟩ ds hnil hds
      refine ⟨_, (hhead.append hdot).append hminor, fun b hb => ?_⟩
      rw [consumeTerms, if_neg (ne_of_class hb (by decide)), if_pos (hdigit hb)]

/-- Numbers within the bound are computed without an overflow. -/
theorem VersionsFit.inInt {s : Bytes} (h : VersionsFit s) (maj min : ℤ) :
    ∀ t ∈ parseTerms .methodStart (.fresh maj min) s, InInt t := by
  intro t ht
  obtain ⟨w, b, rest, p, rfl, hw, hconsume⟩ := mem_emitted_iff.mp ht
  obtain ⟨hstored, hread⟩ := wellStored_and_lineRead hw
  obtain ⟨w₀, ds, hbefore, hds, hb, rfl, hterm⟩ :=
    exists_of_mem_consumeTerms hstored hread hconsume
  have hall : ∀ c ∈ ds ++ [b], DigitByte c := by
    intro c hc
    rcases List.mem_append.mp hc with hc | hc
    · exact hds c hc
    · rw [List.mem_singleton.mp hc]
      exact hb
  have hfit : decimalNumber (ds ++ [b]) ≤ versionMax :=
    h w₀ (ds ++ [b]) hbefore hall ⟨rest, by simp⟩
  -- the digits before `b` make a smaller number, which is in the field
  have hlt : decimalNumber ds < 2 ^ 31 := by
    rw [decimalNumber_concat, versionMax_eq] at hfit
    omega
  rw [foldl_pushDigit_eq hds hlt] at hterm
  exact (inInt_versionTerms_iff hb).mpr hfit t hterm

/-- Without an overflow the numbers are within the bound: digit by digit, the field
holds the number read so far and the next digit still fits. -/
theorem versionsFit_of_inInt {maj min : ℤ} {s : Bytes}
    (h : ∀ t ∈ parseTerms .methodStart (.fresh maj min) s, InInt t) : VersionsFit s := by
  intro w ds hw hds hprefix
  induction ds using List.reverseRecOn with
  | nil => exact Nat.zero_le _
  | append_singleton ds b ih =>
    have hb : DigitByte b := hds b (by simp)
    have hds' : ∀ c ∈ ds, DigitByte c := fun c hc => hds c (List.mem_append_left _ hc)
    have hle : decimalNumber ds ≤ versionMax :=
      ih hds' (((List.prefix_append_right_inj w).mpr (List.prefix_append ds [b])).trans hprefix)
    obtain ⟨p, hfeeds, hterms⟩ := exists_feeds_beforeNumber maj min hw hds'
    obtain ⟨rest, rfl⟩ := hprefix
    apply (inInt_versionTerms_iff hb).mp
    intro t ht
    rw [← foldl_pushDigit_eq hds' (by rw [versionMax_eq] at hle; omega), ← hterms b hb] at ht
    exact h t (mem_emitted_iff.mpr ⟨w ++ ds, b, rest, p, by simp, hfeeds, ht⟩)

/-- Behind an answer good lies a whole request line. -/
theorem lineDone_of_good {maj min : ℤ} {s : Bytes}
    (h : (parse .methodStart (.fresh maj min) s).result = .good) :
    ∃ req w, WellStored .expectingNewline3 req ∧ LineDone w req ∧ w <+: s
      ∧ (parse .methodStart (.fresh maj min) s).req = req := by
  rw [parse_result_eq_iff _ _ _ (by decide)] at h
  obtain ⟨w, b, rest, ⟨state_, req⟩, rfl, hw, hb⟩ := exists_feeds_of_verdict h
  obtain ⟨hstate, hreq⟩ := eq_of_step_good hb
  have hstate : state_ = .expectingNewline3 := hstate
  subst hstate
  obtain ⟨hstored, hread⟩ := wellStored_and_lineRead hw
  refine ⟨req, w, hstored, hread, List.prefix_append w _, ?_⟩
  rw [parse_eq_scan]
  exact hreq

/-- Numbers within the bound are stored as they are written. -/
theorem VersionsFit.exact {maj min : ℤ} {s : Bytes} (h : VersionsFit s)
    (hgood : (parse .methodStart (.fresh maj min) s).result = .good) :
    ∃ line : RequestLine, line.text <+: s
      ∧ (parse .methodStart (.fresh maj min) s).req.httpMajorVer_ = decimalNumber line.major
      ∧ (parse .methodStart (.fresh maj min) s).req.httpMinorVer_ = decimalNumber line.minor := by
  obtain ⟨req, w, hstored, ⟨ds, es, hds, hes, hprefix, hmaj, hmin⟩, hw, hreq⟩ :=
    lineDone_of_good hgood
  have hne := hstored.method_ne_nil_iff.mpr (by decide)
  have htext : lineHead req.method_ req.uri_ ++ ds ++ str "." ++ es ++ crlf <+: s :=
    hprefix.trans hw
  have hmajor : decimalNumber ds ≤ versionMax := by
    refine h _ ds (.major hne hstored.method_token hstored.uri_uriByte) hds.2 (.trans ?_ htext)
    rw [List.append_assoc, List.append_assoc]
    exact List.prefix_append _ _
  have hminor : decimalNumber es ≤ versionMax :=
    h _ es (.minor hne hstored.method_token hstored.uri_uriByte hds) hes.2
      ((List.prefix_append _ crlf).trans htext)
  rw [versionMax_eq] at hmajor hminor
  refine ⟨⟨_, _, ds, es, hne, hstored.method_token, hstored.uri_uriByte, hds, hes⟩, htext, ?_, ?_⟩
  · rw [hreq, hmaj, foldl_pushDigit_eq hds.2 (by omega)]
  · rw [hreq, hmin, foldl_pushDigit_eq hes.2 (by omega)]

/-- **Version numbers.**  For every input, the version numbers are computed without an
overflow, and are those of the request line, exactly if the numbers that are read are at
most `versionMax`. -/
theorem versionsExact_iff (maj min : ℤ) (s : Bytes) : VersionsExact maj min s ↔ VersionsFit s := by
  constructor
  · rintro ⟨hterms, -⟩
    exact versionsFit_of_inInt hterms
  · intro h
    exact ⟨h.inInt maj min, h.exact⟩

/-- A major version that an `int` can hold, but not together with the character of its
last digit. -/
theorem not_versionsExact :
    ¬ ∀ (maj min : ℤ) (s : Bytes), VersionsExact maj min s := by
  intro h
  obtain ⟨hterms, -⟩ := h 0 0 (str "GET / HTTP/2147483600.0\r\n\r\n")
  have hmem : (2147483648 : ℤ) ∈ parseTerms .methodStart (.fresh 0 0)
      (str "GET / HTTP/2147483600.0\r\n\r\n") := by decide +kernel
  exact absurd (hterms _ hmem) (by decide)

end Unichannel
