/-
# Uninitialised version fields do not matter

The constructor of `HttpRequest` leaves the two version fields as they are, and the
parser sets them when it reads the slash of `HTTP/`.  Until then nothing it does looks
at them: whatever they hold, the parser answers the same at the same byte, and what it
answers good is the same request.
-/
import Unichannel.ParserMoves

namespace Unichannel

/-- The states behind the slash of `HTTP/`. -/
def State.versionsSet : State → Bool
  | .methodStart => false
  | .method => false
  | .uri => false
  | .httpVersionH => false
  | .httpVersionT1 => false
  | .httpVersionT2 => false
  | .httpVersionP => false
  | .httpVersionSlash => false
  | _ => true

/-- Two parsers with their requests that are the same but for version fields that have
not been set. -/
structure SameButUnset (p q : State × HttpRequest) : Prop where
  state_eq : p.1 = q.1
  method_eq : p.2.method_ = q.2.method_
  uri_eq : p.2.uri_ = q.2.uri_
  headers_eq : p.2.headers_ = q.2.headers_
  versions_eq : p.1.versionsSet = true →
    p.2.httpMajorVer_ = q.2.httpMajorVer_ ∧ p.2.httpMinorVer_ = q.2.httpMinorVer_

namespace SameButUnset

/-- Behind the slash they are the same. -/
theorem eq_of_versionsSet {p q : State × HttpRequest} (h : SameButUnset p q)
    (hset : p.1.versionsSet = true) : p = q := by
  obtain ⟨state_, ⟨method_, uri_, maj, min, headers_⟩⟩ := p
  obtain ⟨state', ⟨method', uri', maj', min', headers'⟩⟩ := q
  obtain ⟨hstate, hmethod, huri, hheaders, hversions⟩ := h
  obtain ⟨hmaj, hmin⟩ := hversions hset
  dsimp only at hstate hmethod huri hheaders hmaj hmin
  rw [hstate, hmethod, huri, hheaders, hmaj, hmin]

variable {state_ : State} {req req' : HttpRequest}

/-- A move that leaves the requests as they are. -/
theorem goes (h : SameButUnset (state_, req) (state_, req')) (state' : State)
    (hunset : state'.versionsSet = true → state_.versionsSet = true) :
    SameButUnset (state', req) (state', req') :=
  ⟨rfl, h.method_eq, h.uri_eq, h.headers_eq, fun hset => h.versions_eq (hunset hset)⟩

theorem pushMethod (h : SameButUnset (state_, req) (state_, req')) (state' : State) (b : Byte)
    (hunset : state'.versionsSet = true → state_.versionsSet = true) :
    SameButUnset (state', req.pushMethod b) (state', req'.pushMethod b) :=
  ⟨rfl, congrArg (· ++ [b]) h.method_eq, h.uri_eq, h.headers_eq,
    fun hset => h.versions_eq (hunset hset)⟩

theorem pushUri (h : SameButUnset (state_, req) (state_, req')) (state' : State) (b : Byte)
    (hunset : state'.versionsSet = true → state_.versionsSet = true) :
    SameButUnset (state', req.pushUri b) (state', req'.pushUri b) :=
  ⟨rfl, h.method_eq, congrArg (· ++ [b]) h.uri_eq, h.headers_eq,
    fun hset => h.versions_eq (hunset hset)⟩

/-- The slash sets both fields. -/
theorem setVersions (h : SameButUnset (state_, req) (state_, req')) (state' : State) :
    SameButUnset (state', { req with httpMajorVer_ := 0, httpMinorVer_ := 0 })
      (state', { req' with httpMajorVer_ := 0, httpMinorVer_ := 0 }) :=
  ⟨rfl, h.method_eq, h.uri_eq, h.headers_eq, fun _ => ⟨rfl, rfl⟩⟩

end SameButUnset

/-- **Step lemma.**  A byte gets the same answer from both. -/
theorem sameButUnset_step (p q : State × HttpRequest) (b : Byte) (h : SameButUnset p q) :
    (parserScanner.step p b).2 = (parserScanner.step q b).2
      ∧ SameButUnset (parserScanner.step p b).1 (parserScanner.step q b).1 := by
  by_cases hset : p.1.versionsSet = true
  · rw [h.eq_of_versionsSet hset]
    exact ⟨rfl, rfl, rfl, rfl, rfl, fun _ => ⟨rfl, rfl⟩⟩
  obtain ⟨state_, req⟩ := p
  obtain ⟨state', req'⟩ := q
  obtain rfl : state_ = state' := h.state_eq
  -- only the states in front of the slash are left
  cases state_ with
  | methodStart =>
    rw [step_methodStart, step_methodStart]
    split_ifs
    · exact ⟨rfl, h.pushMethod .method b id⟩
    · exact ⟨rfl, h⟩
  | method =>
    rw [step_method, step_method]
    split_ifs
    · exact ⟨rfl, h.goes .uri id⟩
    · exact ⟨rfl, h.pushMethod .method b id⟩
    · exact ⟨rfl, h⟩
  | uri =>
    rw [step_uri, step_uri]
    split_ifs
    · exact ⟨rfl, h.goes .httpVersionH id⟩
    · exact ⟨rfl, h⟩
    · exact ⟨rfl, h.pushUri .uri b id⟩
  | httpVersionH =>
    rw [step_httpVersionH, step_httpVersionH]
    split_ifs
    · exact ⟨rfl, h.goes .httpVersionT1 id⟩
    · exact ⟨rfl, h⟩
  | httpVersionT1 =>
    rw [step_httpVersionT1, step_httpVersionT1]
    split_ifs
    · exact ⟨rfl, h.goes .httpVersionT2 id⟩
    · exact ⟨rfl, h⟩
  | httpVersionT2 =>
    rw [step_httpVersionT2, step_httpVersionT2]
    split_ifs
    · exact ⟨rfl, h.goes .httpVersionP id⟩
    · exact ⟨rfl, h⟩
  | httpVersionP =>
    rw [step_httpVersionP, step_httpVersionP]
    split_ifs
    · exact ⟨rfl, h.goes .httpVersionSlash id⟩
    · exact ⟨rfl, h⟩
  | httpVersionSlash =>
    rw [step_httpVersionSlash, step_httpVersionSlash]
    split_ifs
    · exact ⟨rfl, h.setVersions .httpVersionMajorStart⟩
    · exact ⟨rfl, h⟩
  | _ => exact absurd rfl hset

/-- Whatever two fresh requests hold, they are scanned in step. -/
theorem sameButUnset_scan (maj min maj' min' : ℤ) (s : Bytes) :
    (parserScanner.scan (.methodStart, .fresh maj min) s).verdict
        = (parserScanner.scan (.methodStart, .fresh maj' min') s).verdict
      ∧ (parserScanner.scan (.methodStart, .fresh maj min) s).consumed
        = (parserScanner.scan (.methodStart, .fresh maj' min') s).consumed
      ∧ SameButUnset (parserScanner.scan (.methodStart, .fresh maj min) s).state
        (parserScanner.scan (.methodStart, .fresh maj' min') s).state := by
  refine parserScanner.scan_relates sameButUnset_step ?_ s
  exact ⟨rfl, rfl, rfl, rfl, fun hset => absurd hset Bool.false_ne_true⟩

/-- Good is answered behind the slash. -/
theorem versionsSet_of_good {p : State × HttpRequest} {s : Bytes}
    (h : (parserScanner.scan p s).verdict = some .good) :
    (parserScanner.scan p s).state.1.versionsSet = true := by
  obtain ⟨w, b, rest, ⟨state_, req⟩, -, -, hb⟩ := Scanner.exists_feeds_of_verdict h
  obtain rfl : state_ = .expectingNewline3 := (eq_of_step_good hb).1
  rw [step_expectingNewline3] at hb
  rw [← congrArg (fun o => o.1.1) hb]
  rfl

/-- **Uninitialised version fields do not matter.**  Whatever two fresh requests hold in
them, a stream is answered the same after the same number of bytes; and once the parser
has read the slash of `HTTP/`, so in particular when it answers good, all it leaves is
the same. -/
theorem parse_fresh (maj min maj' min' : ℤ) (s : Bytes) :
    (parse .methodStart (.fresh maj min) s).result
        = (parse .methodStart (.fresh maj' min') s).result
      ∧ (parse .methodStart (.fresh maj min) s).begin
        = (parse .methodStart (.fresh maj' min') s).begin
      ∧ ((parse .methodStart (.fresh maj min) s).result = .good →
        (parse .methodStart (.fresh maj min) s).req
          = (parse .methodStart (.fresh maj' min') s).req) := by
  obtain ⟨hverdict, hconsumed, hstate⟩ := sameButUnset_scan maj min maj' min' s
  refine ⟨?_, ?_, ?_⟩
  · rw [parse_eq_scan, parse_eq_scan, Parsed.ofOutcome, Parsed.ofOutcome, hverdict]
  · rw [parse_begin_eq, parse_begin_eq, hconsumed]
  · intro hgood
    rw [parse_result_eq_iff _ _ _ (by decide)] at hgood
    rw [parse_eq_scan, parse_eq_scan]
    exact congrArg Prod.snd (hstate.eq_of_versionsSet (versionsSet_of_good hgood))

end Unichannel
