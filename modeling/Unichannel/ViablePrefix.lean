/-
# The parser answers at the first possible byte

`parse` goes on exactly as long as the bytes can still be completed to a request, and
refuses at the first byte after which they cannot: no state is a dead end.  Each
state has a completion of its own (`State.completion`), whatever the request holds
by then.
-/
import Unichannel.HttpReqParser

namespace Unichannel

/-- `parse` answers good after all of `w`. -/
def Accepted (maj min : ℤ) (w : Bytes) : Prop :=
  (parse .methodStart (.fresh maj min) w).result = .good
    ∧ (parse .methodStart (.fresh maj min) w).begin = w.length

/-- A text is accepted if the scanner decides that it is good. -/
theorem accepted_iff (maj min : ℤ) (w : Bytes) :
    Accepted maj min w ↔ parserScanner.Decides (.methodStart, .fresh maj min) .good w := by
  rw [Accepted, parse_result_eq_iff _ _ _ (by decide), parse_begin_eq, Scanner.Decides]

/-- Bytes that complete a request from a state. -/
def State.completion : State → Bytes
  | .methodStart => str "A  HTTP/0.0\r\n\r\n"
  | .method => str "  HTTP/0.0\r\n\r\n"
  | .uri => str " HTTP/0.0\r\n\r\n"
  | .httpVersionH => str "HTTP/0.0\r\n\r\n"
  | .httpVersionT1 => str "TTP/0.0\r\n\r\n"
  | .httpVersionT2 => str "TP/0.0\r\n\r\n"
  | .httpVersionP => str "P/0.0\r\n\r\n"
  | .httpVersionSlash => str "/0.0\r\n\r\n"
  | .httpVersionMajorStart => str "0.0\r\n\r\n"
  | .httpVersionMajor => str ".0\r\n\r\n"
  | .httpVersionMinorStart => str "0\r\n\r\n"
  | .httpVersionMinor => str "\r\n\r\n"
  | .expectingNewline1 => str "\n\r\n"
  | .headerLineStart => str "\r\n"
  | .headerLws => str "\r\n\r\n"
  | .headerName => str ": \r\n\r\n"
  | .spaceBeforeHeaderValue => str " \r\n\r\n"
  | .headerValue => str "\r\n\r\n"
  | .expectingNewline2 => str "\n\r\n"
  | .expectingNewline3 => str "\n"

/-- A move towards a state with a completion. -/
theorem decides_cons_of_step {p p' : State × HttpRequest} {b : Byte} {w : Bytes}
    (hstep : parserScanner.step p b = (p', none)) (h : parserScanner.Decides p' .good w) :
    parserScanner.Decides p .good (b :: w) :=
  (Scanner.Feeds.single hstep).decides h

/-- No state is a dead end, whatever the request holds. -/
theorem decides_completion (state_ : State) (req : HttpRequest) :
    parserScanner.Decides (state_, req) .good state_.completion := by
  -- from the end of the request backwards, each state over the one behind it
  have newline3 : ∀ r, parserScanner.Decides (.expectingNewline3, r) .good (str "\n") :=
    fun r => ⟨rfl, rfl⟩
  have lineStart : ∀ r, parserScanner.Decides (.headerLineStart, r) .good (str "\r\n") :=
    fun r => decides_cons_of_step rfl (newline3 r)
  have newline2 : ∀ r, parserScanner.Decides (.expectingNewline2, r) .good (str "\n\r\n") :=
    fun r => decides_cons_of_step rfl (lineStart r)
  have newline1 : ∀ r, parserScanner.Decides (.expectingNewline1, r) .good (str "\n\r\n") :=
    fun r => decides_cons_of_step rfl (lineStart r)
  have value : ∀ r, parserScanner.Decides (.headerValue, r) .good (str "\r\n\r\n") :=
    fun r => decides_cons_of_step rfl (newline2 r)
  have space : ∀ r,
      parserScanner.Decides (.spaceBeforeHeaderValue, r) .good (str " \r\n\r\n") :=
    fun r => decides_cons_of_step rfl (value r)
  have minor : ∀ r, parserScanner.Decides (.httpVersionMinor, r) .good (str "\r\n\r\n") :=
    fun r => decides_cons_of_step rfl (newline1 r)
  have minorStart : ∀ r,
      parserScanner.Decides (.httpVersionMinorStart, r) .good (str "0\r\n\r\n") :=
    fun r => decides_cons_of_step rfl (minor _)
  have major : ∀ r, parserScanner.Decides (.httpVersionMajor, r) .good (str ".0\r\n\r\n") :=
    fun r => decides_cons_of_step rfl (minorStart r)
  have majorStart : ∀ r,
      parserScanner.Decides (.httpVersionMajorStart, r) .good (str "0.0\r\n\r\n") :=
    fun r => decides_cons_of_step rfl (major _)
  have slash : ∀ r, parserScanner.Decides (.httpVersionSlash, r) .good (str "/0.0\r\n\r\n") :=
    fun r => decides_cons_of_step rfl (majorStart _)
  have versionP : ∀ r, parserScanner.Decides (.httpVersionP, r) .good (str "P/0.0\r\n\r\n") :=
    fun r => decides_cons_of_step rfl (slash r)
  have versionT2 : ∀ r,
      parserScanner.Decides (.httpVersionT2, r) .good (str "TP/0.0\r\n\r\n") :=
    fun r => decides_cons_of_step rfl (versionP r)
  have versionT1 : ∀ r,
      parserScanner.Decides (.httpVersionT1, r) .good (str "TTP/0.0\r\n\r\n") :=
    fun r => decides_cons_of_step rfl (versionT2 r)
  have versionH : ∀ r,
      parserScanner.Decides (.httpVersionH, r) .good (str "HTTP/0.0\r\n\r\n") :=
    fun r => decides_cons_of_step rfl (versionT1 r)
  have uri : ∀ r, parserScanner.Decides (.uri, r) .good (str " HTTP/0.0\r\n\r\n") :=
    fun r => decides_cons_of_step rfl (versionH r)
  have method : ∀ r, parserScanner.Decides (.method, r) .good (str "  HTTP/0.0\r\n\r\n") :=
    fun r => decides_cons_of_step rfl (uri r)
  cases state_ with
  | methodStart => exact decides_cons_of_step rfl (method _)
  | method => exact method req
  | uri => exact uri req
  | httpVersionH => exact versionH req
  | httpVersionT1 => exact versionT1 req
  | httpVersionT2 => exact versionT2 req
  | httpVersionP => exact versionP req
  | httpVersionSlash => exact slash req
  | httpVersionMajorStart => exact majorStart req
  | httpVersionMajor => exact major req
  | httpVersionMinorStart => exact minorStart req
  | httpVersionMinor => exact minor req
  | expectingNewline1 => exact newline1 req
  | headerLineStart => exact lineStart req
  | headerLws => exact decides_cons_of_step rfl (newline2 req)
  | headerName => exact decides_cons_of_step rfl (space req)
  | spaceBeforeHeaderValue => exact space req
  | headerValue => exact value req
  | expectingNewline2 => exact newline2 req
  | expectingNewline3 => exact newline3 req

/-- From every state a request can be completed. -/
theorem exists_completion_of_state (p : State × HttpRequest) :
    ∃ z, parserScanner.Decides p .good z :=
  ⟨p.1.completion, decides_completion p.1 p.2⟩

/-- `s` can be completed to a request by a nonempty continuation. -/
def ProperPrefix (maj min : ℤ) (s : Bytes) : Prop := ∃ z, z ≠ [] ∧ Accepted maj min (s ++ z)

/-- The proper prefixes of requests are what can be completed. -/
theorem properPrefix_iff_viable (maj min : ℤ) (s : Bytes) :
    ProperPrefix maj min s ↔ parserScanner.Viable (.methodStart, .fresh maj min) .good s := by
  simp only [ProperPrefix, Scanner.Viable, accepted_iff]

/-- The other verdict is bad. -/
theorem parse_result_eq_bad_iff (state_ : State) (req : HttpRequest) (s : Bytes) :
    (parse state_ req s).result = .bad
      ↔ (parserScanner.scan (state_, req) s).verdict ≠ none
        ∧ (parserScanner.scan (state_, req) s).verdict ≠ some .good := by
  rw [parse_result_eq_iff _ _ _ (by decide)]
  have hne := verdict_ne_indeterminate (state_, req) s
  cases hv : (parserScanner.scan (state_, req) s).verdict with
  | none => simp
  | some r =>
    rw [hv] at hne
    cases r with
    | good => simp
    | bad => simp
    | indeterminate => exact absurd rfl hne

/-- **Viable prefixes.**  From a fresh parser and a fresh request, `parse` is
undecided exactly on the proper prefixes of requests; it answers bad after `k` bytes
exactly if the first `k - 1` are such a prefix and the first `k` are not the
beginning of any request; and every undecided parse has a completion, given by the
state alone. -/
theorem parse_viable (maj min : ℤ) :
    (∀ s, (parse .methodStart (.fresh maj min) s).result = .indeterminate
        ↔ ProperPrefix maj min s)
      ∧ (∀ s k, ((parse .methodStart (.fresh maj min) s).result = .bad
          ∧ (parse .methodStart (.fresh maj min) s).begin = k)
        ↔ k ≤ s.length ∧ 0 < k ∧ ProperPrefix maj min (s.take (k - 1))
          ∧ ∀ z, ¬ Accepted maj min (s.take k ++ z))
      ∧ ∀ s, (parse .methodStart (.fresh maj min) s).result = .indeterminate →
        Accepted maj min (s ++ (parse .methodStart (.fresh maj min) s).state_.completion) := by
  refine ⟨?_, ?_, ?_⟩
  · intro s
    rw [parse_result_eq_indeterminate_iff, properPrefix_iff_viable]
    exact (parserScanner.viable_iff exists_completion_of_state _ s).symm
  · intro s k
    rw [parse_result_eq_bad_iff, parse_begin_eq, properPrefix_iff_viable]
    simp only [accepted_iff]
    exact parserScanner.other_verdict_iff exists_completion_of_state _ s k
  · intro s hs
    rw [parse_result_eq_indeterminate_iff] at hs
    have hstate : parserScanner.scan (.methodStart, .fresh maj min) s
        = ⟨((parse .methodStart (.fresh maj min) s).state_,
            (parse .methodStart (.fresh maj min) s).req), none, s.length⟩ := by
      rw [parse_eq_scan]
      exact Scanner.Outcome.ext rfl hs (parserScanner.consumed_eq_length_of_none hs)
    rw [accepted_iff]
    exact Scanner.Feeds.decides hstate (decides_completion _ _)

end Unichannel
