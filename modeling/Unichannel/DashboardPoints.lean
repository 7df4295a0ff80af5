/-
# What the dashboard reads out of `updateValues`

The script of the page (myhtml.tpl) asks for `updateValues` with the data type `json` and
adds the point to the chart in its `success` function, if the array it got is not empty:

    success: function(msg) { if(msg.length > 0){ series.addPoint(msg, true, true); } }

jQuery hands the text of the reply to `JSON.parse`, and an error there is not a success.
`parsePoint num` is that decoding, where `num` is what becomes of a number: `id` for the
number that the JSON text denotes, `binary64.round` for the number JavaScript makes of it.

A point decodes to its two integers (`decode_pointText`).  The empty content, which the
handler sends when it has no point, is no JSON text at all: `success` is not called, and
the test on the length never fails (`length_of_parsePoint`).
-/
import Unichannel.HttpReqHandler
import Unichannel.Lib.FloatFormat
import Unichannel.Lib.Json

namespace Unichannel

open FloatFormat

/-! ## The dashboard -/

/-- The characters of a text in ASCII. -/
def textOf (s : Bytes) : List Char := s.map fun b => Char.ofNat b.toNat

/-- `JSON.parse` of an array of numbers, each of which becomes `num` of what it denotes. -/
def parsePoint (num : ℚ → ℚ) (content_ : Bytes) : Option (List ℚ) :=
  (Json.decode (Json.array Json.number) (textOf content_)).map (List.map num)

/-- The dashboard gets what the queue held: the point in front, which is removed, or an
empty array if there was none. -/
def DashboardReads (num : ℚ → ℚ) (h : HttpReqHandler) (handled : Handled) : Prop :=
  match h.statQ_ with
  | [] => parsePoint num handled.rep.content_ = some []
  | stat :: rest =>
    parsePoint num handled.rep.content_
        = some [(stat.stat.dateTime_ : ℚ), (stat.stat.latencyInMicro_ : ℚ)]
      ∧ handled.handler.statQ_ = rest

/-- The fixed points of `giveMeValues` decode as an array of points. -/
example : Json.decode (Json.array (Json.array Json.number)) (textOf fixedPoints)
    = some [[873612800000, 4.58], [876291200000, 5.91], [878710400000, 1.91],
        [879388800000, 8.91]] := by
  decide +kernel

/-! ## Points are arrays of two integers -/

@[simp] theorem textOf_append (s t : Bytes) : textOf (s ++ t) = textOf s ++ textOf t :=
  List.map_append

/-- The byte of a digit is its character. -/
theorem ofNat_digitByte {d : ℕ} (hd : d < 10) :
    Char.ofNat (digitByte d).toNat = Nat.digitChar d := by
  interval_cases d <;> rfl

/-- A length is written in decimal digits. -/
theorem textOf_stdToString (n : ℕ) :
    textOf (stdToString n) = (Decimal.digits n).map Nat.digitChar := by
  rw [textOf, stdToString, List.map_map]
  exact List.map_congr_left fun d hd => ofNat_digitByte (Decimal.lt_ten_of_mem_digits hd)

/-- What a stream prints is the JSON text of the integer. -/
theorem textOf_streamInt (n : ℤ) : textOf (streamInt n) = Json.intText n := by
  unfold streamInt Json.intText
  by_cases hneg : n < 0
  · rw [if_pos hneg, if_pos hneg, ← textOf_stdToString]
    rfl
  · rw [if_neg hneg, if_neg hneg, textOf_stdToString]
    rfl

/-- The text of a point is that of an array with two elements. -/
theorem textOf_pointText (stat : LatencyStat) :
    textOf (pointText stat)
      = '[' :: ([','].intercalate [Json.intText stat.dateTime_, Json.intText stat.latencyInMicro_]
        ++ [']']) := by
  have hopen : textOf (str "[") = ['['] := by decide
  have hcomma : textOf (str ",") = [','] := by decide
  have hclose : textOf (str "]") = [']'] := by decide
  simp only [pointText, textOf_append, textOf_streamInt, hopen, hcomma, hclose,
    List.intercalate_cons_cons, List.intercalate_singleton, List.append_assoc, List.cons_append,
    List.nil_append]

/-- **A point decodes to its two integers.** -/
theorem decode_pointText (stat : LatencyStat) :
    Json.decode (Json.array Json.number) (textOf (pointText stat))
      = some [(stat.dateTime_ : ℚ), (stat.latencyInMicro_ : ℚ)] := by
  rw [textOf_pointText]
  apply Json.decode_of_reads
  apply Json.reads_array
  · exact .cons (Json.reads_intText _) (.cons (Json.reads_intText _) .nil)
  · exact List.cons_ne_nil _ _

/-- A point is read back as it was written. -/
theorem parsePoint_pointText (num : ℚ → ℚ) (stat : LatencyStat) :
    parsePoint num (pointText stat) = some [num stat.dateTime_, num stat.latencyInMicro_] := by
  rw [parsePoint, decode_pointText]
  rfl

theorem parsePoint_nil (num : ℚ → ℚ) : parsePoint num [] = none := by
  rw [parsePoint, textOf, List.map_nil, Json.decode_array_nil, Option.map_none]

/-! ## The reply to `updateValues` -/

/-- The latest point, in the content of the reply and out of the queue. -/
theorem handleRequest_updateValues (env : Env) (h : HttpReqHandler) {req : HttpRequest}
    (rep : HttpReply) (hroute : route req.uri_ = .updateValues) :
    (handleRequest env h req rep).rep.content_ = h.getLatestPoint.1
      ∧ (handleRequest env h req rep).handler = h.getLatestPoint.2 := by
  rw [handleRequest_eq, hroute]
  exact ⟨rfl, rfl⟩

/-- Whenever `success` is called, the array has two elements. -/
theorem length_of_parsePoint (num : ℚ → ℚ) (h : HttpReqHandler) {msg : List ℚ}
    (hmsg : parsePoint num h.getLatestPoint.1 = some msg) : msg.length = 2 := by
  cases hq : h.statQ_ with
  | nil =>
    rw [HttpReqHandler.getLatestPoint_of_nil hq, parsePoint_nil] at hmsg
    cases hmsg
  | cons stat rest =>
    rw [HttpReqHandler.getLatestPoint_of_cons hq, parsePoint_pointText] at hmsg
    rw [← Option.some.inj hmsg]
    rfl

/-- The dashboard gets what the queue held exactly if there was a point, of two numbers
that `num` leaves as they are. -/
theorem dashboardReads_iff_exists (num : ℚ → ℚ) (env : Env) (h : HttpReqHandler)
    (req : HttpRequest) (rep : HttpReply) (hroute : route req.uri_ = .updateValues) :
    DashboardReads num h (handleRequest env h req rep)
      ↔ ∃ stat rest, h.statQ_ = stat :: rest
        ∧ num stat.stat.dateTime_ = stat.stat.dateTime_
        ∧ num stat.stat.latencyInMicro_ = stat.stat.latencyInMicro_ := by
  obtain ⟨hcontent, hhandler⟩ := handleRequest_updateValues env h rep hroute
  unfold DashboardReads
  rw [hcontent, hhandler]
  cases hq : h.statQ_ with
  | nil =>
    -- the empty content is no JSON text
    rw [HttpReqHandler.getLatestPoint_of_nil hq]
    apply iff_of_false
    · show ¬ parsePoint num [] = some []
      rw [parsePoint_nil]
      intro hnone
      cases hnone
    · rintro ⟨stat, rest, hcons, -⟩
      cases hcons
  | cons stat rest =>
    rw [HttpReqHandler.getLatestPoint_of_cons hq]
    show parsePoint num (pointText stat.stat) = _ ∧ rest = rest ↔ _
    rw [parsePoint_pointText, eq_self rest, and_true]
    constructor
    · intro heq
      have hnums := List.cons.inj (Option.some.inj heq)
      exact ⟨stat, rest, rfl, hnums.1, (List.cons.inj hnums.2).1⟩
    · rintro ⟨stat', rest', hcons, hdate, hlatency⟩
      obtain ⟨rfl, -⟩ := List.cons.inj hcons
      rw [hdate, hlatency]

/-- **When the dashboard reads the queue.**  The text decodes to the two integers exactly if
the queue is not empty; and JavaScript has these integers exactly if they are numbers of
double precision besides. -/
theorem dashboardReads_iff (env : Env) (h : HttpReqHandler) (req : HttpRequest) (rep : HttpReply)
    (hroute : route req.uri_ = .updateValues) :
    (DashboardReads id h (handleRequest env h req rep) ↔ h.statQ_ ≠ [])
      ∧ (DashboardReads binary64.round h (handleRequest env h req rep)
        ↔ ∃ stat rest, h.statQ_ = stat :: rest
          ∧ binary64.Representable stat.stat.dateTime_
          ∧ binary64.Representable stat.stat.latencyInMicro_) := by
  rw [dashboardReads_iff_exists id env h req rep hroute,
    dashboardReads_iff_exists binary64.round env h req rep hroute]
  constructor
  · simp only [id, and_true]
    exact List.ne_nil_iff_exists_cons.symm
  · simp only [round_eq_self_iff]

/-- The earliest date and a latency of four microseconds are read as they are, by
JavaScript too. -/
theorem dashboardReads_extremes :
    DashboardReads id ⟨[], [⟨0, ⟨[], -9223372036854775808, 4⟩⟩]⟩
        (handleRequest ⟨fun _ _ => [], fun _ => none⟩
          ⟨[], [⟨0, ⟨[], -9223372036854775808, 4⟩⟩]⟩ ⟨str "GET", str "/updateValues", 1, 0, []⟩
          ⟨.ok, [], []⟩)
      ∧ DashboardReads binary64.round ⟨[], [⟨0, ⟨[], -9223372036854775808, 4⟩⟩]⟩
        (handleRequest ⟨fun _ _ => [], fun _ => none⟩
          ⟨[], [⟨0, ⟨[], -9223372036854775808, 4⟩⟩]⟩ ⟨str "GET", str "/updateValues", 1, 0, []⟩
          ⟨.ok, [], []⟩) := by
  obtain ⟨hid, hround⟩ := dashboardReads_iff ⟨fun _ _ => [], fun _ => none⟩
    ⟨[], [⟨0, ⟨[], -9223372036854775808, 4⟩⟩]⟩ ⟨str "GET", str "/updateValues", 1, 0, []⟩
    ⟨.ok, [], []⟩ (by decide +kernel)
  have hdate : binary64.Representable ((-9223372036854775808 : ℤ) : ℚ) :=
    ⟨-1, 63, by decide, by decide, by norm_num⟩
  have hlatency : binary64.Representable ((4 : ℤ) : ℚ) :=
    representable_intCast (by decide) (by decide)
  exact ⟨hid.mpr (List.cons_ne_nil _ _), hround.mpr ⟨_, [], rfl, hdate, hlatency⟩⟩

/-- With an empty queue there is nothing to decode. -/
theorem not_dashboardReads :
    ¬ ∀ (env : Env) (h : HttpReqHandler) (req : HttpRequest) (rep : HttpReply),
      route req.uri_ = .updateValues → DashboardReads id h (handleRequest env h req rep) := by
  intro hreads
  have hroute : route (str "/updateValues") = .updateValues := by decide +kernel
  obtain ⟨stat, rest, hcons, -⟩ :=
    (dashboardReads_iff_exists id ⟨fun _ _ => [], fun _ => none⟩ ⟨[], []⟩
      ⟨str "GET", str "/updateValues", 1, 0, []⟩ ⟨.ok, [], []⟩ hroute).mp
      (hreads _ _ _ _ hroute)
  cases hcons

end Unichannel
