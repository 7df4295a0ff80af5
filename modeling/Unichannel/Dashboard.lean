/-
# The chart of the dashboard (myhtml.tpl, highstock.js)

The page asks for `giveMeValues` once and makes a chart of the points it gets.  Then it
asks for `updateValues` at every tick and adds the point of each reply, if there is one,
with `series.addPoint(msg, true, true)`: the chart puts it in its place by date and lets
the first point go.  Nothing makes the replies arrive in the order of the questions, and
nothing makes the consumers add the stats in the order in which they were fed.  A reply can
also fail to come in, and its point is lost then, since the stat was popped before the reply
was written.

The order does not show in the chart: it always has four points, whose dates are the last
four of the fixed points and of all points that have arrived (`chart_latest`).  So once
everything has arrived and nothing was lost, the chart is the same whatever the interleaving
was (`charts_agree`).
-/
import Unichannel.DashboardPoints
import Unichannel.Draining
import Unichannel.FeedOrder
import Unichannel.Lib.LatestWindow

namespace Unichannel

open GuardedSystem FloatFormat

/-! ## The chart -/

/-- A point of the series. -/
structure ChartPoint where
  x : ℚ
  y : ℚ
  deriving DecidableEq, Repr

/-- `applyOptions` on an array of two numbers. -/
def ChartPoint.ofArray : List ℚ → Option ChartPoint
  | [x, y] => some ⟨x, y⟩
  | _ => none

/-- `addPoint(options, redraw, shift)`, as far as the points go. -/
def addPoint (options : ChartPoint) (shift : Bool) (data : List ChartPoint) : List ChartPoint :=
  let data := LatestWindow.insert ChartPoint.x options data
  if shift then data.tail else data

/-- `success` of the request for `updateValues`. -/
def addReceived (msg : List ℚ) (series : List ChartPoint) : List ChartPoint :=
  if msg.length > 0 then
    match ChartPoint.ofArray msg with
    | some point => addPoint point true series
    | none => series
  else series

/-- A reply to `updateValues` comes in; a text that does not parse is not a success. -/
def onReply (num : ℚ → ℚ) (content_ : Bytes) (series : List ChartPoint) : List ChartPoint :=
  match parsePoint num content_ with
  | some msg => addReceived msg series
  | none => series

/-- `JSON.parse` of an array of points. -/
def parsePoints (num : ℚ → ℚ) (content_ : Bytes) : Option (List (List ℚ)) :=
  (Json.decode (Json.array (Json.array Json.number)) (textOf content_)).map
    (List.map (List.map num))

/-- `success` of the request for `giveMeValues`: the series the chart is made with. -/
def createChart (num : ℚ → ℚ) (content_ : Bytes) : Option (List ChartPoint) :=
  (parsePoints num content_).map fun msg => msg.filterMap ChartPoint.ofArray

/-! ## The page and the server -/

/-- The pipeline and the page: the chart, once it is there, the replies to `updateValues`
that are on their way, and the stats that were in replies that have failed. -/
structure Dashboard where
  pipeline : StatPipeline
  series : Option (List ChartPoint)
  inFlight : List Served
  lost : Multiset LatencyStat.Ptr

/-- The events. -/
inductive DashboardEvent
  /-- An event of the pipeline that is not about the page. -/
  | pipeline (e : PipelineEvent)
  /-- The server answers the page's request for `giveMeValues`, and the chart is made. -/
  | giveMeValues (env : Env) (req : HttpRequest) (rep : HttpReply)
  /-- The server answers a request of the page for `updateValues`. -/
  | updateValues (env : Env) (req : HttpRequest) (rep : HttpReply)
  /-- The reply number `k` of those in flight comes in. -/
  | success (k : ℕ)
  /-- The reply number `k` of those in flight fails: its write did, or its connection. -/
  | error (k : ℕ)

/-- What an event is to the pipeline. -/
def DashboardEvent.pipelineEvent : DashboardEvent → Option PipelineEvent
  | .pipeline e => some e
  | .giveMeValues env req rep | .updateValues env req rep => some (.request env req rep)
  | .success _ | .error _ => none

namespace Dashboard

/-- One event, where `num` is what JavaScript makes of a number; `none` if it is not
enabled. -/
def step (num : ℚ → ℚ) (d : Dashboard) : DashboardEvent → Option Dashboard
  | .pipeline e => (d.pipeline.step e).map fun s => { d with pipeline := s }
  | .giveMeValues env req rep =>
    if d.series = none ∧ route req.uri_ = .giveMeValues then
      (d.pipeline.step (.request env req rep)).map fun s =>
        { d with
          pipeline := s
          series := createChart num (handleRequest env d.pipeline.reqHandler req rep).rep.content_ }
    else none
  | .updateValues env req rep =>
    if d.series ≠ none ∧ route req.uri_ = .updateValues then
      (d.pipeline.step (.request env req rep)).map fun s =>
        { d with
          pipeline := s
          inFlight := d.inFlight ++ [⟨(handleRequest env d.pipeline.reqHandler req rep).rep,
            latestPoint d.pipeline.reqHandler req⟩] }
    else none
  | .success k =>
    match d.series, d.inFlight[k]? with
    | some series, some served =>
      some { d with
        series := some (onReply num served.rep.content_ series)
        inFlight := d.inFlight.eraseIdx k }
    | _, _ => none
  | .error k =>
    match d.inFlight[k]? with
    | some served =>
      -- the page hears of an error, and does nothing
      some { d with
        inFlight := d.inFlight.eraseIdx k
        lost := d.lost + served.point.toList }
    | none => none

/-- The program when it starts, and no page. -/
def initial (consumerThreadCount : ℕ) (docRoot : Bytes) : Dashboard :=
  ⟨StatPipeline.initial consumerThreadCount docRoot, none, [], 0⟩

end Dashboard

/-- Nobody but the page asks for `updateValues`. -/
def OnlyPage (_ : Dashboard) : DashboardEvent → Prop
  | .pipeline (.request _ req _) => route req.uri_ ≠ .updateValues
  | _ => True

instance : DecidableRel OnlyPage := fun _ e =>
  match e with
  | .pipeline (.request _ req _) =>
    inferInstanceAs (Decidable (route req.uri_ ≠ .updateValues))
  | .pipeline (.manager _) | .giveMeValues _ _ _ | .updateValues _ _ _ | .success _
  | .error _ => isTrue trivial

/-! ## What comes in -/

/-- The point of the chart that a stat becomes. -/
def ChartPoint.ofStat (num : ℚ → ℚ) (stat : LatencyStat.Ptr) : ChartPoint :=
  ⟨num stat.stat.dateTime_, num stat.stat.latencyInMicro_⟩

/-- The fixed points. -/
def fixedChart (num : ℚ → ℚ) : List ChartPoint :=
  [⟨num 873612800000, num 4.58⟩, ⟨num 876291200000, num 5.91⟩, ⟨num 878710400000, num 1.91⟩,
    ⟨num 879388800000, num 8.91⟩]

/-- The chart is made of the fixed points. -/
theorem createChart_fixedPoints (num : ℚ → ℚ) :
    createChart num fixedPoints = some (fixedChart num) := by
  have hdecode : Json.decode (Json.array (Json.array Json.number)) (textOf fixedPoints)
      = some [[873612800000, 4.58], [876291200000, 5.91], [878710400000, 1.91],
        [879388800000, 8.91]] := by
    decide +kernel
  rw [createChart, parsePoints, hdecode]
  rfl

/-- Integers of fewer than 53 binary digits are read as they are. -/
def ExactIntegers (num : ℚ → ℚ) : Prop := ∀ z : ℤ, |z| < 2 ^ 53 → num z = z

/-- JavaScript does so. -/
theorem exactIntegers_round : ExactIntegers binary64.round :=
  fun _ hz => (round_eq_self_iff _).mpr (representable_intCast hz (by decide))

/-- Their dates are read as they are written. -/
theorem map_x_fixedChart {num : ℚ → ℚ} (h : ExactIntegers num) :
    (fixedChart num).map ChartPoint.x
      = [873612800000, 876291200000, 878710400000, 879388800000] := by
  have h₁ : num 873612800000 = 873612800000 := h 873612800000 (by norm_num)
  have h₂ : num 876291200000 = 876291200000 := h 876291200000 (by norm_num)
  have h₃ : num 878710400000 = 878710400000 := h 878710400000 (by norm_num)
  have h₄ : num 879388800000 = 879388800000 := h 879388800000 (by norm_num)
  rw [fixedChart, h₁, h₂, h₃, h₄]
  rfl

theorem inOrder_fixedChart {num : ℚ → ℚ} (h : ExactIntegers num) :
    LatestWindow.InOrder ChartPoint.x (fixedChart num) := by
  unfold LatestWindow.InOrder
  rw [← List.pairwise_map, map_x_fixedChart h]
  norm_num [List.pairwise_cons]

/-- The point of a stat is added to the chart. -/
theorem onReply_pointText (num : ℚ → ℚ) (stat : LatencyStat.Ptr) (series : List ChartPoint) :
    onReply num (pointText stat.stat) series
      = LatestWindow.push ChartPoint.x (.ofStat num stat) series := by
  rw [onReply, parsePoint_pointText]
  rfl

theorem onReply_nil (num : ℚ → ℚ) (series : List ChartPoint) :
    onReply num [] series = series := by
  rw [onReply, parsePoint_nil]

/-- A reply to `updateValues` takes the stat in front, and the chart makes its point of it;
a reply without a stat changes nothing. -/
theorem onReply_handleRequest (num : ℚ → ℚ) (env : Env) (h : HttpReqHandler)
    {req : HttpRequest} (rep : HttpReply) (hroute : route req.uri_ = .updateValues)
    (series : List ChartPoint) :
    onReply num (handleRequest env h req rep).rep.content_ series
      = match latestPoint h req with
        | some stat => LatestWindow.push ChartPoint.x (.ofStat num stat) series
        | none => series := by
  rw [(handleRequest_updateValues env h rep hroute).1, latestPoint, if_pos hroute]
  cases hq : h.statQ_ with
  | nil =>
    rw [HttpReqHandler.getLatestPoint_of_nil hq]
    exact onReply_nil num series
  | cons stat rest =>
    rw [HttpReqHandler.getLatestPoint_of_cons hq]
    exact onReply_pointText num stat series

/-! ## The invariant -/

namespace Dashboard

variable {num : ℚ → ℚ} {n : ℕ} {docRoot : Bytes} {d d' : Dashboard} {e : DashboardEvent}
  {es : List DashboardEvent}

/-- The stats whose points are on the way to the page. -/
def underWay (d : Dashboard) : List LatencyStat.Ptr := d.inFlight.filterMap Served.point

/-- A reply in flight changes the chart by the point of its stat. -/
def Carries (num : ℚ → ℚ) (served : Served) : Prop :=
  ∀ series, onReply num served.rep.content_ series
    = match served.point with
      | some stat => LatestWindow.push ChartPoint.x (.ofStat num stat) series
      | none => series

/-- What has come in makes the chart. -/
structure Charted (num : ℚ → ℚ) (d : Dashboard) (arrived : Multiset LatencyStat.Ptr) : Prop where
  delivered : (d.pipeline.delivered : Multiset LatencyStat.Ptr) = arrived + d.underWay + d.lost
  carries : ∀ served ∈ d.inFlight, Carries num served
  before : d.series = none → arrived = 0
  chart : ∀ series, d.series = some series → series.length = 4
    ∧ LatestWindow.Latest ChartPoint.x
      (fixedChart num + arrived.map (ChartPoint.ofStat num) : Multiset ChartPoint) series

/-! ### What the events do -/

/-- The chart is made once, from the reply to `giveMeValues`. -/
theorem step_giveMeValues {env : Env} {req : HttpRequest} {rep : HttpReply}
    (hstep : d.step num (.giveMeValues env req rep) = some d') :
    d.series = none ∧ route req.uri_ = .giveMeValues
      ∧ ∃ s, d.pipeline.step (.request env req rep) = some s
        ∧ d' = { d with pipeline := s, series := some (fixedChart num) } := by
  simp only [step] at hstep
  split_ifs at hstep with hguard
  obtain ⟨s, hs, rfl⟩ := Option.map_eq_some_iff.mp hstep
  refine ⟨hguard.1, hguard.2, s, hs, ?_⟩
  have hcontent : (handleRequest env d.pipeline.reqHandler req rep).rep.content_ = fixedPoints := by
    rw [handleRequest_eq, hguard.2]
    rfl
  rw [hcontent, createChart_fixedPoints]

/-- The page asks for an update when the chart is there, and waits for the reply. -/
theorem step_updateValues {env : Env} {req : HttpRequest} {rep : HttpReply}
    (hstep : d.step num (.updateValues env req rep) = some d') :
    d.series ≠ none ∧ route req.uri_ = .updateValues
      ∧ ∃ s, d.pipeline.step (.request env req rep) = some s
        ∧ d' = { d with
          pipeline := s
          inFlight := d.inFlight ++ [⟨(handleRequest env d.pipeline.reqHandler req rep).rep,
            latestPoint d.pipeline.reqHandler req⟩] } := by
  simp only [step] at hstep
  split_ifs at hstep with hguard
  obtain ⟨s, hs, rfl⟩ := Option.map_eq_some_iff.mp hstep
  exact ⟨hguard.1, hguard.2, s, hs, rfl⟩

/-- A reply on its way comes in, and its point is added. -/
theorem step_success {k : ℕ} (hstep : d.step num (.success k) = some d') :
    ∃ series served, d.series = some series ∧ d.inFlight[k]? = some served
      ∧ d' = { d with
        series := some (onReply num served.rep.content_ series)
        inFlight := d.inFlight.eraseIdx k } := by
  simp only [step] at hstep
  split at hstep
  · rename_i series served hseries hk
    exact ⟨series, served, hseries, hk, (Option.some.inj hstep).symm⟩
  · cases hstep

/-- A reply that fails changes the chart no more. -/
theorem step_error {k : ℕ} (hstep : d.step num (.error k) = some d') :
    ∃ served, d.inFlight[k]? = some served
      ∧ d' = { d with
        inFlight := d.inFlight.eraseIdx k
        lost := d.lost + served.point.toList } := by
  simp only [step] at hstep
  split at hstep
  · rename_i served hk
    exact ⟨served, hk, (Option.some.inj hstep).symm⟩
  · cases hstep

/-- **What an event is to the pipeline**: one of its events, or nothing. -/
theorem step_pipeline (hstep : d.step num e = some d') :
    d'.pipeline = d.pipeline
      ∨ ∃ pe, e.pipelineEvent = some pe ∧ d.pipeline.step pe = some d'.pipeline := by
  cases e with
  | pipeline e =>
    obtain ⟨s, hs, rfl⟩ := Option.map_eq_some_iff.mp hstep
    exact Or.inr ⟨e, rfl, hs⟩
  | giveMeValues env req rep =>
    obtain ⟨-, -, s, hs, rfl⟩ := step_giveMeValues hstep
    exact Or.inr ⟨_, rfl, hs⟩
  | updateValues env req rep =>
    obtain ⟨-, -, s, hs, rfl⟩ := step_updateValues hstep
    exact Or.inr ⟨_, rfl, hs⟩
  | success k =>
    obtain ⟨series, served, -, -, rfl⟩ := step_success hstep
    exact Or.inl rfl
  | error k =>
    obtain ⟨served, -, rfl⟩ := step_error hstep
    exact Or.inl rfl

/-- **The rule for the pipeline**: a run of the whole shows as one of the pipeline. -/
theorem pipeline_run {Q : Dashboard → DashboardEvent → Prop}
    {P : StatPipeline → PipelineEvent → Prop}
    (hP : ∀ d e pe, Q d e → e.pipelineEvent = some pe → P d.pipeline pe)
    (h : Runs (step num) Q (initial n docRoot) es d) :
    ∃ ps, Runs StatPipeline.step P (StatPipeline.initial n docRoot) ps d.pipeline := by
  refine h.part Dashboard.pipeline fun d e d' hQ hstep => ?_
  rcases step_pipeline hstep with hsame | ⟨pe, he, hpe⟩
  · exact Or.inl hsame
  · exact Or.inr ⟨pe, hP d e pe hQ he, hpe⟩

/-- A request puts its point, if any, behind those delivered. -/
theorem delivered_request {s s' : StatPipeline} {env : Env} {req : HttpRequest} {rep : HttpReply}
    (hstep : s.step (.request env req rep) = some s') :
    s'.delivered = s.delivered ++ (latestPoint s.reqHandler req).toList := by
  rw [StatPipeline.step_request hstep, StatPipeline.delivered, List.filterMap_append]
  cases hpoint : latestPoint s.reqHandler req <;> simp [StatPipeline.delivered]

theorem latestPoint_of_ne {h : HttpReqHandler} {req : HttpRequest}
    (hroute : route req.uri_ ≠ .updateValues) : latestPoint h req = none := if_neg hroute

/-- What is not about the page delivers nothing. -/
theorem delivered_step {s s' : StatPipeline} {e : PipelineEvent} (hP : OnlyPage d (.pipeline e))
    (hstep : s.step e = some s') : s'.delivered = s.delivered := by
  cases e with
  | manager e =>
    obtain ⟨m, eff, -, rfl⟩ := StatPipeline.step_manager hstep
    rw [StatPipeline.delivered, StatPipeline.apply_replies]
    rfl
  | request env req rep =>
    rw [delivered_request hstep, latestPoint_of_ne hP]
    exact List.append_nil _

/-- A reply that is no longer in flight carried its point. -/
theorem underWay_eraseIdx {k : ℕ} {served : Served} (hk : d.inFlight[k]? = some served) :
    (d.underWay : Multiset LatencyStat.Ptr)
      = served.point.toList + (d.inFlight.eraseIdx k).filterMap Served.point := by
  obtain ⟨hlt, hserved⟩ := List.getElem?_eq_some_iff.mp hk
  have hperm := (List.getElem_cons_eraseIdx_perm hlt).filterMap Served.point
  rw [hserved] at hperm
  rw [Multiset.coe_add, underWay, Multiset.coe_eq_coe]
  refine hperm.symm.trans ?_
  cases hpoint : served.point with
  | none => rw [List.filterMap_cons_none hpoint, Option.toList_none, List.nil_append]
  | some stat => rw [List.filterMap_cons_some hpoint]; rfl

/-- The replies that stay in flight carry what they carried. -/
theorem Charted.carries_eraseIdx {arrived : Multiset LatencyStat.Ptr} (h : Charted num d arrived)
    (k : ℕ) : ∀ r ∈ d.inFlight.eraseIdx k, Carries num r := by
  intro r hr
  exact h.carries r (List.mem_of_mem_eraseIdx hr)

/-- **Step lemma.** -/
theorem charted_step {arrived : Multiset LatencyStat.Ptr} (hnum : ExactIntegers num)
    (h : Charted num d arrived) (hP : OnlyPage d e) (hstep : d.step num e = some d') :
    ∃ arrived', Charted num d' arrived' := by
  cases e with
  | pipeline e =>
    obtain ⟨s, hs, rfl⟩ := Option.map_eq_some_iff.mp hstep
    refine ⟨arrived, ?_, h.carries, h.before, h.chart⟩
    rw [show ({ d with pipeline := s } : Dashboard).pipeline.delivered = d.pipeline.delivered from
      delivered_step hP hs]
    exact h.delivered
  | giveMeValues env req rep =>
    obtain ⟨hnone, hroute, s, hs, rfl⟩ := step_giveMeValues hstep
    have hdelivered : s.delivered = d.pipeline.delivered := by
      rw [delivered_request hs, latestPoint_of_ne (by rw [hroute]; simp), Option.toList_none,
        List.append_nil]
    refine ⟨arrived, ?_, h.carries, fun hsome => (by cases hsome), ?_⟩
    · show (s.delivered : Multiset LatencyStat.Ptr) = arrived + d.underWay + d.lost
      rw [hdelivered]
      exact h.delivered
    · rintro series hseries
      cases hseries
      rw [h.before hnone, Multiset.map_zero, add_zero]
      exact ⟨rfl, LatestWindow.Latest.init (inOrder_fixedChart hnum)⟩
  | updateValues env req rep =>
    obtain ⟨hsome, hroute, s, hs, rfl⟩ := step_updateValues hstep
    refine ⟨arrived, ?_, ?_, fun hnone => absurd hnone hsome, h.chart⟩
    · unfold underWay
      rw [List.filterMap_append, ← Multiset.coe_add, ← add_assoc]
      show (s.delivered : Multiset LatencyStat.Ptr) = arrived + d.underWay + _ + d.lost
      rw [delivered_request hs, ← Multiset.coe_add, h.delivered, add_right_comm]
      cases hpoint : latestPoint d.pipeline.reqHandler req <;> rfl
    · refine forall_mem_concat h.carries fun series => ?_
      exact onReply_handleRequest num env _ rep hroute series
  | success k =>
    obtain ⟨series, served, hseries, hk, rfl⟩ := step_success hstep
    have hcarries := h.carries served (List.mem_of_getElem? hk) series
    have hunderWay := underWay_eraseIdx hk
    obtain ⟨hlength, hlatest⟩ := h.chart series hseries
    refine ⟨(served.point.toList : Multiset LatencyStat.Ptr) + arrived, ?_, h.carries_eraseIdx k,
      fun hnone => (by cases hnone), ?_⟩
    · rw [h.delivered, hunderWay]
      show _ = _ + ((d.inFlight.eraseIdx k).filterMap Served.point : Multiset LatencyStat.Ptr)
        + d.lost
      abel
    · intro series' hseries'
      cases hseries'
      rw [hcarries]
      cases hpoint : served.point with
      | none =>
        rw [Option.toList_none, Multiset.coe_nil, zero_add]
        exact ⟨hlength, hlatest⟩
      | some stat =>
        refine ⟨by rw [LatestWindow.length_push, hlength], ?_⟩
        rw [Option.toList_some, Multiset.coe_singleton, Multiset.singleton_add,
          Multiset.map_cons, Multiset.add_cons]
        exact hlatest.push _
  | error k =>
    obtain ⟨served, hk, rfl⟩ := step_error hstep
    refine ⟨arrived, ?_, h.carries_eraseIdx k, h.before, h.chart⟩
    rw [h.delivered, underWay_eraseIdx hk, ← add_assoc, add_right_comm arrived,
      add_assoc _ _ d.lost, add_comm _ d.lost]
    rfl

/-- **Run lemma.** -/
theorem charted_run (hnum : ExactIntegers num)
    (h : Runs (step num) OnlyPage (initial n docRoot) es d) : ∃ arrived, Charted num d arrived := by
  refine h.invariant (I := fun d => ∃ arrived, Charted num d arrived) ⟨0, ?_⟩ ?_
  · exact ⟨rfl, fun _ hr => absurd hr List.not_mem_nil, fun _ => rfl,
      fun _ hseries => by cases hseries⟩
  · rintro d e d' ⟨arrived, hd⟩ hP hstep
    exact charted_step hnum hd hP hstep

/-- The dates of a chart that shows the latest of the fixed points and of those of `stats`. -/
def latestDates (num : ℚ → ℚ) (stats : Multiset LatencyStat.Ptr) : List ℚ :=
  ((fixedChart num + stats.map (ChartPoint.ofStat num) : Multiset ChartPoint).map
    ChartPoint.x).sort.drop stats.card

/-- The dates of the chart are determined by what has arrived. -/
theorem Charted.dates {arrived : Multiset LatencyStat.Ptr} (h : Charted num d arrived)
    {series : List ChartPoint} (hseries : d.series = some series) :
    series.map ChartPoint.x = latestDates num arrived := by
  obtain ⟨hlength, hlatest⟩ := h.chart series hseries
  have hcard : (fixedChart num + arrived.map (ChartPoint.ofStat num) : Multiset ChartPoint).card
      - series.length = arrived.card := by
    rw [Multiset.card_add, Multiset.card_map, Multiset.coe_card, hlength]
    show 4 + arrived.card - 4 = arrived.card
    omega
  rw [latestDates, ← hcard]
  exact hlatest.keys_eq

/-- The page asks for `updateValues`. -/
def fetch : DashboardEvent :=
  .updateValues ⟨fun _ _ => [], fun _ => none⟩ ⟨str "GET", str "/updateValues", 1, 0, []⟩
    ⟨.ok, [], []⟩

/-- **The chart shows the latest points.**  In every state of every run in which only the
page asks for `updateValues`, whatever the consumers, the other requests and the order in
which the replies come in, the chart has four points, which are fixed points or points of
stats that have come in, and their dates are the last four of all of these dates in order;
and what has been delivered has come in, is on the way, or was in a reply that has
failed. -/
theorem chart_latest (num : ℚ → ℚ) (hnum : ExactIntegers num) (n : ℕ) (docRoot : Bytes)
    (es : List DashboardEvent) (d : Dashboard)
    (hrun : Runs (step num) OnlyPage (initial n docRoot) es d) (series : List ChartPoint)
    (hseries : d.series = some series) :
    series.length = 4 ∧ ∃ arrived : Multiset LatencyStat.Ptr,
      (d.pipeline.delivered : Multiset LatencyStat.Ptr) = arrived + d.underWay + d.lost
      ∧ (series : Multiset ChartPoint) ≤ fixedChart num + arrived.map (ChartPoint.ofStat num)
      ∧ series.map ChartPoint.x = latestDates num arrived := by
  obtain ⟨arrived, hd⟩ := charted_run hnum hrun
  obtain ⟨hlength, hlatest⟩ := hd.chart series hseries
  refine ⟨hlength, arrived, hd.delivered, ?_, hd.dates hseries⟩
  obtain ⟨dropped, hall, -⟩ := hlatest.latest
  rw [hall]
  exact Multiset.le_add_left _ _

/-! ## Everything comes in -/

/-- The chart is made, an update goes through the hands of the only consumer, and its point
comes in while a second update is queued. -/
def watched : List DashboardEvent :=
  [.pipeline (.manager .setReqHandler), .pipeline (.manager .start),
    .pipeline (.manager (.createThread 0)), .pipeline (.manager (.startReturns 0)),
    .giveMeValues ⟨fun _ _ => [], fun _ => none⟩ ⟨str "GET", str "/giveMeValues", 1, 0, []⟩
      ⟨.ok, [], []⟩,
    .pipeline (.manager (.onLatencyUpdate ⟨str "1", 897669200000, 4⟩)),
    .pipeline (.manager (.push 0 none)),
    .pipeline (.manager (.loopTest 0)), .pipeline (.manager (.take 0)),
    .pipeline (.manager (.addStat 0)), fetch, .success 0,
    .pipeline (.manager (.onLatencyUpdate ⟨str "1", 898669200000, 2⟩)),
    .pipeline (.manager (.push 0 none))]

theorem watched_runs :
    (run (step binary64.round) OnlyPage (initial 1 []) watched).isSome = true := by
  decide +kernel

theorem watched_series :
    ((run (step binary64.round) OnlyPage (initial 1 []) watched).get
      watched_runs).series.isSome = true := by
  decide +kernel

/-- The chart has four points. -/
theorem chart_latest_watched :
    (((run (step binary64.round) OnlyPage (initial 1 []) watched).get
      watched_runs).series.get watched_series).length = 4 :=
  (chart_latest binary64.round exactIntegers_round 1 [] watched _ (runs_get watched_runs) _
    (Option.some_get watched_series).symm).1

/-- The pipeline is used as it is meant to be. -/
def WellUsed (d : Dashboard) : DashboardEvent → Prop
  | .pipeline e => StatPipeline.WellUsed d.pipeline e
  | _ => True

/-- And only the page asks for `updateValues`. -/
def WellUsedPage (d : Dashboard) (e : DashboardEvent) : Prop := OnlyPage d e ∧ WellUsed d e

instance : DecidableRel WellUsed := fun d e =>
  match e with
  | .pipeline e => inferInstanceAs (Decidable (StatPipeline.WellUsed d.pipeline e))
  | .giveMeValues _ _ _ | .updateValues _ _ _ | .success _ | .error _ => isTrue trivial

instance : DecidableRel WellUsedPage := fun d e =>
  inferInstanceAs (Decidable (OnlyPage d e ∧ WellUsed d e))

/-- Every accepted update has been delivered, and nothing is on its way. -/
structure Done (d : Dashboard) : Prop where
  drained : d.pipeline.Drained
  fetched : d.pipeline.reqHandler.statQ_ = []
  inFlight : d.inFlight = []

instance (d : Dashboard) : Decidable (Done d) :=
  decidable_of_iff
    (d.pipeline.Drained ∧ d.pipeline.reqHandler.statQ_ = [] ∧ d.inFlight = [])
    ⟨fun ⟨h₁, h₂, h₃⟩ => ⟨h₁, h₂, h₃⟩, fun ⟨h₁, h₂, h₃⟩ => ⟨h₁, h₂, h₃⟩⟩

/-- The assumption on the page is one on its pipeline. -/
theorem wellUsed_of_pipelineEvent {pe : PipelineEvent} (hP : WellUsed d e)
    (he : e.pipelineEvent = some pe) : StatPipeline.WellUsed d.pipeline pe := by
  have hrequest : ∀ (env : Env) (req : HttpRequest) (rep : HttpReply),
      StatPipeline.WellUsed d.pipeline (.request env req rep) := by
    intro env req rep
    exact ⟨fun stat hstat => (by cases hstat), fun hstart => (by cases hstart)⟩
  cases e with
  | pipeline e =>
    cases he
    exact hP
  | giveMeValues env req rep =>
    cases he
    exact hrequest env req rep
  | updateValues env req rep =>
    cases he
    exact hrequest env req rep
  | success k => cases he
  | error k => cases he

/-- Nobody calls anything and the other clients are quiet: the threads go on, the page asks
for `updateValues`, and the replies come in. -/
def Unattended (_ : Dashboard) : DashboardEvent → Prop
  | .pipeline e => e.isThread = true
  | .giveMeValues _ _ _ => False
  | .error _ => False
  | _ => True

/-- What happens by itself asks for nothing. -/
theorem onlyPage_of_unattended (h : Unattended d e) : OnlyPage d e := by
  cases e with
  | pipeline e =>
    cases e with
    | manager e => trivial
    | request env req rep => cases h
  | _ => trivial

/-- The events of the threads leave the page alone. -/
theorem runs_of_onlyThreads (num : ℚ → ℚ) {P : Dashboard → DashboardEvent → Prop}
    (hP : ∀ d e, e.isThread = true → P d (.pipeline e)) {s s' : StatPipeline}
    {ps : List PipelineEvent} (h : Runs StatPipeline.step OnlyThreads s ps s') (d : Dashboard) :
    Runs (step num) P { d with pipeline := s } (ps.map .pipeline) { d with pipeline := s' } := by
  induction h with
  | nil => exact Runs.nil _
  | @snoc s' s'' ps e h hthread hstep ih =>
    rw [List.map_append, List.map_singleton]
    refine ih.snoc (hP _ e hthread) ?_
    show (s'.step e).map _ = _
    rw [hstep]
    rfl

/-- A request for `updateValues` takes the front of `statQ_` and keeps what is at rest. -/
theorem drained_request {s s' : StatPipeline} {env : Env} {req : HttpRequest} {rep : HttpReply}
    (h : s.Drained) (hstep : s.step (.request env req rep) = some s') : s'.Drained := by
  have hpoint := (handleRequest_point env s.reqHandler req rep).1
  have hdelivered := delivered_request hstep
  have hs' := StatPipeline.step_request hstep
  have hstatQ : s'.reqHandler.statQ_ = (handleRequest env s.reqHandler req rep).handler.statQ_ := by
    rw [hs']
  refine ⟨?_, ?_, ?_, ?_, ?_, ?_⟩
  · rw [hs']
    exact h.updates
  · rw [hs']
    exact h.starts
  · rw [hs']
    exact h.stops
  · rw [hs']
    exact h.latencyStatQ
  · rw [hs']
    exact h.inHand
  · have haccepted : s'.accepted = s.accepted := by rw [hs']
    rw [haccepted, h.accepted, hstatQ, hdelivered, hpoint, ← Multiset.coe_add, ← Multiset.coe_add]
    abel

/-- The page can get all of `statQ_`. -/
theorem exists_fetched (num : ℚ → ℚ) (hcrashed : d.pipeline.crashed = false)
    (hdrained : d.pipeline.Drained) (hseries : d.series ≠ none) :
    ∃ es' d', Runs (step num) Unattended d es' d' ∧ d'.pipeline.Drained
      ∧ d'.pipeline.reqHandler.statQ_ = [] ∧ d'.series = d.series := by
  generalize hq : d.pipeline.reqHandler.statQ_ = q
  induction q generalizing d with
  | nil => exact ⟨[], d, Runs.nil d, hdrained, hq, rfl⟩
  | cons stat rest ih =>
    obtain ⟨req, hroute⟩ := StatPipeline.exists_updateValues
    obtain ⟨env, rep, -⟩ : ∃ (_ : Env) (_ : HttpReply), True :=
      ⟨⟨fun _ _ => [], fun _ => none⟩, ⟨.ok, [], []⟩, trivial⟩
    obtain ⟨s, hs⟩ : ∃ s, d.pipeline.step (.request env req rep) = some s :=
      ⟨_, StatPipeline.step_request_eq hcrashed env req rep⟩
    have hpage : d.step num (.updateValues env req rep)
        = some { d with
          pipeline := s
          inFlight := d.inFlight ++ [⟨(handleRequest env d.pipeline.reqHandler req rep).rep,
            latestPoint d.pipeline.reqHandler req⟩] } := by
      simp only [step]
      rw [if_pos ⟨hseries, hroute⟩, hs]
      rfl
    have hrest : s.reqHandler.statQ_ = rest := by
      have hpoint := (handleRequest_point env d.pipeline.reqHandler req rep).1
      rw [latestPoint, if_pos hroute, hq] at hpoint
      rw [StatPipeline.step_request hs]
      exact (List.cons.inj hpoint).2.symm
    have hcrashed' : s.crashed = false := by
      rw [StatPipeline.step_request hs]
      exact hcrashed
    obtain ⟨es', d', hes', hdrained', hq', hseries'⟩ :=
      ih (d := ⟨s, d.series, d.inFlight ++ [⟨(handleRequest env d.pipeline.reqHandler req rep).rep,
        latestPoint d.pipeline.reqHandler req⟩], d.lost⟩) hcrashed' (drained_request hdrained hs)
        hseries hrest
    exact ⟨_, d', Runs.cons (show Unattended d (.updateValues env req rep) from trivial) hpage hes',
      hdrained', hq', hseries'⟩

/-- The replies in flight can come in. -/
theorem exists_arrived (num : ℚ → ℚ) (hseries : d.series ≠ none) :
    ∃ es' d', Runs (step num) Unattended d es' d' ∧ d'.pipeline = d.pipeline
      ∧ d'.inFlight = [] ∧ d'.series ≠ none := by
  generalize hq : d.inFlight = q
  induction q generalizing d with
  | nil => exact ⟨[], d, Runs.nil d, rfl, hq, hseries⟩
  | cons served rest ih =>
    obtain ⟨series, hsome⟩ := Option.ne_none_iff_exists'.mp hseries
    have hstep : d.step num (.success 0)
        = some ⟨d.pipeline, some (onReply num served.rep.content_ series), rest, d.lost⟩ := by
      simp [step, hsome, hq]
    obtain ⟨es', d', hes', hpipeline, hnone, hseries'⟩ :=
      ih (d := ⟨d.pipeline, some (onReply num served.rep.content_ series), rest, d.lost⟩)
        (fun hnone => by cases hnone) rfl
    exact ⟨_, d', Runs.cons (show Unattended d (.success 0) from trivial) hstep hes', hpipeline,
      hnone, hseries'⟩

/-- The threads, the page and the network can finish. -/
theorem exists_done (num : ℚ → ℚ) (hn : 0 < n) {ps : List PipelineEvent}
    (hps : Runs StatPipeline.step StatPipeline.WellUsed (StatPipeline.initial n docRoot) ps
      d.pipeline)
    (hset : d.pipeline.manager.reqHandlerSet = true) (halive : d.pipeline.manager.isAlive_ = true)
    (hseries : d.series ≠ none) :
    ∃ es' d', Runs (step num) Unattended d es' d' ∧ Done d' ∧ d'.series ≠ none := by
  obtain ⟨ps', s, hps', -, hdrained⟩ := StatPipeline.exists_drained hn hps hset halive
  have hcrashed : s.crashed = false := by
    have hused := (StatPipeline.wellUsed_of_leftAlone hset halive
      (hps'.mono fun _ _ => StatPipeline.leftAlone_of_onlyThreads)).1
    exact StatPipeline.not_crashed_run ((hps.append hused).mono fun _ _ hP => hP.1)
  obtain ⟨es₂, d₂, hpoll, hdrained₂, hq₂, hseries₂⟩ :=
    exists_fetched num (d := { d with pipeline := s }) hcrashed hdrained hseries
  obtain ⟨es₃, d₃, harrive, hpipeline, hnone, hseries₃⟩ :=
    exists_arrived num (d := d₂) (by rw [hseries₂]; exact hseries)
  exact ⟨_, d₃, (runs_of_onlyThreads num (fun _ _ h => h) hps' d).append (hpoll.append harrive),
    ⟨hpipeline ▸ hdrained₂, hpipeline ▸ hq₂, hnone⟩, hseries₃⟩

/-- Only a reply that fails loses anything. -/
theorem lost_unattended (hP : Unattended d e) (hstep : d.step num e = some d') :
    d'.lost = d.lost := by
  cases e with
  | pipeline e =>
    obtain ⟨s, -, rfl⟩ := Option.map_eq_some_iff.mp hstep
    rfl
  | giveMeValues env req rep => cases hP
  | updateValues env req rep =>
    obtain ⟨-, -, s, -, rfl⟩ := step_updateValues hstep
    rfl
  | success k =>
    obtain ⟨series, served, -, -, rfl⟩ := step_success hstep
    rfl
  | error k => cases hP

/-- When nothing is on its way, everything accepted has come in or was lost. -/
theorem accepted_of_done {arrived : Multiset LatencyStat.Ptr} (h : Charted num d arrived)
    (hdone : Done d) : (d.pipeline.accepted : Multiset LatencyStat.Ptr) = arrived + d.lost := by
  have hnone : d.underWay = [] := by rw [underWay, hdone.inFlight, List.filterMap_nil]
  rw [hdone.drained.accepted, hdone.fetched, h.delivered, hnone]
  simp

/-- When everything has come in, the chart is made of everything accepted. -/
theorem charted_of_done (hnum : ExactIntegers num)
    (h : Runs (step num) OnlyPage (initial n docRoot) es d) (hdone : Done d) (hlost : d.lost = 0) :
    Charted num d d.pipeline.accepted := by
  obtain ⟨arrived, hd⟩ := charted_run hnum h
  rw [accepted_of_done hd hdone, hlost, add_zero]
  exact hd

theorem watched_runs_wellUsed :
    (run (step binary64.round) WellUsedPage (initial 1 []) watched).isSome = true := by
  decide +kernel

/-- **The interleaving does not show.**  Two runs in which only the page asks for
`updateValues` and no point was lost, and which accepted the same updates, end with the same
chart once everything has come in, whatever the numbers of consumers, the interleavings, the
other requests and the order of the replies were: provided that the dates of the updates, as
JavaScript reads them, differ from each other and from those of the fixed points. -/
theorem charts_agree (num : ℚ → ℚ) (hnum : ExactIntegers num) (n n' : ℕ)
    (docRoot docRoot' : Bytes) (es es' : List DashboardEvent) (d d' : Dashboard)
    (hrun : Runs (step num) OnlyPage (initial n docRoot) es d)
    (hrun' : Runs (step num) OnlyPage (initial n' docRoot') es' d') (hdone : Done d)
    (hdone' : Done d') (hlost : d.lost = 0) (hlost' : d'.lost = 0)
    (hsame : (d.pipeline.accepted.map LatencyStat.Ptr.stat).Perm
      (d'.pipeline.accepted.map LatencyStat.Ptr.stat))
    (hdates : ((fixedChart num ++ d.pipeline.accepted.map (ChartPoint.ofStat num)).map
      ChartPoint.x).Nodup)
    (series series' : List ChartPoint) (hseries : d.series = some series)
    (hseries' : d'.series = some series') : series = series' := by
  obtain ⟨hlength, hlatest⟩ := (charted_of_done hnum hrun hdone hlost).chart series hseries
  obtain ⟨hlength', hlatest'⟩ :=
    (charted_of_done hnum hrun' hdone' hlost').chart series' hseries'
  -- the points are those of the stats, whatever their addresses
  have hpoints : (d'.pipeline.accepted.map (ChartPoint.ofStat num)).Perm
      (d.pipeline.accepted.map (ChartPoint.ofStat num)) := by
    have hmap := hsame.symm.map fun stat : LatencyStat =>
      (⟨num stat.dateTime_, num stat.latencyInMicro_⟩ : ChartPoint)
    rw [List.map_map, List.map_map] at hmap
    exact hmap
  rw [Multiset.map_coe, Multiset.coe_eq_coe.mpr hpoints] at hlatest'
  rw [Multiset.map_coe] at hlatest
  refine hlatest.unique hlatest' (hlength.trans hlength'.symm) ?_
  intro a ha b hb hab
  rw [Multiset.coe_add, Multiset.mem_coe] at ha hb
  exact List.inj_on_of_nodup_map hdates ha hb hab

/-- One consumer adds two updates, and their points come in. -/
def oneByOne : List DashboardEvent :=
  watched ++ [.pipeline (.manager (.loopTest 0)), .pipeline (.manager (.take 0)),
    .pipeline (.manager (.addStat 0)), fetch, .success 0]

/-- Two consumers have taken the two updates when the chart is made; the second one adds
first, and the reply to the second question comes in first. -/
def overtaken : List DashboardEvent :=
  [.pipeline (.manager .start), .pipeline (.manager (.createThread 0)),
    .pipeline (.manager (.createThread 0)), .pipeline (.manager (.startReturns 0)),
    .pipeline (.manager .setReqHandler),
    .pipeline (.manager (.onLatencyUpdate ⟨str "1", 897669200000, 4⟩)),
    .pipeline (.manager (.push 0 none)),
    .pipeline (.manager (.onLatencyUpdate ⟨str "1", 898669200000, 2⟩)),
    .pipeline (.manager (.push 0 none)), .pipeline (.manager (.loopTest 0)),
    .pipeline (.manager (.take 0)), .pipeline (.manager (.loopTest 1)),
    .pipeline (.manager (.take 1)),
    .giveMeValues ⟨fun _ _ => [], fun _ => none⟩ ⟨str "GET", str "/giveMeValues", 1, 0, []⟩
      ⟨.ok, [], []⟩,
    .pipeline (.manager (.addStat 1)), fetch, .pipeline (.manager (.addStat 0)), fetch,
    .success 1, .success 0]

theorem oneByOne_runs :
    (run (step binary64.round) OnlyPage (initial 1 []) oneByOne).isSome = true := by
  decide +kernel

theorem overtaken_runs :
    (run (step binary64.round) OnlyPage (initial 2 []) overtaken).isSome = true := by
  decide +kernel

theorem oneByOne_series :
    ((run (step binary64.round) OnlyPage (initial 1 []) oneByOne).get
      oneByOne_runs).series.isSome = true := by
  decide +kernel

theorem overtaken_series :
    ((run (step binary64.round) OnlyPage (initial 2 []) overtaken).get
      overtaken_runs).series.isSome = true := by
  decide +kernel

/-- Everything has come in, with one consumer and with two. -/
theorem oneByOne_done :
    ((run (step binary64.round) OnlyPage (initial 1 []) oneByOne).get oneByOne_runs).Done
      ∧ ((run (step binary64.round) OnlyPage (initial 1 []) oneByOne).get
        oneByOne_runs).lost = 0 := by
  decide +kernel

theorem overtaken_done :
    ((run (step binary64.round) OnlyPage (initial 2 []) overtaken).get overtaken_runs).Done
      ∧ ((run (step binary64.round) OnlyPage (initial 2 []) overtaken).get
        overtaken_runs).lost = 0 := by
  decide +kernel

/-- The charts are the same. -/
theorem charts_agree_overtaken :
    ((run (step binary64.round) OnlyPage (initial 1 []) oneByOne).get
        oneByOne_runs).series.get oneByOne_series
      = ((run (step binary64.round) OnlyPage (initial 2 []) overtaken).get
        overtaken_runs).series.get overtaken_series := by
  refine charts_agree binary64.round exactIntegers_round 1 2 [] [] oneByOne overtaken _ _
    (runs_get oneByOne_runs) (runs_get overtaken_runs) oneByOne_done.1 overtaken_done.1
    oneByOne_done.2 overtaken_done.2 (by decide +kernel) (by decide +kernel) _ _
    (Option.some_get oneByOne_series).symm (Option.some_get overtaken_series).symm

end Dashboard

end Unichannel
