/-
# From an update to the chart (myhtml.tpl)

The page, the program and the sockets between them.  The page asks over connections that
the server accepts, and what it gets is read from the bytes that a write has sent: a status
line, headers and as much content as they say, in the format that the server writes.

A write can fail, and so can what it has sent: the reply does not come in then.

The page at the sockets refines the page that is handed its replies (`dashboard_run`).  So
the chart is still that of the latest points, and every accepted update is in the program,
in a reply on its way, in a reply that is lost, or among the points that the chart was made
of (`chart_received`).
-/
import Unichannel.Dashboard
import Unichannel.Delivery
import Unichannel.ReplyReader

namespace Unichannel

open GuardedSystem FloatFormat

/-! ## The page at the sockets -/

/-- What a write of the program that succeeds has sent, and over which connection. -/
def Program.written (p : Program) : ProgramEvent → Option (ℕ × Bytes)
  | .manager _ => none
  | .loop e => p.server.written e

/-- The program and the page.  `sent` is what was sent over which connection, `chart` the
connection over which the page has asked for `giveMeValues`; `asked` are those over which it
has asked for `updateValues` and waits for the reply, and `failed` those whose reply it has
given up. -/
structure Browser where
  program : Program
  sent : List (ℕ × Bytes)
  chart : Option ℕ
  asked : List ℕ
  failed : List ℕ
  series : Option (List ChartPoint)

/-- The events. -/
inductive BrowserEvent
  /-- An event of the program. -/
  | program (e : ProgramEvent)
  /-- The page asks for `giveMeValues`; its connection will be number `i`. -/
  | giveMeValues (i : ℕ)
  /-- The page asks for `updateValues`; its connection will be number `i`. -/
  | updateValues (i : ℕ)
  /-- The reply over connection `i` comes in. -/
  | success (i : ℕ)
  /-- The page hears of an error of connection `i`, and waits no longer for its reply. -/
  | error (i : ℕ)

namespace Browser

/-- What the page reads from connection `i`, if a reply was sent. -/
def reply (b : Browser) (i : ℕ) : Option HttpReply :=
  (b.sent.find? fun m => m.1 = i).bind fun m => (readReply m.2).map Prod.fst

/-- One event; `none` if it is not enabled. -/
def step (num : ℚ → ℚ) (b : Browser) : BrowserEvent → Option Browser
  | .program e =>
    (b.program.step e).map fun p =>
      { b with program := p, sent := b.sent ++ (b.program.written e).toList }
  | .giveMeValues i =>
    if b.chart = none ∧ b.program.server.connections.length ≤ i then
      some { b with chart := some i }
    else none
  | .updateValues i =>
    if b.series ≠ none ∧ i ∉ b.asked ∧ i ∉ b.failed
        ∧ b.program.server.connections.length ≤ i then
      some { b with asked := b.asked ++ [i] }
    else none
  | .success i =>
    match b.reply i with
    | some rep =>
      if rep.status_ = .ok then
        match b.series with
        | none =>
          if b.chart = some i then some { b with series := createChart num rep.content_ } else none
        | some series =>
          if i ∈ b.asked then
            some { b with
              series := some (onReply num rep.content_ series)
              asked := b.asked.erase i }
          else none
      else none
    | none => none
  | .error i =>
    if i ∈ b.asked then
      some { b with asked := b.asked.erase i, failed := b.failed ++ [i] }
    else none

/-- The program when the loop starts, and no page. -/
def initial (consumerThreadCount : ℕ) (docRoot : Bytes) : Browser :=
  ⟨.initial consumerThreadCount docRoot, [], none, [], [], none⟩

/-- A request is the one that the page has sent over this connection, if it is one of the
page's, and only those ask for `updateValues`. -/
def Asked (b : Browser) (q : ℕ × Route) : Prop :=
  (q.1 ∈ b.asked → q.2 = .updateValues)
    ∧ (q.2 = .updateValues → q.1 ∈ b.asked ∨ q.1 ∈ b.failed)
    ∧ (b.chart = some q.1 → q.2 = .giveMeValues)

instance : DecidableRel Asked := fun _ _ => inferInstanceAs (Decidable (_ ∧ _ ∧ _))

/-- The handler is set before a stat is added, and the requests for `updateValues` are those
of the page; its first one is for `giveMeValues`. -/
def WellAsked (b : Browser) : BrowserEvent → Prop
  | .program (.manager e) => Program.HandlerSet b.program (.manager e)
  | .program (.loop e) => ∀ q ∈ b.program.server.asks e, b.Asked q
  | _ => True

instance : DecidableRel WellAsked := fun b e =>
  match e with
  | .program (.manager e) => inferInstanceAs (Decidable (Program.HandlerSet b.program (.manager e)))
  | .program (.loop e) =>
    inferInstanceAs (Decidable (∀ q ∈ b.program.server.asks e, b.Asked q))
  | .giveMeValues _ | .updateValues _ | .success _ | .error _ => isTrue trivial

end Browser

/-! ## What is sent -/

/-- What a connection that has answered is sent. -/
def SentBy (s : HttpServerTransport) (m : ℕ × Bytes) : Prop :=
  ∃ c, s.connections[m.1]? = some c ∧ Answering c.history ∧ m.2 = c.reply_.wire

/-- What a connection was sent stays its answer. -/
theorem SentBy.step {docRoot : Bytes} {s s' : HttpServerTransport} {e : Event} {ss : List Event}
    {m : ℕ × Bytes} (h : SentBy s m)
    (hrun : Runs HttpServerTransport.step anyStep (.initial docRoot) ss s)
    (hstep : s.step e = some s') : SentBy s' m := by
  obtain ⟨c, hc, hanswer, hbytes⟩ := h
  obtain ⟨c', hc', hanswer', hreply⟩ := HttpServerTransport.connection_step hc
    (phase_run hrun (HttpServerTransport.view_of_connection hc)) hanswer hstep
  exact ⟨c', hc', hanswer', by rw [hbytes, hreply]⟩

/-! ## The invariant -/

namespace Browser

variable {num : ℚ → ℚ} {n : ℕ} {docRoot : Bytes} {b b' : Browser} {e : BrowserEvent}
  {es : List BrowserEvent}

/-- The connections with an answer. -/
def answered (b : Browser) : List ℕ := b.program.answers.map Answer.connection

/-- What holds of the replies and of the questions of the page. -/
structure Kept (b : Browser) : Prop where
  sent : ∀ m ∈ b.sent, SentBy b.program.server m
  sized : ∀ a ∈ b.program.answers, Sized a.served.rep
  fixed : ∀ a ∈ b.program.answers, b.chart = some a.connection →
    a.served.rep.content_ = fixedPoints
  made : b.series ≠ none → ∃ i ∈ b.answered, b.chart = some i
  asked : ∀ i, i ∈ b.asked ∨ i ∈ b.failed → b.series ≠ none
  nodup : b.asked.Nodup
  apart : ∀ i ∈ b.failed, i ∉ b.asked

/-- An event of the program, with what it sends. -/
theorem step_program {e : ProgramEvent} (hstep : b.step num (.program e) = some b') :
    ∃ p, b.program.step e = some p
      ∧ b' = { b with program := p, sent := b.sent ++ (b.program.written e).toList } := by
  obtain ⟨p, hp, heq⟩ := Option.map_eq_some_iff.mp hstep
  exact ⟨p, hp, heq.symm⟩

/-- The page asks for its chart once, over a new connection. -/
theorem step_giveMeValues {i : ℕ} (hstep : b.step num (.giveMeValues i) = some b') :
    b.chart = none ∧ b.program.server.connections.length ≤ i ∧ b' = { b with chart := some i } := by
  simp only [step] at hstep
  split_ifs at hstep with hask
  exact ⟨hask.1, hask.2, (Option.some.inj hstep).symm⟩

/-- It asks for an update when the chart is there, over a new connection. -/
theorem step_updateValues {i : ℕ} (hstep : b.step num (.updateValues i) = some b') :
    b.series ≠ none ∧ i ∉ b.asked ∧ i ∉ b.failed ∧ b.program.server.connections.length ≤ i
      ∧ b' = { b with asked := b.asked ++ [i] } := by
  simp only [step] at hstep
  split_ifs at hstep with hask
  exact ⟨hask.1, hask.2.1, hask.2.2.1, hask.2.2.2, (Option.some.inj hstep).symm⟩

/-- It gives up a reply that it waits for. -/
theorem step_error {i : ℕ} (hstep : b.step num (.error i) = some b') :
    i ∈ b.asked ∧ b' = { b with asked := b.asked.erase i, failed := b.failed ++ [i] } := by
  simp only [step] at hstep
  split_ifs at hstep with hi
  exact ⟨hi, (Option.some.inj hstep).symm⟩

/-- A reply that comes in makes the chart, or adds to it. -/
theorem step_success {i : ℕ} (hstep : b.step num (.success i) = some b') :
    ∃ rep, b.reply i = some rep ∧ rep.status_ = .ok
      ∧ ((b.series = none ∧ b.chart = some i
          ∧ b' = { b with series := createChart num rep.content_ })
        ∨ ∃ series, b.series = some series ∧ i ∈ b.asked
          ∧ b' = { b with
            series := some (onReply num rep.content_ series)
            asked := b.asked.erase i }) := by
  cases hrep : b.reply i with
  | none =>
    simp only [step, hrep] at hstep
    cases hstep
  | some rep =>
    by_cases hstatus : rep.status_ = .ok
    · refine ⟨rep, rfl, hstatus, ?_⟩
      cases hseries : b.series with
      | none =>
        simp only [step, hrep, hseries, if_pos hstatus] at hstep
        split_ifs at hstep with hchart
        exact Or.inl ⟨rfl, hchart, (Option.some.inj hstep).symm⟩
      | some series =>
        simp only [step, hrep, hseries, if_pos hstatus] at hstep
        split_ifs at hstep with hasked
        exact Or.inr ⟨series, rfl, hasked, (Option.some.inj hstep).symm⟩
    · simp only [step, hrep, if_neg hstatus] at hstep
      cases hstep

/-- The page at the sockets is about a run of the program. -/
theorem program_run (h : Runs (step num) WellAsked (initial n docRoot) es b) :
    ∃ ps, Runs Program.step Program.HandlerSet (.initial n docRoot) ps b.program := by
  refine h.part Browser.program fun b e b' hP hstep => ?_
  cases e with
  | program e =>
    obtain ⟨p, hp, rfl⟩ := step_program hstep
    refine Or.inr ⟨e, ?_, hp⟩
    cases e with
    | manager e => exact hP
    | loop e => trivial
  | giveMeValues i =>
    obtain ⟨-, -, rfl⟩ := step_giveMeValues hstep
    exact Or.inl rfl
  | updateValues i =>
    obtain ⟨-, -, -, -, rfl⟩ := step_updateValues hstep
    exact Or.inl rfl
  | success i =>
    obtain ⟨rep, -, -, ⟨-, -, rfl⟩ | ⟨series, -, -, rfl⟩⟩ := step_success hstep
    · exact Or.inl rfl
    · exact Or.inl rfl
  | error i =>
    obtain ⟨-, rfl⟩ := step_error hstep
    exact Or.inl rfl

/-! ### The replies that come in -/

theorem sentBy_step {e : ProgramEvent} {ps : List ProgramEvent} {p p' : Program} {m : ℕ × Bytes}
    (hps : Runs Program.step Program.HandlerSet (.initial n docRoot) ps p) (h : SentBy p.server m)
    (hstep : p.step e = some p') : SentBy p'.server m := by
  obtain ⟨ss, hss⟩ := Program.server_run hps
  rcases Program.step_server hstep with hsame | ⟨e', he'⟩
  · rw [hsame]
    exact h
  · exact h.step hss he'

/-- What the program sends is the answer of a connection. -/
theorem sentBy_written {e : ProgramEvent} {ps : List ProgramEvent} {p p' : Program}
    {m : ℕ × Bytes} (hps : Runs Program.step Program.HandlerSet (.initial n docRoot) ps p)
    (hm : p.written e = some m) (hstep : p.step e = some p') : SentBy p'.server m := by
  obtain ⟨ss, hss⟩ := Program.server_run hps
  cases e with
  | manager e => cases hm
  | loop e =>
    obtain ⟨s, -, -, hs, -⟩ := Program.step_loop hstep
    exact sentBy_step hps (HttpServerTransport.written_reply hss hm hs) hstep

/-- A reply with status 200 is an answer of `handle_request`, byte by byte. -/
theorem answer_of_reply {i : ℕ} {rep : HttpReply} (h : Kept b)
    (hrecorded : Recorded b.program.server b.program.answers) (hrep : b.reply i = some rep)
    (hstatus : rep.status_ = .ok) :
    ∃ a ∈ b.program.answers, a.connection = i ∧ a.served.rep = rep := by
  obtain ⟨m, hfind, hread⟩ := Option.bind_eq_some_iff.mp hrep
  have hi : m.1 = i := by simpa using List.find?_some hfind
  obtain ⟨c, hc, hanswer, hbytes⟩ := h.sent m (List.mem_of_find?_eq_some hfind)
  obtain ⟨r, hr, rfl⟩ := Option.map_eq_some_iff.mp hread
  have hwhole : ∀ rep', Sized rep' → c.reply_ = rep' → r = (rep', []) := by
    rintro rep' hsized rfl
    have hwire := readReply_wire hsized []
    rw [List.append_nil, ← hbytes, hr] at hwire
    exact Option.some.inj hwire
  rcases hrecorded.all m.1 c hc hanswer with hmem | hstock
  · obtain ⟨a, ha, hconnection⟩ := List.mem_map.mp hmem
    obtain ⟨c', hc', -, hreply⟩ := hrecorded.held a ha
    rw [hconnection] at hc'
    obtain rfl : c = c' := Option.some.inj (hc.symm.trans hc')
    refine ⟨a, ha, hconnection.trans hi, ?_⟩
    rw [hwhole _ (h.sized a ha) hreply]
  · -- the stock reply has another status
    rw [hwhole _ (sized_stockReply .badRequest) hstock] at hstatus
    cases hstatus

/-- A connection that is still to be accepted has no answer. -/
theorem not_answered {i : ℕ} (hrecorded : Recorded b.program.server b.program.answers)
    (hi : b.program.server.connections.length ≤ i) : i ∉ b.answered := by
  intro hmem
  obtain ⟨a, ha, rfl⟩ := List.mem_map.mp hmem
  obtain ⟨c, hc, -, -⟩ := hrecorded.held a ha
  have hlt := (List.getElem?_eq_some_iff.mp hc).1
  omega

/-- The reply to `giveMeValues` has the fixed points. -/
theorem handleRequest_giveMeValues (env : Env) (h : HttpReqHandler) {req : HttpRequest}
    (rep : HttpReply) (hroute : route req.uri_ = .giveMeValues) :
    (handleRequest env h req rep).rep.content_ = fixedPoints := by
  rw [handleRequest_eq, hroute]
  rfl

/-! ### What the events do -/

/-- What an event does to the answers. -/
theorem step_answers {e : ProgramEvent} {p : Program} (hP : WellAsked b (.program e))
    (hstep : b.program.step e = some p) :
    p.answers = b.program.answers
      ∨ ∃ i env req rep, b.program.pipeline.step (.request env req rep) = some p.pipeline
        ∧ p.answers = b.program.answers
          ++ [⟨i, (handleRequest env b.program.server.reqHandler_ req rep).rep,
            latestPoint b.program.server.reqHandler_ req⟩]
        ∧ b.Asked (i, route req.uri_) := by
  cases e with
  | manager e => exact Or.inl (Program.step_manager_pipeline hstep).2
  | loop e =>
    rcases Program.step_loop_pipeline hstep with
      ⟨-, -, hsame⟩ | ⟨i, env, req, rep, hasks, hrequest, hanswers⟩
    · exact Or.inl hsame
    · exact Or.inr ⟨i, env, req, rep, hrequest, hanswers, hP _ hasks⟩

/-- **Step lemma**, for the events of the program. -/
theorem kept_program {e : ProgramEvent} {ps : List ProgramEvent} {p : Program}
    (hps : Runs Program.step Program.HandlerSet (.initial n docRoot) ps b.program) (h : Kept b)
    (hP : WellAsked b (.program e)) (hstep : b.program.step e = some p) :
    Kept { b with program := p, sent := b.sent ++ (b.program.written e).toList } := by
  have hsent : ∀ m ∈ b.sent ++ (b.program.written e).toList, SentBy p.server m := by
    intro m hm
    rcases List.mem_append.mp hm with hm | hm
    · exact sentBy_step hps (h.sent m hm) hstep
    · exact sentBy_written hps (Option.mem_toList.mp hm) hstep
  rcases step_answers hP hstep with hsame | ⟨i, env, req, rep, -, hanswers, -, -, hchart⟩
  · refine ⟨hsent, ?_, ?_, ?_, h.asked, h.nodup, h.apart⟩
    · show ∀ a ∈ p.answers, Sized a.served.rep
      rw [hsame]
      exact h.sized
    · show ∀ a ∈ p.answers, b.chart = some a.connection → a.served.rep.content_ = fixedPoints
      rw [hsame]
      exact h.fixed
    · show b.series ≠ none → ∃ i ∈ p.answers.map Answer.connection, b.chart = some i
      rw [hsame]
      exact h.made
  · refine ⟨hsent, ?_, ?_, ?_, h.asked, h.nodup, h.apart⟩
    · show ∀ a ∈ p.answers, Sized a.served.rep
      rw [hanswers]
      exact forall_mem_concat h.sized (sized_handleRequest _ _ _ _)
    · show ∀ a ∈ p.answers, b.chart = some a.connection → a.served.rep.content_ = fixedPoints
      rw [hanswers]
      exact forall_mem_concat h.fixed fun hi => handleRequest_giveMeValues _ _ _ (hchart hi)
    · show b.series ≠ none → ∃ i ∈ p.answers.map Answer.connection, b.chart = some i
      intro hseries
      obtain ⟨j, hj, hjchart⟩ := h.made hseries
      rw [hanswers, List.map_append]
      exact ⟨j, List.mem_append_left _ hj, hjchart⟩

/-- **Step lemma.** -/
theorem kept_step {ps : List ProgramEvent}
    (hps : Runs Program.step Program.HandlerSet (.initial n docRoot) ps b.program) (h : Kept b)
    (hP : WellAsked b e) (hstep : b.step num e = some b') : Kept b' := by
  have hrecorded := Program.recorded_run hps
  cases e with
  | program e =>
    obtain ⟨p, hp, rfl⟩ := step_program hstep
    exact kept_program hps h hP hp
  | giveMeValues i =>
    obtain ⟨hnone, hi, rfl⟩ := step_giveMeValues hstep
    refine ⟨h.sent, h.sized, ?_, ?_, h.asked, h.nodup, h.apart⟩
    · intro a ha hchart
      rw [Option.some.inj hchart] at hi
      exact absurd (List.mem_map_of_mem ha) (not_answered hrecorded hi)
    · intro hseries
      obtain ⟨j, -, hj⟩ := h.made hseries
      rw [hnone] at hj
      cases hj
  | updateValues i =>
    obtain ⟨hseries, hi, hfailed, -, rfl⟩ := step_updateValues hstep
    refine ⟨h.sent, h.sized, h.fixed, h.made, fun _ _ => hseries, ?_, ?_⟩
    · refine List.nodup_append.mpr ⟨h.nodup, List.nodup_singleton _, ?_⟩
      rintro j hj k hk rfl
      rw [List.mem_singleton.mp hk] at hj
      exact hi hj
    · intro j hj hasked
      rcases List.mem_append.mp hasked with hasked | hasked
      · exact h.apart j hj hasked
      · rw [List.mem_singleton.mp hasked] at hj
        exact hfailed hj
  | success i =>
    obtain ⟨rep, hrep, hstatus, ⟨hnone, hchart, rfl⟩ | ⟨series, hseries, hi, rfl⟩⟩ :=
      step_success hstep
    · obtain ⟨a, ha, rfl, -⟩ := answer_of_reply h hrecorded hrep hstatus
      exact ⟨h.sent, h.sized, h.fixed, fun _ => ⟨_, List.mem_map_of_mem ha, hchart⟩,
        fun i hi => absurd hnone (h.asked i hi), h.nodup, h.apart⟩
    · refine ⟨h.sent, h.sized, h.fixed, fun _ => h.made ?_, fun _ _ hnone => ?_, h.nodup.erase i,
        fun j hj hasked => h.apart j hj (List.mem_of_mem_erase hasked)⟩
      · rw [hseries]
        exact Option.some_ne_none _
      · cases hnone
  | error i =>
    obtain ⟨hi, rfl⟩ := step_error hstep
    refine ⟨h.sent, h.sized, h.fixed, h.made, fun _ _ => h.asked i (Or.inl hi), h.nodup.erase i, ?_⟩
    intro j hj hasked
    rcases List.mem_append.mp hj with hj | hj
    · exact h.apart j hj (List.mem_of_mem_erase hasked)
    · rw [List.mem_singleton.mp hj, h.nodup.mem_erase_iff] at hasked
      exact hasked.1 rfl

/-- **Run lemma.** -/
theorem kept_run (h : Runs (step num) WellAsked (initial n docRoot) es b) : Kept b := by
  refine h.trace (R := fun _ b => Kept b) ?_ ?_
  · refine ⟨?_, ?_, ?_, ?_, ?_, List.nodup_nil, ?_⟩
    · intro m hm
      cases hm
    · intro a ha
      cases ha
    · intro a ha
      cases ha
    · intro hseries
      exact absurd rfl hseries
    · rintro i (hi | hi) <;> cases hi
    · intro i hi
      cases hi
  · intro es b e b' hrun hb hP hstep
    obtain ⟨ps, hps⟩ := program_run hrun
    exact kept_step hps hb hP hstep

/-! ## The page at the sockets refines the page -/

/-- The chart is on its way, or there. -/
def ChartAnswered (b : Browser) : Prop := ∃ i ∈ b.answered, b.chart = some i

instance : DecidablePred ChartAnswered := fun b =>
  inferInstanceAs (Decidable (∃ i ∈ b.answered, b.chart = some i))

/-- The answers to the questions that the page waits for. -/
def owed (b : Browser) : List Answer :=
  b.program.answers.filter fun a => a.connection ∈ b.asked

/-- The answers to those that it has given up. -/
def givenUp (b : Browser) : List Answer :=
  b.program.answers.filter fun a => a.connection ∈ b.failed

/-- The stats in some answers. -/
def points (answers : List Answer) : Multiset LatencyStat.Ptr :=
  answers.filterMap fun a => a.served.point

/-- The page that is handed its replies, and its chart when `giveMeValues` is answered. -/
def dashboard (num : ℚ → ℚ) (b : Browser) : Dashboard where
  pipeline := b.program.pipeline
  series := if b.series = none ∧ b.ChartAnswered then some (fixedChart num) else b.series
  inFlight := b.owed.map Answer.served
  lost := points b.givenUp

/-- Once the chart has come in, it is that of the page. -/
theorem dashboard_series {series : List ChartPoint} (hseries : b.series = some series) :
    (b.dashboard num).series = some series := by
  show (if b.series = none ∧ b.ChartAnswered then _ else b.series) = some series
  rw [if_neg (by rw [hseries]; simp), hseries]

/-- The page that is handed its replies has its chart too. -/
theorem dashboard_series_ne (hseries : b.series ≠ none) : (b.dashboard num).series ≠ none := by
  obtain ⟨series, hseries⟩ := Option.ne_none_iff_exists'.mp hseries
  rw [dashboard_series hseries]
  exact Option.some_ne_none _

/-- A page is the view of its parts. -/
theorem dashboard_eq {d : Dashboard} (hpipeline : b.program.pipeline = d.pipeline)
    (hseries : (b.dashboard num).series = d.series)
    (hinFlight : b.owed.map Answer.served = d.inFlight) (hlost : points b.givenUp = d.lost) :
    b.dashboard num = d := by
  obtain ⟨pipeline, series, inFlight, lost⟩ := d
  dsimp only at hpipeline hseries hinFlight hlost
  rw [← hpipeline, ← hseries, ← hinFlight, ← hlost]
  rfl

theorem points_append (as bs : List Answer) : points (as ++ bs) = points as + points bs := by
  rw [points, List.filterMap_append, ← Multiset.coe_add]
  rfl

theorem points_singleton (a : Answer) :
    points [a] = (a.served.point.toList : Multiset LatencyStat.Ptr) := by
  cases hpoint : a.served.point <;> simp [points, hpoint]

/-- The order of the answers does not matter. -/
theorem points_perm {as bs : List Answer} (h : as.Perm bs) : points as = points bs :=
  Multiset.coe_eq_coe.mpr (h.filterMap _)

/-! ### Answers by their connection -/

section Names

variable {α β : Type*} {f : α → β} {l : List α} {a : α}

/-- With different names, one of a name stands between others. -/
theorem exists_split (hnodup : (l.map f).Nodup) (ha : a ∈ l) :
    ∃ pre post, l = pre ++ a :: post ∧ (∀ x ∈ pre, f x ≠ f a) ∧ ∀ x ∈ post, f x ≠ f a := by
  obtain ⟨pre, post, rfl⟩ := List.append_of_mem ha
  rw [List.map_append, List.map_cons, List.nodup_middle, List.nodup_cons, List.mem_append,
    not_or] at hnodup
  refine ⟨pre, post, rfl, ?_, ?_⟩
  · intro x hx heq
    exact hnodup.1.1 (heq ▸ List.mem_map_of_mem hx)
  · intro x hx heq
    exact hnodup.1.2 (heq ▸ List.mem_map_of_mem hx)

/-- Without the one of a name. -/
theorem exists_filter_ne [DecidableEq β] (hnodup : (l.map f).Nodup) (ha : a ∈ l) :
    ∃ k, l[k]? = some a ∧ l.filter (fun x => f x ≠ f a) = l.eraseIdx k := by
  obtain ⟨pre, post, rfl, hpre, hpost⟩ := exists_split hnodup ha
  have hget : (pre ++ a :: post)[pre.length]? = some a := by
    rw [List.getElem?_append_right le_rfl, Nat.sub_self]
    rfl
  refine ⟨pre.length, hget, ?_⟩
  rw [List.filter_append, List.filter_cons_of_neg (by simp),
    List.filter_eq_self.mpr fun x hx => decide_eq_true (hpre x hx),
    List.filter_eq_self.mpr fun x hx => decide_eq_true (hpost x hx),
    List.eraseIdx_append_of_length_le le_rfl, Nat.sub_self]
  rfl

/-- Only the one of a name. -/
theorem filter_name_eq [DecidableEq β] (hnodup : (l.map f).Nodup) (ha : a ∈ l) :
    l.filter (fun x => f x = f a) = [a] := by
  obtain ⟨pre, post, rfl, hpre, hpost⟩ := exists_split hnodup ha
  rw [List.filter_append, List.filter_cons_of_pos (by simp),
    List.filter_eq_nil_iff.mpr fun x hx => by simpa using hpre x hx,
    List.filter_eq_nil_iff.mpr fun x hx => by simpa using hpost x hx]
  rfl

end Names

/-- A reply that the page waits for is one of those in flight, and no more once it has come
in or failed. -/
theorem inFlight_erase (num : ℚ → ℚ) {a : Answer} (h : Kept b)
    (hrecorded : Recorded b.program.server b.program.answers) (ha : a ∈ b.program.answers)
    (hasked : a.connection ∈ b.asked) (failed : List ℕ) (series : Option (List ChartPoint)) :
    ∃ k, (b.dashboard num).inFlight[k]? = some a.served
      ∧ ({ b with asked := b.asked.erase a.connection, failed := failed, series := series } :
        Browser).owed.map Answer.served = (b.dashboard num).inFlight.eraseIdx k := by
  have hmem : a ∈ b.owed := List.mem_filter.mpr ⟨ha, decide_eq_true hasked⟩
  have hnodup : (b.owed.map Answer.connection).Nodup :=
    hrecorded.once.sublist (List.filter_sublist.map _)
  obtain ⟨k, hk, herase⟩ := exists_filter_ne hnodup hmem
  refine ⟨k, ?_, ?_⟩
  · show (b.owed.map Answer.served)[k]? = _
    rw [List.getElem?_map, hk]
    rfl
  · show _ = (b.owed.map Answer.served).eraseIdx k
    rw [List.eraseIdx_map, ← herase, owed, owed, List.filter_filter]
    refine congrArg _ (List.filter_congr fun x _ => ?_)
    rw [← Bool.decide_and]
    exact decide_eq_decide.mpr h.nodup.mem_erase_iff

/-- When the page gives up a question, the answers to it are given up. -/
theorem givenUp_concat {i : ℕ} (hi : i ∉ b.failed) (asked : List ℕ) :
    (({ b with asked := asked, failed := b.failed ++ [i] } : Browser).givenUp).Perm
      (b.givenUp ++ b.program.answers.filter fun a => a.connection = i) := by
  have hsplit := List.filter_append_perm (fun a : Answer => decide (a.connection ∈ b.failed))
    (b.program.answers.filter fun a => a.connection ∈ b.failed ++ [i])
  rw [List.filter_filter, List.filter_filter] at hsplit
  refine hsplit.symm.trans (List.Perm.of_eq (congrArg₂ (· ++ ·) ?_ ?_))
  · refine List.filter_congr fun a _ => ?_
    rw [← Bool.decide_and]
    refine decide_eq_decide.mpr ⟨And.left, fun ha => ⟨ha, List.mem_append_left _ ha⟩⟩
  · refine List.filter_congr fun a _ => ?_
    rw [← decide_not, ← Bool.decide_and]
    refine decide_eq_decide.mpr ⟨?_, ?_⟩
    · rintro ⟨hnot, ha⟩
      rcases List.mem_append.mp ha with ha | ha
      · exact absurd ha hnot
      · exact List.mem_singleton.mp ha
    · rintro rfl
      exact ⟨hi, List.mem_append_right _ (List.mem_singleton_self _)⟩

/-! ### The events of the program -/

section Answers

variable {p : Program} {sent : List (ℕ × Bytes)} {a : Answer}

/-- An event of the program that answers nothing. -/
theorem dashboard_answers (hanswers : p.answers = b.program.answers) :
    ({ b with program := p, sent := sent } : Browser).dashboard num
      = { b.dashboard num with pipeline := p.pipeline } := by
  refine dashboard_eq rfl ?_ ?_ ?_
  · refine if_congr (and_congr_right' ?_) rfl rfl
    show (∃ i ∈ p.answers.map Answer.connection, b.chart = some i) ↔ _
    rw [hanswers]
    rfl
  · show (p.answers.filter fun a => a.connection ∈ b.asked).map _ = _
    rw [hanswers]
    rfl
  · show points (p.answers.filter fun a => a.connection ∈ b.failed) = _
    rw [hanswers]
    rfl

/-- A last answer is kept or left out. -/
theorem filter_concat (q : Answer → Prop) [DecidablePred q] (as : List Answer) :
    (as ++ [a]).filter (fun a => q a) = as.filter (fun a => q a) ++ if q a then [a] else [] := by
  rw [List.filter_append]
  by_cases ha : q a <;> simp [ha]

/-- A new answer is owed if the page waits for it. -/
theorem owed_answers (hanswers : p.answers = b.program.answers ++ [a]) :
    ({ b with program := p, sent := sent } : Browser).owed
      = b.owed ++ if a.connection ∈ b.asked then [a] else [] := by
  show p.answers.filter (fun a => a.connection ∈ b.asked) = _
  rw [hanswers]
  exact filter_concat (fun a => a.connection ∈ b.asked) b.program.answers

theorem givenUp_answers (hanswers : p.answers = b.program.answers ++ [a]) :
    ({ b with program := p, sent := sent } : Browser).givenUp
      = b.givenUp ++ if a.connection ∈ b.failed then [a] else [] := by
  show p.answers.filter (fun a => a.connection ∈ b.failed) = _
  rw [hanswers]
  exact filter_concat (fun a => a.connection ∈ b.failed) b.program.answers

/-- A reply without a point is no loss. -/
theorem points_givenUp (hanswers : p.answers = b.program.answers ++ [a])
    (hnone : a.connection ∈ b.failed → a.served.point = none) :
    points ({ b with program := p, sent := sent } : Browser).givenUp = points b.givenUp := by
  rw [givenUp_answers hanswers]
  by_cases ha : a.connection ∈ b.failed
  · rw [if_pos ha, points_append, points_singleton, hnone ha]
    exact add_zero _
  · rw [if_neg ha, List.append_nil]

theorem chartAnswered_answers (hanswers : p.answers = b.program.answers ++ [a]) :
    ({ b with program := p, sent := sent } : Browser).ChartAnswered
      ↔ b.ChartAnswered ∨ b.chart = some a.connection := by
  show (∃ i ∈ p.answers.map Answer.connection, b.chart = some i) ↔ _
  rw [hanswers, List.map_append]
  constructor
  · rintro ⟨i, hi, hchart⟩
    rcases List.mem_append.mp hi with hi | hi
    · exact Or.inl ⟨i, hi, hchart⟩
    · rw [List.map_singleton, List.mem_singleton] at hi
      exact Or.inr (by rw [hchart, hi])
  · rintro (⟨i, hi, hchart⟩ | hchart)
    · exact ⟨i, List.mem_append_left _ hi, hchart⟩
    · exact ⟨_, List.mem_append_right _ (List.mem_singleton_self _), hchart⟩

end Answers

section Request

variable {p : Program} {sent : List (ℕ × Bytes)} {i : ℕ} {env : Env} {req : HttpRequest}
  {rep : HttpReply}

/-- The server answers a question of the page, which waits for the reply or has given it up. -/
theorem dashboard_updateValues (h : Kept b)
    (hrequest : b.program.pipeline.step (.request env req rep) = some p.pipeline)
    (hanswers : p.answers = b.program.answers
      ++ [⟨i, (handleRequest env b.program.server.reqHandler_ req rep).rep,
        latestPoint b.program.server.reqHandler_ req⟩])
    (hroute : route req.uri_ = .updateValues) (hpage : i ∈ b.asked ∨ i ∈ b.failed) :
    ∃ ds, Runs (Dashboard.step num) OnlyPage (b.dashboard num) ds
      (({ b with program := p, sent := sent } : Browser).dashboard num) := by
  have hseries := h.asked i hpage
  have hserved : (b.dashboard num).step num (.updateValues env req rep)
      = some { b.dashboard num with
        pipeline := p.pipeline
        inFlight := b.owed.map Answer.served
          ++ [⟨(handleRequest env b.program.server.reqHandler_ req rep).rep,
            latestPoint b.program.server.reqHandler_ req⟩] } := by
    show (if _ then (b.program.pipeline.step (.request env req rep)).map _ else none) = _
    rw [if_pos ⟨dashboard_series_ne hseries, hroute⟩, hrequest]
    rfl
  have hasks := Runs.single (P := OnlyPage)
    (show OnlyPage (b.dashboard num) (.updateValues env req rep) from trivial) hserved
  obtain ⟨series, hsome⟩ := Option.ne_none_iff_exists'.mp hseries
  have hafter : (({ b with program := p, sent := sent } : Browser).dashboard num).series
      = (b.dashboard num).series := by
    rw [dashboard_series hsome]
    exact dashboard_series hsome
  by_cases hasked : i ∈ b.asked
  · refine ⟨[.updateValues env req rep], ?_⟩
    convert hasks using 1
    refine dashboard_eq rfl hafter ?_ ?_
    · rw [owed_answers hanswers, if_pos hasked, List.map_append]
      rfl
    · exact points_givenUp hanswers fun hfailed => absurd hasked (h.apart i hfailed)
  · -- the page has given it up before it was answered
    have hfailed := hpage.resolve_left hasked
    refine ⟨_, hasks.snoc (show OnlyPage _ (.error (b.owed.map Answer.served).length) from trivial)
      ?_⟩
    simp only [Dashboard.step, List.getElem?_concat_length]
    refine congrArg some (Eq.symm ?_)
    refine dashboard_eq rfl hafter ?_ ?_
    · rw [owed_answers hanswers, if_neg hasked, List.append_nil]
      show _ = (b.owed.map Answer.served ++ [_]).eraseIdx (b.owed.map Answer.served).length
      rw [List.eraseIdx_append_of_length_le le_rfl, Nat.sub_self]
      exact (List.append_nil _).symm
    · rw [givenUp_answers hanswers, if_pos hfailed, points_append, points_singleton]
      rfl

/-- The server answers any other request. -/
theorem dashboard_request (h : Kept b) (hnew : i ∉ b.answered)
    (hrequest : b.program.pipeline.step (.request env req rep) = some p.pipeline)
    (hanswers : p.answers = b.program.answers
      ++ [⟨i, (handleRequest env b.program.server.reqHandler_ req rep).rep,
        latestPoint b.program.server.reqHandler_ req⟩])
    (hroute : route req.uri_ ≠ .updateValues) (hpage : b.Asked (i, route req.uri_)) :
    ∃ ds, Runs (Dashboard.step num) OnlyPage (b.dashboard num) ds
      (({ b with program := p, sent := sent } : Browser).dashboard num) := by
  obtain ⟨hasked, -, hchart⟩ := hpage
  have howed : (({ b with program := p, sent := sent } : Browser).owed).map Answer.served
      = b.owed.map Answer.served := by
    rw [owed_answers hanswers, if_neg fun hi => hroute (hasked hi), List.append_nil]
  have hlost : points ({ b with program := p, sent := sent } : Browser).givenUp
      = points b.givenUp :=
    points_givenUp hanswers fun _ => Dashboard.latestPoint_of_ne hroute
  by_cases hi : b.chart = some i
  · -- the chart is on its way
    have hnot : ¬ b.ChartAnswered := by
      rintro ⟨j, hj, heq⟩
      rw [hi] at heq
      cases heq
      exact hnew hj
    have hnone : b.series = none := by
      by_contra hseries
      exact hnot (h.made hseries)
    have hbefore : (b.dashboard num).series = none := by
      show (if b.series = none ∧ b.ChartAnswered then _ else b.series) = none
      rw [if_neg fun hboth => hnot hboth.2, hnone]
    refine ⟨_, Runs.single (show OnlyPage _ (.giveMeValues env req rep) from trivial) ?_⟩
    show (if _ then (b.program.pipeline.step (.request env req rep)).map _ else none) = _
    rw [if_pos ⟨hbefore, hchart hi⟩, hrequest, handleRequest_giveMeValues _ _ _ (hchart hi),
      createChart_fixedPoints]
    refine congrArg some (Eq.symm ?_)
    refine dashboard_eq rfl ?_ howed hlost
    exact if_pos ⟨hnone, (chartAnswered_answers hanswers).mpr (Or.inr hi)⟩
  · refine ⟨_, Runs.single (show OnlyPage _ (.pipeline (.request env req rep)) from hroute) ?_⟩
    show (b.program.pipeline.step (.request env req rep)).map _ = _
    rw [hrequest]
    refine congrArg some (Eq.symm ?_)
    refine dashboard_eq rfl ?_ howed hlost
    exact if_congr (and_congr_right' ((chartAnswered_answers hanswers).trans (or_iff_left hi)))
      rfl rfl

end Request

/-- An event of the program is a run of the page. -/
theorem dashboard_program {e : ProgramEvent} {ps : List ProgramEvent} {p : Program}
    {sent : List (ℕ × Bytes)}
    (hps : Runs Program.step Program.HandlerSet (.initial n docRoot) ps b.program) (h : Kept b)
    (hP : WellAsked b (.program e)) (hstep : b.program.step e = some p) :
    ∃ ds, Runs (Dashboard.step num) OnlyPage (b.dashboard num) ds
      (({ b with program := p, sent := sent } : Browser).dashboard num) := by
  cases e with
  | manager e =>
    obtain ⟨hpipeline, hanswers⟩ := Program.step_manager_pipeline hstep
    refine ⟨_, Runs.single (show OnlyPage _ (.pipeline (.manager e)) from trivial) ?_⟩
    show (b.program.pipeline.step (.manager e)).map _ = _
    rw [hpipeline, dashboard_answers hanswers]
    rfl
  | loop e =>
    rcases Program.step_loop_pipeline hstep with
      ⟨-, hsame, hanswers⟩ | ⟨i, env, req, rep, hasks, hrequest, hanswers⟩
    · rw [dashboard_answers hanswers, hsame]
      exact ⟨[], Runs.nil _⟩
    have hpage := hP _ hasks
    by_cases hroute : route req.uri_ = .updateValues
    · exact dashboard_updateValues h hrequest hanswers hroute (hpage.2.1 hroute)
    · refine dashboard_request h ?_ hrequest hanswers hroute hpage
      have honce := (Program.recorded_run
        (hps.snoc (show Program.HandlerSet b.program (.loop e) from trivial) hstep)).once
      rw [hanswers, List.map_append] at honce
      exact fun hi => (List.nodup_append.mp honce).2.2 i hi i (List.mem_singleton_self _) rfl

/-! ### The events of the page -/

/-- What leaves the page as it was is no event for it. -/
theorem dashboard_same (h : b'.dashboard num = b.dashboard num) :
    ∃ ds, Runs (Dashboard.step num) OnlyPage (b.dashboard num) ds (b'.dashboard num) :=
  ⟨[], h ▸ Runs.nil _⟩

/-- A reply that comes in makes the chart, which was there for the page when it was answered,
or adds to it. -/
theorem dashboard_success {i : ℕ} (hrecorded : Recorded b.program.server b.program.answers)
    (h : Kept b) (hstep : b.step num (.success i) = some b') :
    ∃ ds, Runs (Dashboard.step num) OnlyPage (b.dashboard num) ds (b'.dashboard num) := by
  obtain ⟨rep, hrep, hstatus, ⟨hnone, hchart, rfl⟩ | ⟨series, hseries, hi, rfl⟩⟩ :=
    step_success hstep
  · -- the chart was made when `giveMeValues` was answered
    obtain ⟨a, ha, rfl, rfl⟩ := answer_of_reply h hrecorded hrep hstatus
    have hanswered : b.ChartAnswered := ⟨_, List.mem_map_of_mem ha, hchart⟩
    refine dashboard_same (dashboard_eq rfl ?_ rfl rfl)
    rw [h.fixed a ha hchart, createChart_fixedPoints, dashboard_series rfl]
    exact (if_pos ⟨hnone, hanswered⟩).symm
  · obtain ⟨a, ha, rfl, rfl⟩ := answer_of_reply h hrecorded hrep hstatus
    obtain ⟨k, hinFlight, herase⟩ := inFlight_erase num h hrecorded ha hi b.failed
      (some (onReply num a.served.rep.content_ series))
    refine ⟨_, Runs.single (show OnlyPage _ (.success k) from trivial) ?_⟩
    simp only [Dashboard.step, dashboard_series hseries, hinFlight]
    refine congrArg some (Eq.symm ?_)
    exact dashboard_eq rfl (dashboard_series rfl) herase rfl

/-- A question that the page gives up is a reply that fails, once it is answered. -/
theorem dashboard_error {i : ℕ} (hrecorded : Recorded b.program.server b.program.answers)
    (h : Kept b) (hstep : b.step num (.error i) = some b') :
    ∃ ds, Runs (Dashboard.step num) OnlyPage (b.dashboard num) ds (b'.dashboard num) := by
  obtain ⟨hi, rfl⟩ := step_error hstep
  have hnotFailed : i ∉ b.failed := fun hfailed => h.apart i hfailed hi
  have hgivenUp := points_perm (givenUp_concat hnotFailed (b.asked.erase i))
  by_cases hanswered : i ∈ b.answered
  · obtain ⟨a, ha, rfl⟩ := List.mem_map.mp hanswered
    obtain ⟨k, hinFlight, herase⟩ := inFlight_erase num h hrecorded ha hi
      (b.failed ++ [a.connection]) b.series
    refine ⟨_, Runs.single (show OnlyPage _ (.error k) from trivial) ?_⟩
    simp only [Dashboard.step, hinFlight]
    refine congrArg some (Eq.symm ?_)
    refine dashboard_eq rfl rfl herase ?_
    rw [hgivenUp, filter_name_eq hrecorded.once ha, points_append, points_singleton]
    rfl
  · -- there is no reply yet
    have hnone : ∀ a ∈ b.program.answers, a.connection ≠ i :=
      fun a ha heq => hanswered (heq ▸ List.mem_map_of_mem ha)
    refine dashboard_same (dashboard_eq rfl rfl (congrArg _ ?_) ?_)
    · refine List.filter_congr fun a ha => decide_eq_decide.mpr ?_
      rw [h.nodup.mem_erase_iff]
      exact and_iff_right (hnone a ha)
    · rw [hgivenUp, List.filter_eq_nil_iff.mpr fun a ha => by simpa using hnone a ha,
        List.append_nil]
      rfl

/-- **A step of the page at the sockets** is a run of the page. -/
theorem dashboard_step {ps : List ProgramEvent}
    (hps : Runs Program.step Program.HandlerSet (.initial n docRoot) ps b.program) (h : Kept b)
    (hP : WellAsked b e) (hstep : b.step num e = some b') :
    ∃ ds, Runs (Dashboard.step num) OnlyPage (b.dashboard num) ds (b'.dashboard num) := by
  have hrecorded := Program.recorded_run hps
  cases e with
  | program e =>
    obtain ⟨p, hp, rfl⟩ := step_program hstep
    exact dashboard_program hps h hP hp
  | giveMeValues i =>
    obtain ⟨hnone, hi, rfl⟩ := step_giveMeValues hstep
    have hbefore : ¬ b.ChartAnswered := by
      rintro ⟨j, -, hj⟩
      rw [hnone] at hj
      cases hj
    have hafter : ¬ ({ b with chart := some i } : Browser).ChartAnswered := by
      rintro ⟨j, hj, heq⟩
      cases heq
      exact not_answered hrecorded hi hj
    refine dashboard_same (dashboard_eq rfl ?_ rfl rfl)
    exact if_congr (and_congr_right' (iff_of_false hafter hbefore)) rfl rfl
  | updateValues i =>
    obtain ⟨-, -, -, hi, rfl⟩ := step_updateValues hstep
    refine dashboard_same (dashboard_eq rfl rfl (congrArg _ ?_) rfl)
    refine List.filter_congr fun a ha => decide_eq_decide.mpr ?_
    rw [List.mem_append, List.mem_singleton]
    refine or_iff_left fun heq => not_answered hrecorded hi ?_
    rw [← heq]
    exact List.mem_map_of_mem ha
  | success i => exact dashboard_success hrecorded h hstep
  | error i => exact dashboard_error hrecorded h hstep

/-- **The page at the sockets refines the page.** -/
theorem dashboard_run (h : Runs (step num) WellAsked (initial n docRoot) es b) :
    ∃ ds, Runs (Dashboard.step num) OnlyPage (.initial n docRoot) ds (b.dashboard num) := by
  refine h.trace (R := fun _ b => ∃ ds, Runs (Dashboard.step num) OnlyPage (.initial n docRoot) ds
    (b.dashboard num)) ⟨[], Runs.nil _⟩ ?_
  rintro es b e b' hrun ⟨ds, hds⟩ hP hstep
  obtain ⟨ps, hps⟩ := program_run hrun
  obtain ⟨ds', hds'⟩ := dashboard_step hps (kept_run hrun) hP hstep
  exact ⟨ds ++ ds', hds.append hds'⟩

/-! ## The chart -/

/-- The write over a connection is outstanding, or has sent its bytes. -/
def onItsWay (b : Browser) (i : ℕ) : Bool :=
  (b.sent.any fun m => m.1 = i)
    || b.program.server.connections[i]?.any fun c => !c.pending.isEmpty

/-- The answers that are on their way to the page. -/
def awaited (b : Browser) : List Answer := b.owed.filter fun a => b.onItsWay a.connection

/-- The answers that will not come in: the page has given them up, or their write is over and
has not sent them. -/
def lost (b : Browser) : List Answer :=
  b.givenUp ++ b.owed.filter fun a => !b.onItsWay a.connection

/-- **From an update to the chart.**  In every state of every run in which the handler is set
before a stat is added and only the page asks for `updateValues`, for any number of
consumers, whatever other clients send, however the sockets cut what they carry and in
whatever order replies come in or fail: every accepted update is in `latencyStatQ_`, in a
hand, in `statQ_`, in a reply on its way to the page, in one that is lost, or has come in,
and just once; and the chart, once it is there, has four points, which are fixed points or
points of what has come in, and their dates are the last four of all of these dates in
order. -/
theorem chart_received (num : ℚ → ℚ) (hnum : ExactIntegers num) (n : ℕ) (docRoot : Bytes)
    (es : List BrowserEvent) (b : Browser)
    (hrun : Runs (step num) WellAsked (initial n docRoot) es b) :
    b.program.accepted.Nodup ∧ ∃ arrived : Multiset LatencyStat.Ptr,
      (b.program.accepted : Multiset LatencyStat.Ptr)
          = b.program.manager.latencyStatQ_ + b.program.manager.inHand
            + b.program.server.reqHandler_.statQ_ + points b.awaited + points b.lost + arrived
        ∧ ∀ series, b.series = some series → series.length = 4
          ∧ (series : Multiset ChartPoint) ≤ fixedChart num + arrived.map (ChartPoint.ofStat num)
          ∧ series.map ChartPoint.x = Dashboard.latestDates num arrived := by
  obtain ⟨ps, hps⟩ := program_run hrun
  obtain ⟨ss, hss⟩ := Program.pipeline_run hps
  obtain ⟨ds, hds⟩ := dashboard_run hrun
  obtain ⟨arrived, hcharted⟩ := Dashboard.charted_run hnum hds
  refine ⟨StatPipeline.nodup_accepted hss, arrived, ?_, ?_⟩
  · have hconserved : Relay.Conserved b.program.pipeline.relay := StatPipeline.conserved_run hss
    have hdelivered : (b.program.pipeline.delivered : Multiset LatencyStat.Ptr)
        = arrived + (b.dashboard num).underWay + points b.givenUp := hcharted.delivered
    have hunderWay : ((b.dashboard num).underWay : Multiset LatencyStat.Ptr) = points b.owed :=
      congrArg _ List.filterMap_map
    have howed : points b.owed
        = points b.awaited + points (b.owed.filter fun a => !b.onItsWay a.connection) := by
      rw [← points_append]
      exact points_perm (List.filter_append_perm _ _).symm
    have haccepted : (b.program.accepted : Multiset LatencyStat.Ptr)
        = b.program.manager.latencyStatQ_ + b.program.manager.inHand
          + b.program.server.reqHandler_.statQ_ + b.program.pipeline.delivered := hconserved
    rw [haccepted, hdelivered, hunderWay, howed, lost, points_append]
    abel
  · intro series hseries
    obtain ⟨hlength, hlatest⟩ := hcharted.chart series (dashboard_series hseries)
    obtain ⟨dropped, hall, -⟩ := hlatest.latest
    refine ⟨hlength, ?_, hcharted.dates (dashboard_series hseries)⟩
    rw [hall]
    exact Multiset.le_add_left _ _

theorem length_giveMeValues : (str "GET /giveMeValues HTTP/1.1\r\n\r\n").length ≤ bufferSize := by
  decide

/-- The chart is asked for and made, and the point of an update is asked for and added. -/
def updated : List BrowserEvent :=
  [.program (.manager .setReqHandler), .program (.manager .start),
    .program (.manager (.createThread 0)), .program (.manager (.startReturns 0)),
    .giveMeValues 0,
    .program (.loop (.acceptDone .success
      ⟨⟨List.replicate bufferSize 0, length_zeros⟩, 0, 0, .ok⟩)),
    .program (.loop (.readDone 0 0 .success
      ⟨str "GET /giveMeValues HTTP/1.1\r\n\r\n", length_giveMeValues⟩
      ⟨fun _ _ => [], fun _ => none⟩)),
    .program (.loop (.writeDone 0 0 .success)), .success 0,
    .program (.manager (.onLatencyUpdate ⟨str "1", 897669200000, 4⟩)),
    .program (.manager (.push 0 none)), .program (.manager (.loopTest 0)),
    .program (.manager (.take 0)), .program (.manager (.addStat 0)),
    .updateValues 1,
    .program (.loop (.acceptDone .success
      ⟨⟨List.replicate bufferSize 0, length_zeros⟩, 0, 0, .ok⟩)),
    .program (.loop (.readDone 1 0 .success
      ⟨str "GET /updateValues HTTP/1.0\r\n\r\n", Program.length_updateValues⟩
      ⟨fun _ _ => [], fun _ => none⟩)),
    .program (.loop (.writeDone 1 0 .success)), .success 1]

theorem updated_runs :
    (run (step binary64.round) WellAsked (initial 1 []) updated).isSome = true := by
  decide +kernel

theorem updated_series :
    ((run (step binary64.round) WellAsked (initial 1 []) updated).get
      updated_runs).series.isSome = true := by
  decide +kernel

/-- The chart has four points. -/
theorem chart_received_updated :
    (((run (step binary64.round) WellAsked (initial 1 []) updated).get
      updated_runs).series.get updated_series).length = 4 := by
  obtain ⟨-, arrived, -, hchart⟩ := chart_received binary64.round exactIntegers_round 1 []
    updated _ (runs_get updated_runs)
  exact (hchart _ (Option.some_get updated_series).symm).1

end Browser

end Unichannel
