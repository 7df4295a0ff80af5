/-
# Which files can be fetched

A request for a file under the document root passes the checks of `handle_request` in
order: the URI decodes to the path, the path is absolute and has no `..`, it does not end
in a slash, and then come the two tests for the names of the dashboard's data,
`giveMeValues` and `updateValues`, which look anywhere in the path.  A file whose path
mentions neither is served, byte for byte (`file_served`); one whose path does is
shadowed by the data (`servesFile_iff`).
-/
import Unichannel.ConnectionProtocol
import Unichannel.FileContent
import Unichannel.UrlEncoding
import Unichannel.Lib.LexicalPath

namespace Unichannel

open GuardedSystem

/-! ## Files under the document root -/

/-- A path relative to the document root: components that are not empty and have no NUL,
with slashes between them, and no `..` anywhere. -/
structure RelativePath where
  components : List Bytes
  ne_nil : components ≠ []
  component_ne_nil : ∀ c ∈ components, c ≠ []
  slash_not_mem : ∀ c ∈ components, ch '/' ∉ c
  nul_not_mem : ∀ c ∈ components, (0 : Byte) ∉ c
  no_dotdot : ¬ str ".." <:+: [ch '/'].intercalate components

/-- The path as a string. -/
def RelativePath.text (p : RelativePath) : Bytes := [ch '/'].intercalate p.components

/-- A readable file under `root`.  No name the operating system knows has a NUL in it, the
document root's included. -/
structure ReadableFile (env : Env) (root : Bytes) where
  path : RelativePath
  bytes : Bytes
  root_no_nul : (0 : Byte) ∉ root
  opens : env.openFile (root ++ str "/" ++ path.text) = some bytes

/-- The path a request for the file asks for. -/
def ReadableFile.requestPath {env : Env} {root : Bytes} (f : ReadableFile env root) : Bytes :=
  str "/" ++ f.path.text

/-- The handler answers 200 with these bytes, and takes nothing from the queue. -/
def ServesFile (bytes : Bytes) (h : HttpReqHandler) (handled : Handled) : Prop :=
  handled.rep.status_ = .ok ∧ handled.rep.content_ = bytes ∧ handled.handler.statQ_ = h.statQ_

instance (bytes : Bytes) (h : HttpReqHandler) (handled : Handled) :
    Decidable (ServesFile bytes h handled) :=
  inferInstanceAs (Decidable (_ ∧ _ ∧ _))

/-- The path mentions one of the two names the dashboard fetches data under. -/
def MentionsData (path : Bytes) : Prop :=
  str "giveMeValues" <:+: path ∨ str "updateValues" <:+: path

/-! ## The checks -/

namespace RelativePath

variable (p : RelativePath)

/-- A path has no NUL. -/
theorem nul_not_mem_text : (0 : Byte) ∉ p.text := by
  intro hmem
  rcases LexicalPath.mem_intercalate hmem with hslash | ⟨c, hc, hnul⟩
  · exact absurd hslash (by decide)
  · exact p.nul_not_mem c hc hnul

/-- It does not end in a slash. -/
theorem getLast?_text : ∃ b, b ≠ ch '/' ∧ p.text.getLast? = some b :=
  LexicalPath.getLast?_intercalate p.ne_nil
    (fun c hc => ⟨p.component_ne_nil c hc, p.slash_not_mem c hc⟩)

theorem not_dotdot_slash_text : ¬ str ".." <:+: str "/" ++ p.text := by
  intro hin
  rcases List.infix_cons_iff.mp (show str ".." <:+: ch '/' :: p.text from hin) with hpre | hrest
  · obtain ⟨rest, hrest⟩ := hpre
    exact absurd (List.cons.inj hrest).1 (by decide)
  · exact p.no_dotdot hrest

end RelativePath

/-- The checks let the path of a file through to the two tests for data. -/
theorem route_of_encodes {p : RelativePath} {uri : Bytes} (h : Encodes (str "/" ++ p.text) uri) :
    route uri
      = if str "giveMeValues" <:+: str "/" ++ p.text then .giveMeValues
        else if str "updateValues" <:+: str "/" ++ p.text then .updateValues
        else .file (str "/" ++ p.text) := by
  have hdecoded : urlDecode uri = (true, str "/" ++ p.text) := urlDecodeLoop_of_encodes h []
  obtain ⟨b, hb, hlast⟩ := p.getLast?_text
  have hslash : ¬ (str "/" ++ p.text).getLast? = some (ch '/') := by
    rw [List.getLast?_append, hlast]
    exact fun heq => hb (Option.some.inj heq)
  have hdots : found (str "..") (str "/" ++ p.text) = false :=
    decide_eq_false p.not_dotdot_slash_text
  unfold route
  rw [hdecoded]
  dsimp only
  rw [if_neg (by decide), hdots, if_neg (by simp [str]), if_neg hslash]
  simp only [found, decide_eq_true_eq]

/-! ## The reply that is passed in -/

/-- While a connection has only read, its reply holds no content. -/
def Unanswered (c : HttpClientConnection) : Prop := Reading c.history → c.reply_.content_ = []

/-- It stays so as long as the reply is unchanged. -/
theorem Unanswered.of_extends {c c' : HttpClientConnection} (h : Unanswered c)
    (hhistory : c.history ⊆ c'.history) (hreply : c'.reply_ = c.reply_) : Unanswered c' := by
  intro hreading
  rw [hreply]
  exact h fun a ha => hreading a (hhistory ha)

/-- **Step lemma.**  The only assignment to `reply_` ends the reading. -/
theorem unanswered_step {v v' : Session} {b : SessionEvent} (h : Unanswered v.conn)
    (hstep : v.step b = some v') : Unanswered v'.conn := by
  cases b with
  | readDone k ec r env hd =>
    obtain ⟨-, rfl⟩ := Session.step_readDone hstep
    cases ec with
    | success =>
      show Unanswered ((v.conn.complete k).onReadSuccess env hd r).1
      rcases HttpClientConnection.onReadSuccess_cases env hd (v.conn.complete k) r with
        ⟨-, rep, heq⟩ | ⟨-, heq⟩
      · -- an answer is in the history, so the connection does not read any more
        rw [heq]
        intro hreading
        have hset : Act.replySet
            ∈ ((((v.conn.complete k).receive r).conn.setReply rep).doWrite).history := by
          simp [HttpClientConnection.setReply, HttpClientConnection.doWrite]
        rcases hreading _ hset with ⟨b, hb⟩ | hb <;> cases hb
      · rw [heq]
        refine h.of_extends ?_ rfl
        exact List.Subset.trans (List.subset_append_left v.conn.history _)
          (List.subset_append_left _ _)
    | operationAborted => exact h.of_extends (List.Subset.refl _) rfl
    | other => exact h.of_extends (List.Subset.refl _) rfl
  | writeDone k ec =>
    obtain ⟨-, rfl⟩ := Session.step_writeDone hstep
    cases ec with
    | success => exact h.of_extends (List.subset_append_left _ _) rfl
    | operationAborted => exact h.of_extends (List.Subset.refl _) rfl
    | other => exact h.of_extends (List.Subset.refl _) rfl
  | stopAll =>
    cases hstep
    rcases v.stopAll_cases with heq | ⟨-, heq⟩
    · rw [heq]
      exact h.of_extends (List.Subset.refl _) rfl
    · rw [heq]
      exact h

/-- **The callers pass an empty reply.**  In every run of the server, the reply that a read
handler hands to `handle_request` holds no content. -/
theorem reply_empty_at_handleRequest {docRoot : Bytes} {es : List Event} {s : HttpServerTransport}
    (hrun : Runs HttpServerTransport.step anyStep (.initial docRoot) es s) {i k : ℕ}
    {c : HttpClientConnection} (hc : s.connections[i]? = some c) (hk : c.awaitsRead k = true)
    (r : ReadBytes) : ((c.complete k).receive r).conn.reply_.content_ = [] := by
  have hv := HttpServerTransport.view_of_connection hc
  have hunanswered : Unanswered c :=
    HttpServerTransport.session_invariant (Q := anyStep) (I := fun v => Unanswered v.conn)
      (fun _ _ _ _ _ _ _ _ => trivial) (fun _ _ => rfl)
      (fun _ _ _ h _ hstep => unanswered_step h hstep) hrun hv
  exact hunanswered ((phase_run hrun hv).of_awaitsRead hk).2.2

/-! ## The replies -/

/-- `getLatestPoint` leaves the queue as it was only if this was empty. -/
theorem getLatestPoint_statQ_eq_iff (h : HttpReqHandler) :
    h.getLatestPoint.2.statQ_ = h.statQ_ ↔ h.statQ_ = [] := by
  cases hq : h.statQ_ with
  | nil =>
    rw [HttpReqHandler.getLatestPoint_of_nil hq, hq]
  | cons stat rest =>
    rw [HttpReqHandler.getLatestPoint_of_cons hq]
    simp

/-- No byte of the path is lost in the C string, so it is the file that is opened. -/
theorem ReadableFile.openFile_cStr {env : Env} {root : Bytes} (f : ReadableFile env root) :
    env.openFile (cStr (root ++ f.requestPath)) = some f.bytes := by
  have hnul : (0 : Byte) ∉ root ++ f.requestPath := by
    rw [List.mem_append, not_or]
    refine ⟨f.root_no_nul, ?_⟩
    rw [requestPath, List.mem_append, not_or]
    exact ⟨by decide, f.path.nul_not_mem_text⟩
  rw [cStr_of_not_mem hnul, requestPath, ← List.append_assoc]
  exact f.opens

/-- **When a file is served.**  For a reply that is still empty, exactly if its path
mentions no data, or the data happens to be what the file holds. -/
theorem servesFile_iff (env : Env) (h : HttpReqHandler) (f : ReadableFile env h.doc_root_)
    (req : HttpRequest) (henc : Encodes f.requestPath req.uri_) (rep : HttpReply)
    (hrep : rep.content_ = []) :
    ServesFile f.bytes h (handleRequest env h req rep)
      ↔ if str "giveMeValues" <:+: f.requestPath then fixedPoints = f.bytes
        else if str "updateValues" <:+: f.requestPath then h.statQ_ = [] ∧ f.bytes = []
        else True := by
  unfold ServesFile
  rw [handleRequest_eq, route_of_encodes henc, ← ReadableFile.requestPath]
  split_ifs with hgive hupdate
  · simp only [setHeaders_status, setHeaders_content, true_and, and_true]
  · simp only [setHeaders_status, setHeaders_content, getLatestPoint_statQ_eq_iff, true_and]
    constructor
    · rintro ⟨hbytes, hempty⟩
      rw [HttpReqHandler.getLatestPoint_of_nil hempty] at hbytes
      exact ⟨hempty, hbytes.symm⟩
    · rintro ⟨hempty, hbytes⟩
      rw [HttpReqHandler.getLatestPoint_of_nil hempty, hbytes]
      exact ⟨rfl, hempty⟩
  · simp only [f.openFile_cStr, setHeaders_status, setHeaders_content, readLoop_eq, hrep,
      List.nil_append, and_self]

/-- **A file is served.**  Whatever its name, as long as its path mentions no data: every
encoding of the path is answered 200 with the bytes of the file, and the queue of stats
stays as it is. -/
theorem file_served (env : Env) (h : HttpReqHandler) (f : ReadableFile env h.doc_root_)
    (hdata : ¬ MentionsData f.requestPath) (req : HttpRequest)
    (henc : Encodes f.requestPath req.uri_) (rep : HttpReply) (hrep : rep.content_ = []) :
    ServesFile f.bytes h (handleRequest env h req rep) := by
  rw [MentionsData, not_or] at hdata
  rw [servesFile_iff env h f req henc rep hrep, if_neg hdata.1, if_neg hdata.2]
  trivial

/-! ## Examples of files -/

/-- A file system that holds one file. -/
def oneFile (path bytes : Bytes) : Env :=
  ⟨fun _ _ => [], fun p => if p = path then some bytes else none⟩

/-- A script below `/www`. -/
def chartScript : ReadableFile (oneFile (str "/www/js/chart.js") (str "draw()")) (str "/www") where
  path :=
    { components := [str "js", str "chart.js"]
      ne_nil := by decide
      component_ne_nil := by decide
      slash_not_mem := by decide +kernel
      nul_not_mem := by decide +kernel
      no_dotdot := by decide +kernel }
  bytes := str "draw()"
  root_no_nul := by decide +kernel
  opens := by decide +kernel

/-- The script is served, under an encoding with an escaped slash. -/
theorem file_served_chartScript :
    ServesFile (str "draw()") ⟨str "/www", []⟩
      (handleRequest (oneFile (str "/www/js/chart.js") (str "draw()")) ⟨str "/www", []⟩
        ⟨str "GET", str "/js%2fchart.js", 1, 0, []⟩ ⟨.ok, [], []⟩) := by
  have hpath : chartScript.requestPath = str "/js" ++ ch '/' :: str "chart.js" := by
    decide +kernel
  have hdata : ¬ MentionsData chartScript.requestPath := by
    rw [hpath]
    unfold MentionsData
    decide +kernel
  have henc : Encodes chartScript.requestPath (str "/js%2fchart.js") := by
    rw [hpath]
    have hslash : Encodes (ch '/' :: str "chart.js") (str "%2fchart.js") :=
      Encodes.escape (Or.inl (by decide)) (Or.inl (by decide)) (encodes_self (by decide +kernel))
    exact (encodes_self (s := str "/js") (by decide +kernel)).append hslash
  exact file_served (oneFile (str "/www/js/chart.js") (str "draw()")) ⟨str "/www", []⟩ chartScript
    hdata ⟨str "GET", str "/js%2fchart.js", 1, 0, []⟩ henc ⟨.ok, [], []⟩ rfl

/-- A file below `/www` with the name the dashboard fetches its points under. -/
def shadowedFile :
    ReadableFile (oneFile (str "/www/updateValues") (str "notes")) (str "/www") where
  path :=
    { components := [str "updateValues"]
      ne_nil := by decide
      component_ne_nil := by decide
      slash_not_mem := by decide +kernel
      nul_not_mem := by decide +kernel
      no_dotdot := by decide +kernel }
  bytes := str "notes"
  root_no_nul := by decide +kernel
  opens := by decide +kernel

/-- The request for the file `updateValues` is answered with a point, which leaves the
queue. -/
theorem not_every_file_served :
    ¬ ∀ (env : Env) (h : HttpReqHandler) (f : ReadableFile env h.doc_root_) (req : HttpRequest)
      (rep : HttpReply), Encodes f.requestPath req.uri_ → rep.content_ = [] →
        ServesFile f.bytes h (handleRequest env h req rep) := by
  intro hserved
  have henc : Encodes shadowedFile.requestPath (str "/updateValues") :=
    encodes_self (by decide +kernel)
  have hbad := hserved (oneFile (str "/www/updateValues") (str "notes"))
    ⟨str "/www", [⟨0, ⟨[], 1, 2⟩⟩]⟩ shadowedFile ⟨str "GET", str "/updateValues", 1, 0, []⟩
    ⟨.ok, [], []⟩ henc rfl
  exact absurd hbad (by decide +kernel)

end Unichannel
