/-
# The request handler (HttpReqHandler.h, HttpReqHandler.cpp, LatencyStat.h)

`handleRequest` follows `HttpReqHandler::handle_request` exit by exit.  What it
asks of the outside is the parameter `Env`: the text the template library
expands and what opening a path gives.  Besides the reply and the queue left
behind, it reports the path it passed to `std::ifstream`, if any.
-/
import Unichannel.HttpReply
import Unichannel.UrlDecode

namespace Unichannel

/-! ## Latency stats -/

/-- `LatencyStat`. -/
structure LatencyStat where
  id_ : Bytes
  dateTime_ : ℤ
  latencyInMicro_ : ℤ
  deriving DecidableEq, Repr

/-- `LatencyStat::Ptr`: every `new LatencyStat` is an object of its own, told
apart by its address. -/
structure LatencyStat.Ptr where
  addr : ℕ
  stat : LatencyStat
  deriving DecidableEq, Repr

/-! ## The standard library -/

/-- `std::ostream << n` for a signed integer. -/
def streamInt (n : ℤ) : Bytes :=
  if n < 0 then ch '-' :: stdToString n.natAbs else stdToString n.natAbs

/-- `s.find(pat) != std::string::npos`. -/
def found (pat s : Bytes) : Bool := pat <:+: s

/-- `s.find_last_of(c)`; `none` is `npos`. -/
def findLastOf (c : Byte) (s : Bytes) : Option ℕ :=
  (s.reverse.findIdx? (· = c)).map fun i => s.length - 1 - i

/-- The C string a call of `c_str()` hands over: what is before the first NUL. -/
def cStr (s : Bytes) : Bytes := s.takeWhile (· ≠ 0)

/-- Text without a NUL stays in front of the cut. -/
theorem cStr_append_of_not_mem {pre : Bytes} (h : (0 : Byte) ∉ pre) (post : Bytes) :
    cStr (pre ++ post) = pre ++ cStr post := by
  have hall : ∀ b ∈ pre, decide (b ≠ 0) = true := by
    intro b hb
    rw [decide_eq_true_iff]
    rintro rfl
    exact h hb
  rw [cStr, List.takeWhile_append_of_pos hall, cStr]

/-- Bytes without a NUL are their own C string. -/
theorem cStr_of_not_mem {s : Bytes} (h : (0 : Byte) ∉ s) : cStr s = s := by
  have happ := cStr_append_of_not_mem h []
  rwa [List.append_nil, show cStr [] = [] from rfl, List.append_nil] at happ

/-- `headers_.resize(n)`. -/
def resize (n : ℕ) (hs : List HttpHeader) : List HttpHeader :=
  hs.take n ++ List.replicate (n - hs.length) HttpHeader.empty

/-- A `std::ifstream`: what is left to read, and whether `eofbit` and `failbit`
are set. -/
structure IfStream where
  rest : Bytes
  failed : Bool
  deriving DecidableEq, Repr

/-- `is.read(buf, n)`: the stream, the buffer and `gcount()` afterwards. -/
def IfStream.read (is : IfStream) (buf : Bytes) (n : ℕ) : IfStream × Bytes × ℕ :=
  if is.failed then (is, buf, 0)
  else
    let got := is.rest.take n
    (⟨is.rest.drop n, got.length < n⟩, got ++ buf.drop got.length, got.length)

/-- A read that delivers bytes leaves fewer of them. -/
theorem IfStream.read_lt {is : IfStream} {buf : Bytes} (h : 0 < (is.read buf 512).2.2) :
    (is.read buf 512).1.rest.length < is.rest.length := by
  unfold IfStream.read at h ⊢
  split_ifs at h ⊢ with hfail
  · exact absurd h (lt_irrefl 0)
  · simp only [List.length_take] at h
    simp only [List.length_drop]
    omega

/-- The read loop of `handle_request` with its 512-byte buffer, started with
`content_` in the reply; the content afterwards. -/
def readLoop (is : IfStream) (buf content_ : Bytes) : Bytes :=
  if 0 < (is.read buf 512).2.2 then
    readLoop (is.read buf 512).1 (is.read buf 512).2.1
      (content_ ++ (is.read buf 512).2.1.take (is.read buf 512).2.2)
  else content_
termination_by is.rest.length
decreasing_by exact IfStream.read_lt (by assumption)

/-! ## The handler -/

/-- `HttpReqHandler`: the directory served and the queue of stats for the
dashboard.  The table of MIME types is the same in every handler. -/
structure HttpReqHandler where
  doc_root_ : Bytes
  statQ_ : List LatencyStat.Ptr
  deriving DecidableEq, Repr

/-- `mimemaps`, as the constructor fills it. -/
def mimemaps : List (Bytes × Bytes) :=
  [(str "gif", str "image/gif"), (str "htm", str "text/htm"), (str "html", str "text/html"),
    (str "jpg", str "image/jpeg"), (str "png", str "image/png")]

/-- `HttpReqHandler::extension_to_type`. -/
def extensionToType (extension : Bytes) : Bytes :=
  match mimemaps.find? (fun m => m.1 = extension) with
  | some m => m.2
  | none => str "text/plain"

/-- `HttpReqHandler::addStat`. -/
def HttpReqHandler.addStat (h : HttpReqHandler) (stat : LatencyStat.Ptr) : HttpReqHandler :=
  { h with statQ_ := h.statQ_ ++ [stat] }

/-- The text of a point: `"[" << dateTime << "," << latencyInMicro << "]"`. -/
def pointText (stat : LatencyStat) : Bytes :=
  str "[" ++ streamInt stat.dateTime_ ++ str "," ++ streamInt stat.latencyInMicro_ ++ str "]"

/-- `HttpReqHandler::getLatestPoint`: the string returned and the queue left. -/
def HttpReqHandler.getLatestPoint (h : HttpReqHandler) : Bytes × HttpReqHandler :=
  match h.statQ_ with
  | [] => ([], h)
  | stat :: rest => (pointText stat.stat, { h with statQ_ := rest })

/-- Without a stat there is no point. -/
theorem HttpReqHandler.getLatestPoint_of_nil {h : HttpReqHandler} (hq : h.statQ_ = []) :
    h.getLatestPoint = ([], h) := by
  rw [getLatestPoint, hq]

/-- Otherwise it is the point of the first stat, which leaves the queue. -/
theorem HttpReqHandler.getLatestPoint_of_cons {h : HttpReqHandler} {stat : LatencyStat.Ptr}
    {rest : List LatencyStat.Ptr} (hq : h.statQ_ = stat :: rest) :
    h.getLatestPoint = (pointText stat.stat, { h with statQ_ := rest }) := by
  rw [getLatestPoint, hq]

/-- What `handle_request` asks of the outside while it runs. -/
structure Env where
  /-- `ctemplate::ExpandTemplate` of a file with the values set. -/
  expandTemplate : Bytes → List (Bytes × Bytes) → Bytes
  /-- Opening a path for reading: the bytes that can be read from it, or failure. -/
  openFile : Bytes → Option Bytes

/-- What a call of `handle_request` leaves: the reply, the handler and the path
it passed to `std::ifstream`, if it did. -/
structure Handled where
  rep : HttpReply
  handler : HttpReqHandler
  opened : Option Bytes
  deriving DecidableEq, Repr

/-- The last lines of `handle_request`: exactly two headers, both set anew. -/
def setHeaders (rep : HttpReply) (extension : Bytes) : HttpReply :=
  let hs := resize 2 rep.headers_
  let hs := hs.set 0 ⟨str "Content-Length", stdToString rep.content_.length⟩
  let hs := hs.set 1 ⟨str "Content-Type", extensionToType extension⟩
  { rep with headers_ := hs }

/-- The headers are set without the status. -/
@[simp] theorem setHeaders_status (rep : HttpReply) (extension : Bytes) :
    (setHeaders rep extension).status_ = rep.status_ := rfl

@[simp] theorem setHeaders_content (rep : HttpReply) (extension : Bytes) :
    (setHeaders rep extension).content_ = rep.content_ := rfl

/-- The extension `handle_request` computes for a file. -/
def fileExtension (request_path : Bytes) : Bytes :=
  match findLastOf (ch '.') request_path, findLastOf (ch '/') request_path with
  | some last_dot_pos, some last_slash_pos =>
    if last_slash_pos < last_dot_pos then request_path.drop (last_dot_pos + 1) else []
  | _, _ => []

/-- The points `giveMeValues` answers with. -/
def fixedPoints : Bytes :=
  str "[[873612800000,4.58],[876291200000,5.91],[878710400000,1.91],[879388800000,8.91]]"

/-- `HttpReqHandler::handle_request`. -/
def handleRequest (env : Env) (h : HttpReqHandler) (req : HttpRequest) (rep : HttpReply) :
    Handled :=
  let decoded := urlDecode req.uri_
  let request_path := decoded.2
  if !decoded.1 then ⟨HttpReply.stockReply .badRequest, h, none⟩
  else if request_path.isEmpty || request_path.head? != some (ch '/')
      || found (str "..") request_path then
    ⟨HttpReply.stockReply .badRequest, h, none⟩
  else if request_path.getLast? = some (ch '/') then
    let output := env.expandTemplate (str "../templates/myhtml.tpl")
      [(str "TITLE", str "HTML Page from CTemplates"), (str "UPDATEINTERVAL", str "1000")]
    ⟨setHeaders { rep with status_ := .ok, content_ := output } (str "html"), h, none⟩
  else if found (str "giveMeValues") request_path then
    ⟨setHeaders { rep with status_ := .ok, content_ := fixedPoints } (str "html"), h, none⟩
  else if found (str "updateValues") request_path then
    let point := h.getLatestPoint
    ⟨setHeaders { rep with status_ := .ok, content_ := point.1 } (str "html"), point.2, none⟩
  else
    let extension := fileExtension request_path
    let full_path := h.doc_root_ ++ request_path
    match env.openFile (cStr full_path) with
    | none => ⟨HttpReply.stockReply .notFound, h, some (cStr full_path)⟩
    | some file =>
      let content_ := readLoop ⟨file, false⟩ (List.replicate 512 0) rep.content_
      ⟨setHeaders { rep with status_ := .ok, content_ := content_ } extension, h,
        some (cStr full_path)⟩

/-! ## The routes -/

/-- The exits of `handle_request`, as the URI selects them. -/
inductive Route
  /-- The URI does not decode, is not absolute or contains `..`. -/
  | reject
  /-- A path that ends in a slash: the dashboard page. -/
  | page
  /-- A path that mentions `giveMeValues`. -/
  | giveMeValues
  /-- A path that mentions `updateValues`. -/
  | updateValues
  /-- Any other path is that of a file. -/
  | file (request_path : Bytes)
  deriving DecidableEq, Repr

/-- The checks of `handle_request`, in their order. -/
def route (uri : Bytes) : Route :=
  let request_path := (urlDecode uri).2
  if !(urlDecode uri).1 then .reject
  else if request_path.isEmpty || request_path.head? != some (ch '/')
      || found (str "..") request_path then .reject
  else if request_path.getLast? = some (ch '/') then .page
  else if found (str "giveMeValues") request_path then .giveMeValues
  else if found (str "updateValues") request_path then .updateValues
  else .file request_path

/-- The page the template expands to. -/
def Env.page (env : Env) : Bytes :=
  env.expandTemplate (str "../templates/myhtml.tpl")
    [(str "TITLE", str "HTML Page from CTemplates"), (str "UPDATEINTERVAL", str "1000")]

/-- **`handle_request` by route.** -/
theorem handleRequest_eq (env : Env) (h : HttpReqHandler) (req : HttpRequest) (rep : HttpReply) :
    handleRequest env h req rep =
      match route req.uri_ with
      | .reject => ⟨HttpReply.stockReply .badRequest, h, none⟩
      | .page =>
        ⟨setHeaders { rep with status_ := .ok, content_ := env.page } (str "html"), h, none⟩
      | .giveMeValues =>
        ⟨setHeaders { rep with status_ := .ok, content_ := fixedPoints } (str "html"), h, none⟩
      | .updateValues =>
        ⟨setHeaders { rep with status_ := .ok, content_ := h.getLatestPoint.1 } (str "html"),
          h.getLatestPoint.2, none⟩
      | .file request_path =>
        match env.openFile (cStr (h.doc_root_ ++ request_path)) with
        | none =>
          ⟨HttpReply.stockReply .notFound, h, some (cStr (h.doc_root_ ++ request_path))⟩
        | some file =>
          ⟨setHeaders
              { rep with
                status_ := .ok
                content_ := readLoop ⟨file, false⟩ (List.replicate 512 0) rep.content_ }
              (fileExtension request_path),
            h, some (cStr (h.doc_root_ ++ request_path))⟩ := by
  unfold handleRequest route
  dsimp only
  split_ifs <;> rfl

/-- What the checks guarantee of a path that is served from a file. -/
theorem route_eq_file {uri request_path : Bytes} (hr : route uri = .file request_path) :
    request_path = (urlDecode uri).2 ∧ request_path.head? = some (ch '/')
      ∧ ¬ str ".." <:+: request_path := by
  unfold route at hr
  dsimp only at hr
  split_ifs at hr with h1 h2 h3 h4 h5
  cases hr
  simp only [found, Bool.or_eq_true, decide_eq_true_eq, bne_iff_ne, not_or, not_not] at h2
  exact ⟨rfl, h2.1.2, h2.2⟩

end Unichannel
