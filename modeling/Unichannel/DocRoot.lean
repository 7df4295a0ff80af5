/-
# Files are served from below the document root

The path `handle_request` opens is the document root followed by the decoded
request path, as far as the C string goes.  The checks on the decoded path are
made before it is concatenated, cut at a NUL and split into components by the
operating system; they are enough for the lexical resolution of the opened path
to stay inside that of the document root.
-/
import Unichannel.HttpReqHandler
import Unichannel.Lib.LexicalPath

namespace Unichannel

/-- The components a path resolves to: empty and `.` components dropped, `..`
removing the component before it. -/
def resolvePath (p : Bytes) : List Bytes := LexicalPath.resolve (ch '/') (ch '.') p

/-- The only exit that opens a path is the one for files. -/
theorem route_of_opened {env : Env} {h : HttpReqHandler} {req : HttpRequest} {rep : HttpReply}
    {path : Bytes} (hopen : (handleRequest env h req rep).opened = some path) :
    ∃ request_path, route req.uri_ = .file request_path
      ∧ path = cStr (h.doc_root_ ++ request_path) := by
  rw [handleRequest_eq] at hopen
  cases hr : route req.uri_ with
  | file request_path =>
    refine ⟨request_path, rfl, ?_⟩
    rw [hr] at hopen
    cases hf : env.openFile (cStr (h.doc_root_ ++ request_path)) <;>
      simp only [hf] at hopen <;> exact (Option.some.inj hopen).symm
  | _ => simp [hr] at hopen

/-- A document root without NUL survives the cut at the first NUL, and so does
the slash after it. -/
theorem cStr_root_append {root rest : Bytes} (hroot : (0 : Byte) ∉ root) :
    cStr (root ++ ch '/' :: rest) = root ++ ch '/' :: cStr rest := by
  rw [cStr_append_of_not_mem hroot, cStr, List.takeWhile_cons_of_pos (by decide), cStr]

/-- Cutting at a NUL and splitting at slashes cannot make a `..` component. -/
theorem component_ne_dotdot {rest : Bytes} (hdots : ¬ str ".." <:+: rest) :
    ∀ c ∈ (cStr rest).splitOn (ch '/'), c ≠ [ch '.', ch '.'] := by
  rintro c hc rfl
  have hcut : cStr rest <:+: rest := (List.takeWhile_prefix _).isInfix
  exact hdots ((LexicalPath.isInfix_of_mem_splitOn hc).trans hcut)

/-- **Containment in the document root.**  Whatever the URI, if a path is opened
it is the document root and the decoded path cut at the first NUL, and it
resolves to something inside the document root. -/
theorem opened_inside_docRoot (env : Env) (h : HttpReqHandler) (req : HttpRequest)
    (rep : HttpReply) (path : Bytes) (hroot : (0 : Byte) ∉ h.doc_root_)
    (hopen : (handleRequest env h req rep).opened = some path) :
    path = cStr (h.doc_root_ ++ (urlDecode req.uri_).2)
      ∧ resolvePath h.doc_root_ <+: resolvePath path := by
  obtain ⟨request_path, hr, rfl⟩ := route_of_opened hopen
  obtain ⟨hpath, hhead, hdots⟩ := route_eq_file hr
  refine ⟨by rw [hpath], ?_⟩
  obtain ⟨rest, hcons⟩ : ∃ rest, request_path = ch '/' :: rest := by
    cases hp : request_path with
    | nil => rw [hp] at hhead; exact absurd hhead (by simp)
    | cons c rest =>
      rw [hp] at hhead
      exact ⟨rest, by rw [Option.some.inj hhead]⟩
  rw [hcons] at hdots ⊢
  rw [cStr_root_append hroot, resolvePath]
  refine LexicalPath.resolve_isPrefix_append h.doc_root_ (cStr rest) (component_ne_dotdot ?_)
  exact fun hin => hdots (hin.trans (List.suffix_cons _ _).isInfix)

/-- A NUL and a doubled slash hidden in escapes do not lead out of `/www`. -/
theorem opened_inside_docRoot_nul :
    str "/www//." = cStr (str "/www" ++ (urlDecode (str "/%2f.%00/a.gif")).2)
      ∧ resolvePath (str "/www") <+: resolvePath (str "/www//.") :=
  opened_inside_docRoot ⟨fun _ _ => [], fun _ => some []⟩ ⟨str "/www", []⟩
    ⟨str "GET", str "/%2f.%00/a.gif", 1, 0, []⟩ ⟨.ok, [], []⟩ (str "/www//.")
    (by decide) (by decide +kernel)

end Unichannel
