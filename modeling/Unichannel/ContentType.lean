/-
# The Content-Type of a file

`handle_request` takes the extension of a file from the decoded path, by two reverse
searches, and opens the file through `full_path.c_str()`.  Both are the extension of
the last component (`fileExtension_eq`), the one of the whole `std::string` and the
other of what is in front of its first NUL.  A NUL can be had from `%00`, so the reply
to `/a.gif%00.html` is the file `a.gif`, sent as `text/html`.
-/
import Unichannel.DocRoot
import Unichannel.ReplyFraming

namespace Unichannel

/-! ## Extensions -/

/-- The extension of the final component of a path: the bytes after its last `.`, none
when it has no `.`. -/
def componentExtension (path : Bytes) : Bytes := LexicalPath.extension (ch '/') (ch '.') path

/-- The `Content-Type` of a reply. -/
def HttpReply.contentType (rep : HttpReply) : Option Bytes :=
  (rep.headers_.find? fun h => h.name = str "Content-Type").map (·.value)

/-- The last occurrence is found. -/
theorem findLastOf_append_cons {c : Byte} {post : Bytes} (h : c ∉ post) (pre : Bytes) :
    findLastOf c (pre ++ c :: post) = some pre.length := by
  have hnone : post.reverse.findIdx? (fun b => decide (b = c)) = none := by
    rw [List.findIdx?_eq_none_iff]
    intro b hb
    rw [decide_eq_false_iff_not]
    rintro rfl
    exact h (List.mem_reverse.mp hb)
  have hsome : (c :: pre.reverse).findIdx? (fun b => decide (b = c)) = some 0 := by
    rw [List.findIdx?_cons, if_pos (decide_eq_true rfl)]
  have hrev : (pre ++ c :: post).reverse = post.reverse ++ c :: pre.reverse := by simp
  rw [findLastOf, hrev, List.findIdx?_append, hnone, hsome, Option.none_or, Option.map_some,
    Option.map_some, Option.some_inj]
  simp only [List.length_append, List.length_cons, List.length_reverse]
  omega

theorem findLastOf_of_not_mem {c : Byte} {s : Bytes} (h : c ∉ s) : findLastOf c s = none := by
  rw [findLastOf, Option.map_eq_none_iff, List.findIdx?_eq_none_iff]
  intro b hb
  rw [decide_eq_false_iff_not]
  rintro rfl
  exact h (List.mem_reverse.mp hb)

/-- **The two searches find the extension of the last component** of an absolute
path. -/
theorem fileExtension_eq {request_path : Bytes} (h : ch '/' ∈ request_path) :
    fileExtension request_path = componentExtension request_path := by
  obtain ⟨pre, comp, rfl, hcomp⟩ := LexicalPath.exists_last_of_mem h
  have hslash := findLastOf_append_cons hcomp pre
  rw [componentExtension, LexicalPath.extension_sep_cons hcomp]
  by_cases hdot : ch '.' ∈ comp
  · obtain ⟨a, ext, rfl, hext⟩ := LexicalPath.exists_last_of_mem hdot
    have hassoc :
        pre ++ ch '/' :: (a ++ ch '.' :: ext) = (pre ++ ch '/' :: a) ++ ch '.' :: ext := by
      simp
    have hlast := findLastOf_append_cons hext (pre ++ ch '/' :: a)
    have hsep : ch '/' ∉ ext := fun hmem => hcomp (by simp [hmem])
    rw [LexicalPath.extension_dot_cons hsep hext (by decide)]
    rw [← hassoc] at hlast
    simp only [fileExtension, hslash, hlast]
    have hbehind : pre.length < (pre ++ ch '/' :: a).length := by simp
    rw [if_pos hbehind, hassoc, List.append_cons (pre ++ ch '/' :: a)]
    exact List.drop_left' (List.length_append ..)
  · rw [LexicalPath.extension_of_dot_not_mem hdot]
    by_cases hpre : ch '.' ∈ pre
    · -- a `.` in an earlier component is in front of the last slash
      obtain ⟨a, b, rfl, hb⟩ := LexicalPath.exists_last_of_mem hpre
      have hassoc :
          (a ++ ch '.' :: b) ++ ch '/' :: comp = a ++ ch '.' :: (b ++ ch '/' :: comp) := by
        simp
      have hrest : ch '.' ∉ b ++ ch '/' :: comp := by
        simp only [List.mem_append, List.mem_cons, not_or]
        exact ⟨hb, by decide, hdot⟩
      have hlast := findLastOf_append_cons hrest a
      rw [← hassoc] at hlast
      simp only [fileExtension, hslash, hlast]
      have hfront : ¬ (a ++ ch '.' :: b).length < a.length := by simp
      exact if_neg hfront
    · have hnone : findLastOf (ch '.') (pre ++ ch '/' :: comp) = none := by
        apply findLastOf_of_not_mem
        simp only [List.mem_append, List.mem_cons, not_or]
        exact ⟨hpre, by decide, hdot⟩
      simp only [fileExtension, hnone]

/-! ## What a NUL does -/

/-- No extension in `mimemaps` holds a NUL. -/
theorem extensionToType_of_nul {extension : Bytes} (h : (0 : Byte) ∈ extension) :
    extensionToType extension = extensionToType [] := by
  have hmap : ∀ m ∈ mimemaps, (0 : Byte) ∉ m.1 := by decide
  have hnone : mimemaps.find? (fun m => m.1 = extension) = none := by
    rw [List.find?_eq_none]
    intro m hm heq
    rw [decide_eq_true_iff] at heq
    exact hmap m hm (heq ▸ h)
  rw [extensionToType, hnone]
  rfl

/-- So of a string with a NUL only what is behind it matters for the type. -/
theorem extensionToType_behind_nul (pre post : Bytes) :
    extensionToType (componentExtension (pre ++ 0 :: post))
      = extensionToType (componentExtension post) := by
  have hsep : (0 : Byte) ≠ ch '/' := by decide
  have hdot : (0 : Byte) ≠ ch '.' := by decide
  rcases LexicalPath.extension_append_cons hsep hdot pre post with heq | ⟨hpost, hnil | hnul⟩
  · rw [componentExtension, heq]
    rfl
  · rw [componentExtension, componentExtension, hnil, hpost]
  · rw [componentExtension, componentExtension, hpost, extensionToType_of_nul hnul]

/-- In front of the first NUL and behind it stand extensions of the same type. -/
def SameTypeAtCut (full_path : Bytes) : Prop :=
  ∀ pre post, full_path = pre ++ 0 :: post → (0 : Byte) ∉ pre →
    extensionToType (componentExtension pre) = extensionToType (componentExtension post)

/-- A C string ends in front of the first NUL. -/
theorem cStr_append_nul {pre : Bytes} (h : (0 : Byte) ∉ pre) (post : Bytes) :
    cStr (pre ++ 0 :: post) = pre := by
  rw [cStr_append_of_not_mem h, cStr, List.takeWhile_cons_of_neg (by decide), List.append_nil]

/-- The string and the C string have the same type exactly in this case. -/
theorem extensionToType_cStr_iff (full_path : Bytes) :
    extensionToType (componentExtension full_path)
        = extensionToType (componentExtension (cStr full_path))
      ↔ SameTypeAtCut full_path := by
  by_cases hnul : (0 : Byte) ∈ full_path
  · obtain ⟨pre, post, rfl, hpre⟩ := List.eq_append_cons_of_mem hnul
    rw [extensionToType_behind_nul, cStr_append_nul hpre]
    constructor
    · intro heq pre' post' hsplit hpre'
      -- the first NUL is where it is
      have hcut : pre = pre' := by
        rw [← cStr_append_nul hpre post, hsplit, cStr_append_nul hpre' post']
      subst hcut
      have htail := List.append_cancel_left hsplit
      rw [← List.cons_injective htail]
      exact heq.symm
    · intro hsame
      exact (hsame pre post rfl hpre).symm
  · rw [cStr_of_not_mem hnul]
    refine iff_of_true rfl fun pre post hsplit => ?_
    rw [hsplit] at hnul
    exact absurd (List.mem_append_right _ List.mem_cons_self) hnul

/-! ## The reply -/

/-- The second header is the type of the extension. -/
theorem contentType_setHeaders (rep : HttpReply) (extension : Bytes) :
    (setHeaders rep extension).contentType = some (extensionToType extension) := by
  rw [HttpReply.contentType, setHeaders_headers]
  rfl

/-- The type of a reply that comes from a file. -/
theorem contentType_of_opened {env : Env} {h : HttpReqHandler} {req : HttpRequest}
    {rep : HttpReply} {path file : Bytes}
    (hopen : (handleRequest env h req rep).opened = some path)
    (hfile : env.openFile path = some file) :
    path = cStr (h.doc_root_ ++ (urlDecode req.uri_).2)
      ∧ (handleRequest env h req rep).rep.contentType
        = some (extensionToType (componentExtension (h.doc_root_ ++ (urlDecode req.uri_).2))) := by
  obtain ⟨request_path, hr, rfl⟩ := route_of_opened hopen
  obtain ⟨rfl, hhead, -⟩ := route_eq_file hr
  have hslash : ch '/' ∈ (urlDecode req.uri_).2 := List.mem_of_mem_head? hhead
  refine ⟨rfl, ?_⟩
  rw [handleRequest_eq, hr]
  simp only [hfile]
  rw [contentType_setHeaders, fileExtension_eq hslash]
  -- the document root stands in front of the last slash
  obtain ⟨pre, comp, hpath, hcomp⟩ := LexicalPath.exists_last_of_mem hslash
  rw [hpath, ← List.append_assoc, componentExtension, componentExtension,
    LexicalPath.extension_sep_cons hcomp, LexicalPath.extension_sep_cons hcomp]

/-- **The Content-Type of a file.**  Whenever a reply comes from a file, its type is that
of the extension of the path opened exactly if the decoded path has the same type in
front of its first NUL and behind it. -/
theorem contentType_iff (env : Env) (h : HttpReqHandler) (req : HttpRequest) (rep : HttpReply)
    (path file : Bytes) (hopen : (handleRequest env h req rep).opened = some path)
    (hfile : env.openFile path = some file) :
    (handleRequest env h req rep).rep.contentType
        = some (extensionToType (componentExtension path))
      ↔ SameTypeAtCut (h.doc_root_ ++ (urlDecode req.uri_).2) := by
  obtain ⟨rfl, htype⟩ := contentType_of_opened hopen hfile
  rw [htype, Option.some_inj, extensionToType_cStr_iff]

/-- A file system in which every path opens as an empty file. -/
def emptyFiles : Env := ⟨fun _ _ => [], fun _ => some []⟩

/-- Without a NUL the type is that of the file. -/
theorem contentType_iff_example :
    (handleRequest emptyFiles ⟨str "/www", []⟩ ⟨str "GET", str "/a.b/c%2egif", 1, 0, []⟩
      ⟨.ok, [], []⟩).rep.contentType
        = some (extensionToType (componentExtension (str "/www/a.b/c.gif"))) := by
  refine (contentType_iff emptyFiles ⟨str "/www", []⟩ ⟨str "GET", str "/a.b/c%2egif", 1, 0, []⟩
    ⟨.ok, [], []⟩ (str "/www/a.b/c.gif") [] (by decide +kernel) rfl).mpr ?_
  intro pre post hsplit
  have hmem : (0 : Byte) ∈ str "/www" ++ (urlDecode (str "/a.b/c%2egif")).2 := by
    rw [show str "/www" ++ (urlDecode (str "/a.b/c%2egif")).2 = _ from hsplit]
    exact List.mem_append_right _ List.mem_cons_self
  exact absurd hmem (by decide +kernel)

/-- The file opened is `/www/a.gif`, the type that of `html`. -/
theorem not_contentType_of_opened :
    ¬ ∀ (env : Env) (h : HttpReqHandler) (req : HttpRequest) (rep : HttpReply)
      (path file : Bytes), (handleRequest env h req rep).opened = some path →
      env.openFile path = some file →
      (handleRequest env h req rep).rep.contentType
        = some (extensionToType (componentExtension path)) := by
  intro h
  have htype := h emptyFiles ⟨str "/www", []⟩ ⟨str "GET", str "/a.gif%00.html", 1, 0, []⟩
    ⟨.ok, [], []⟩ (str "/www/a.gif") [] (by decide +kernel) rfl
  have hsent : (handleRequest emptyFiles ⟨str "/www", []⟩
      ⟨str "GET", str "/a.gif%00.html", 1, 0, []⟩ ⟨.ok, [], []⟩).rep.contentType
        = some (str "text/html") := by decide +kernel
  rw [hsent] at htype
  exact absurd htype (by decide +kernel)

end Unichannel
