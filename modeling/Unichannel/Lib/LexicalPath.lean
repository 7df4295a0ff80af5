/-
# Lexical resolution of paths

A path is a list of symbols cut into components at every separator.  `resolve`
drops empty components and the component `dot`, and lets the component
`dot dot` remove the component before it, without looking at any file system.

`resolve_isPrefix_append` is the containment fact: appending a separator and a
rest without a `dot dot` component never leaves the directory.

`mem_intercalate` and `getLast?_intercalate` say what stands in a path that was joined
from components, and at its end.

`extension` is the extension of the last component, what follows its last `dot`;
`extension_append_cons` says how it changes when something else is put in front.
-/
import Mathlib.Data.List.DropRight

namespace LexicalPath

variable {α : Type*} [DecidableEq α]

section Resolve

variable (sep dot : α)

/-- One component applied to the components resolved so far. -/
def enter (acc : List (List α)) (c : List α) : List (List α) :=
  if c = [] ∨ c = [dot] then acc
  else if c = [dot, dot] then acc.dropLast
  else acc ++ [c]

/-- The lexical resolution of a path. -/
def resolve (p : List α) : List (List α) := (p.splitOn sep).foldl (enter dot) []

variable {sep dot}

/-- A component other than `dot dot` only adds to the path. -/
theorem isPrefix_enter {acc : List (List α)} {c : List α} (hc : c ≠ [dot, dot]) :
    acc <+: enter dot acc c := by
  unfold enter
  split_ifs
  · exact List.prefix_rfl
  · exact List.prefix_append acc [c]

/-- Without `..`, no component is left again. -/
theorem isPrefix_foldl_enter (acc : List (List α)) (cs : List (List α))
    (hcs : ∀ c ∈ cs, c ≠ [dot, dot]) : acc <+: cs.foldl (enter dot) acc := by
  induction cs generalizing acc with
  | nil => exact List.prefix_rfl
  | cons c cs ih =>
    have hstep : acc <+: enter dot acc c := isPrefix_enter (hcs c List.mem_cons_self)
    have hrest := ih (enter dot acc c) (fun d hd => hcs d (List.mem_cons_of_mem c hd))
    exact hstep.trans hrest

/-- **Containment.**  Below a directory, a path without `dot dot` components
resolves to something inside the directory. -/
theorem resolve_isPrefix_append (root rest : List α)
    (hrest : ∀ c ∈ rest.splitOn sep, c ≠ [dot, dot]) :
    resolve sep dot root <+: resolve sep dot (root ++ sep :: rest) := by
  rw [resolve, resolve, List.splitOn_append_cons_self, List.foldl_append]
  exact isPrefix_foldl_enter _ _ hrest

end Resolve

/-- A component is a stretch of the path. -/
theorem isInfix_of_mem_splitOn {sep : α} {p c : List α} (h : c ∈ p.splitOn sep) : c <:+: p := by
  by_cases hsep : sep ∈ p
  · obtain ⟨first, rest, hp, hnot⟩ := List.eq_append_cons_of_mem hsep
    rw [hp, List.splitOn_append_cons_self_of_not_mem hnot] at h
    rcases List.mem_cons.mp h with rfl | hc
    · exact ⟨[], sep :: rest, by rw [hp, List.nil_append]⟩
    · have hlen : rest.length < p.length := by
        rw [hp, List.length_append, List.length_cons]
        omega
      have hinfix := isInfix_of_mem_splitOn hc
      rw [hp]
      exact hinfix.trans ⟨first ++ [sep], [], by simp⟩
  · rw [List.splitOn_eq_singleton hsep, List.mem_singleton] at h
    exact h ▸ List.infix_refl c
termination_by p.length

/-! ## Joined components -/

section Join

omit [DecidableEq α]

variable {sep : α}

/-- What is in a joined list is a separator or in one of the parts. -/
theorem mem_intercalate {cs : List (List α)} {x : α} (h : x ∈ [sep].intercalate cs) :
    x = sep ∨ ∃ c ∈ cs, x ∈ c := by
  induction cs with
  | nil => cases h
  | cons c cs ih =>
    cases cs with
    | nil =>
      rw [List.intercalate_singleton] at h
      exact Or.inr ⟨c, List.mem_cons_self, h⟩
    | cons d cs =>
      rw [List.intercalate_cons_cons, List.mem_append, List.mem_append, List.mem_singleton] at h
      rcases h with (hc | hsep) | hrest
      · exact Or.inr ⟨c, List.mem_cons_self, hc⟩
      · exact Or.inl hsep
      · rcases ih hrest with hsep | ⟨e, he, hx⟩
        · exact Or.inl hsep
        · exact Or.inr ⟨e, List.mem_cons_of_mem c he, hx⟩

/-- Components that are not empty and have no separator in them, joined, do not end in a
separator. -/
theorem getLast?_intercalate {cs : List (List α)} (hne : cs ≠ [])
    (hcs : ∀ c ∈ cs, c ≠ [] ∧ sep ∉ c) :
    ∃ x, x ≠ sep ∧ ([sep].intercalate cs).getLast? = some x := by
  induction cs with
  | nil => exact absurd rfl hne
  | cons c cs ih =>
    cases cs with
    | nil =>
      obtain ⟨hc, hsep⟩ := hcs c List.mem_cons_self
      rw [List.intercalate_singleton]
      refine ⟨c.getLast hc, ?_, List.getLast?_eq_some_getLast hc⟩
      intro hlast
      exact hsep (hlast ▸ List.getLast_mem hc)
    | cons d cs =>
      obtain ⟨x, hx, hlast⟩ :=
        ih (List.cons_ne_nil d cs) (fun e he => hcs e (List.mem_cons_of_mem c he))
      refine ⟨x, hx, ?_⟩
      rw [List.intercalate_cons_cons, List.getLast?_append, hlast]
      rfl

end Join

/-! ## Extensions -/

section Extension

/-- What follows the last `c`, or everything if there is none. -/
def afterLast (c : α) (p : List α) : List α := p.rtakeWhile (· ≠ c)

theorem afterLast_append_of_not_mem {c : α} {post : List α} (h : c ∉ post) (pre : List α) :
    afterLast c (pre ++ post) = afterLast c pre ++ post := by
  have hall : ∀ x ∈ post.reverse, decide (x ≠ c) = true := by
    intro x hx
    rw [decide_eq_true_iff]
    rintro rfl
    exact h (List.mem_reverse.mp hx)
  rw [afterLast, List.rtakeWhile, List.reverse_append, List.takeWhile_append_of_pos hall,
    List.reverse_append, List.reverse_reverse]
  rfl

/-- Without a separator there is one component. -/
theorem afterLast_of_not_mem {c : α} {p : List α} (h : c ∉ p) : afterLast c p = p := by
  have happ := afterLast_append_of_not_mem h []
  rwa [List.nil_append] at happ

/-- Behind the last separator the last component begins. -/
theorem afterLast_append_cons {c : α} {post : List α} (h : c ∉ post) (pre : List α) :
    afterLast c (pre ++ c :: post) = post := by
  have hlast : afterLast c (pre ++ [c]) = [] := List.rtakeWhile_concat_neg _ _ _ (by simp)
  rw [List.append_cons, afterLast_append_of_not_mem h, hlast, List.nil_append]

omit [DecidableEq α] in
/-- If there is a separator, there is a last one. -/
theorem exists_last_of_mem {c : α} {p : List α} (h : c ∈ p) :
    ∃ pre post, p = pre ++ c :: post ∧ c ∉ post := by
  obtain ⟨post, pre, hp, hnot⟩ := List.eq_append_cons_of_mem (List.mem_reverse.mpr h)
  refine ⟨pre.reverse, post.reverse, ?_, fun hmem => hnot (List.mem_reverse.mp hmem)⟩
  have hrev := congrArg List.reverse hp
  simpa using hrev

variable (sep dot : α)

/-- The extension of the last component of a path, empty if this has no `dot`. -/
def extension (p : List α) : List α :=
  if dot ∈ afterLast sep p then afterLast dot (afterLast sep p) else []

variable {sep dot}

/-- Only the last component counts. -/
theorem extension_sep_cons {comp : List α} (hsep : sep ∉ comp) (pre : List α) :
    extension sep dot (pre ++ sep :: comp) = extension sep dot comp := by
  rw [extension, extension, afterLast_append_cons hsep, afterLast_of_not_mem hsep]

/-- Only what follows the last `dot` counts. -/
theorem extension_dot_cons {ext : List α} (hsep : sep ∉ ext) (hdot : dot ∉ ext) (hne : dot ≠ sep)
    (pre : List α) : extension sep dot (pre ++ dot :: ext) = ext := by
  have hsep' : sep ∉ dot :: ext := by
    rw [List.mem_cons, not_or]
    exact ⟨hne.symm, hsep⟩
  rw [extension, afterLast_append_of_not_mem hsep', if_pos (by simp), afterLast_append_cons hdot]

/-- Without a dot there is no extension. -/
theorem extension_of_dot_not_mem {p : List α} (h : dot ∉ p) : extension sep dot p = [] := by
  rw [extension, if_neg]
  exact fun hmem => h ((List.rtakeWhile_suffix _ p).subset hmem)

/-- Something put in front leaves the extension, or there was none and then either there
is none or the joint is part of it. -/
theorem extension_append_cons {x : α} (hsep : x ≠ sep) (hdot : x ≠ dot) (pre post : List α) :
    extension sep dot (pre ++ x :: post) = extension sep dot post
      ∨ (extension sep dot post = []
        ∧ (extension sep dot (pre ++ x :: post) = []
          ∨ x ∈ extension sep dot (pre ++ x :: post))) := by
  by_cases hpost : sep ∈ post
  · -- the last component is behind the joint
    obtain ⟨a, comp, rfl, hcomp⟩ := exists_last_of_mem hpost
    left
    have hassoc : pre ++ x :: (a ++ sep :: comp) = (pre ++ x :: a) ++ sep :: comp := by simp
    rw [hassoc, extension_sep_cons hcomp, extension_sep_cons hcomp]
  · have hxpost : sep ∉ x :: post := by
      rw [List.mem_cons, not_or]
      exact ⟨hsep.symm, hpost⟩
    rw [extension, extension, afterLast_append_of_not_mem hxpost, afterLast_of_not_mem hpost]
    by_cases hmem : dot ∈ post
    · obtain ⟨a, ext, rfl, hext⟩ := exists_last_of_mem hmem
      left
      have hassoc : afterLast sep pre ++ x :: (a ++ dot :: ext)
          = (afterLast sep pre ++ x :: a) ++ dot :: ext := by simp
      rw [hassoc, if_pos (by simp), if_pos (by simp), afterLast_append_cons hext,
        afterLast_append_cons hext]
    · right
      refine ⟨if_neg hmem, ?_⟩
      split_ifs with hpre
      · -- the last `dot` is in front of the joint
        have hxmem : dot ∉ x :: post := by
          rw [List.mem_cons, not_or]
          exact ⟨hdot.symm, hmem⟩
        right
        rw [afterLast_append_of_not_mem hxmem]
        exact List.mem_append_right _ List.mem_cons_self
      · exact Or.inl rfl

end Extension

end LexicalPath
