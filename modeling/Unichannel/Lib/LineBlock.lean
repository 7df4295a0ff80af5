/-
# Blocks of lines and the first blank line

A block is a list of lines, each closed by `cr lf`, then an empty line, then a
body.  When the lines are nonempty and hold no `cr`, the first place where
`cr lf cr lf` occurs is the end of the last line, whatever the body holds: a
reader that looks for it finds the body.
-/
import Mathlib.Data.List.Basic

namespace LineBlock

variable {α : Type*}

/-- `pre` ends where `pat` occurs in `s` for the first time. -/
def FirstAt (pat pre s : List α) : Prop :=
  (∃ post, s = pre ++ pat ++ post)
    ∧ ∀ pre' post, s = pre' ++ pat ++ post → pre.length ≤ pre'.length

/-- The text in front of the first occurrence, and the text behind it, are
determined. -/
theorem FirstAt.unique {pat pre₁ pre₂ s : List α} (h₁ : FirstAt pat pre₁ s)
    (h₂ : FirstAt pat pre₂ s) : pre₁ = pre₂ := by
  obtain ⟨⟨post₁, heq₁⟩, hmin₁⟩ := h₁
  obtain ⟨⟨post₂, heq₂⟩, hmin₂⟩ := h₂
  have hlen : pre₁.length = pre₂.length :=
    Nat.le_antisymm (hmin₁ pre₂ post₂ heq₂) (hmin₂ pre₁ post₁ heq₁)
  rw [heq₁, List.append_assoc, List.append_assoc] at heq₂
  exact (List.append_inj heq₂ hlen).1

section Block

variable (cr lf : α)

/-- A line with its end. -/
def line (l : List α) : List α := l ++ [cr, lf]

/-- The blank line: the end of the last line and the end of the empty line. -/
def blank : List α := [cr, lf, cr, lf]

variable {cr lf}

/-- An occurrence of the blank line in a text that starts with a line is either
the end of this line, or it lies behind the line. -/
theorem occurrence_cases {l rest pre post : List α} (hne : cr ≠ lf) (hl : cr ∉ l)
    (h : line cr lf l ++ rest = pre ++ blank cr lf ++ post) :
    (pre = l ∧ rest = [cr, lf] ++ post)
      ∨ ∃ pre', pre = line cr lf l ++ pre' ∧ rest = pre' ++ blank cr lf ++ post := by
  rw [line, List.append_assoc, List.append_assoc] at h
  rcases List.append_eq_append_iff.mp h with ⟨a, rfl, ha⟩ | ⟨c, rfl, hc⟩
  · -- the occurrence starts behind `l`, at its end or one symbol later or behind the line
    match a, ha with
    | [], ha => exact Or.inl ⟨List.append_nil l, by simpa [blank] using ha⟩
    | [x], ha =>
      simp only [blank, List.cons_append, List.nil_append, List.cons.injEq] at ha
      exact absurd ha.2.1.symm hne
    | x :: y :: a, ha =>
      simp only [List.cons_append, List.nil_append, List.cons.injEq] at ha
      obtain ⟨rfl, rfl, hrest⟩ := ha
      exact Or.inr ⟨a, by simp [line], by rw [hrest, List.append_assoc]⟩
  · -- it starts inside `l`, which has no `cr`
    cases c with
    | nil => exact Or.inl ⟨(List.append_nil pre).symm, by simpa [blank] using hc.symm⟩
    | cons x c =>
      have hx : x = cr := (List.cons.inj hc).1.symm
      exact absurd (by simp [hx]) hl

/-- A nonempty line without `cr` does not start with `cr`. -/
theorem line_append_ne {l : List α} (hl : cr ∉ l) (hnil : l ≠ []) (rest t : List α) :
    line cr lf l ++ rest ≠ cr :: t := by
  intro h
  obtain ⟨x, l, rfl⟩ := List.exists_cons_of_ne_nil hnil
  have hx : x = cr := (List.cons.inj h).1
  exact hl (by simp [hx])

/-- In front of the end of the last line there is no blank line. -/
theorem length_le_of_occurrence (hne : cr ≠ lf) (lines : List (List α)) (last body : List α)
    (hlines : ∀ l ∈ lines ++ [last], cr ∉ l) (hnonempty : ∀ l ∈ lines ++ [last], l ≠ [])
    (pre post : List α)
    (h : lines.flatMap (line cr lf) ++ (line cr lf last ++ ([cr, lf] ++ body))
      = pre ++ blank cr lf ++ post) :
    (lines.flatMap (line cr lf) ++ last).length ≤ pre.length := by
  induction lines generalizing pre with
  | nil =>
    rcases occurrence_cases hne (hlines last (by simp)) h with ⟨rfl, -⟩ | ⟨pre', rfl, -⟩
    · simp
    · simp [line]
  | cons l lines ih =>
    have hlines' : ∀ k ∈ lines ++ [last], cr ∉ k := fun k hk =>
      hlines k (List.mem_cons_of_mem l hk)
    have hnonempty' : ∀ k ∈ lines ++ [last], k ≠ [] := fun k hk =>
      hnonempty k (List.mem_cons_of_mem l hk)
    rw [List.flatMap_cons, List.append_assoc] at h
    rcases occurrence_cases hne (hlines l (by simp)) h with ⟨-, hrest⟩ | ⟨pre', rfl, hrest⟩
    · -- the line after `l` would have to start with `cr`
      exfalso
      cases lines with
      | nil => exact line_append_ne (hlines' last (by simp)) (hnonempty' last (by simp)) _ _ hrest
      | cons m lines =>
        rw [List.flatMap_cons, List.append_assoc] at hrest
        exact line_append_ne (hlines' m (by simp)) (hnonempty' m (by simp)) _ _ hrest
    · have hle := ih hlines' hnonempty' pre' hrest
      simp only [List.flatMap_cons, List.length_append] at hle ⊢
      omega

/-- **The first blank line** of a block is the one in front of the body. -/
theorem firstAt_blank (hne : cr ≠ lf) (lines : List (List α)) (last body : List α)
    (hlines : ∀ l ∈ lines ++ [last], cr ∉ l) (hnonempty : ∀ l ∈ lines ++ [last], l ≠ []) :
    FirstAt (blank cr lf) (lines.flatMap (line cr lf) ++ last)
      (lines.flatMap (line cr lf) ++ (line cr lf last ++ ([cr, lf] ++ body))) := by
  refine ⟨⟨body, by simp [line, blank]⟩, fun pre' post h => ?_⟩
  exact length_le_of_occurrence hne lines last body hlines hnonempty pre' post h

end Block

end LineBlock
