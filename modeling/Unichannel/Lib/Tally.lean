/-
# Sums over the components of a state

A state often holds a list of components, each of which contributes to a total: a
count, or a multiset of things held.  Changing one component changes the total by
what it changes for this component, and changes that keep every contribution keep
the total.
-/
import Mathlib.Algebra.BigOperators.Group.List.Basic

namespace Tally

variable {α M : Type*} [AddCommMonoid M] (f : α → M)

/-- The sum of the contributions. -/
def total (l : List α) : M := (l.map f).sum

@[simp] theorem total_nil : total f [] = 0 := rfl

@[simp] theorem total_cons (a : α) (l : List α) : total f (a :: l) = f a + total f l := rfl

@[simp] theorem total_append (l l' : List α) : total f (l ++ l') = total f l + total f l' := by
  rw [total, List.map_append, List.sum_append, total, total]

/-- Elements that count nothing count nothing together. -/
theorem total_eq_zero {l : List α} (h : ∀ a ∈ l, f a = 0) : total f l = 0 := by
  induction l with
  | nil => rfl
  | cons a l ih =>
    rw [total_cons, h a List.mem_cons_self, ih fun b hb => h b (List.mem_cons_of_mem a hb),
      add_zero]

/-- Replacing a component. -/
theorem total_set {l : List α} {i : ℕ} {a : α} (b : α) (h : l[i]? = some a) :
    total f (l.set i b) + f a = total f l + f b := by
  induction l generalizing i with
  | nil => cases h
  | cons x l ih =>
    cases i with
    | zero =>
      cases h
      rw [List.set_cons_zero, total_cons, total_cons]
      rw [add_comm (f b), add_comm (f a), add_right_comm]
    | succ i =>
      have hrest := ih (i := i) h
      rw [List.set_cons_succ, total_cons, total_cons, add_assoc, hrest, add_assoc]

/-- A replacement that contributes the same keeps the total. -/
theorem total_set_of_eq {l : List α} {i : ℕ} {a b : α} (h : l[i]? = some a) (hf : f b = f a) :
    total f (l.set i b) = total f l := by
  have hmap : (l.set i b).map f = l.map f := by
    apply List.ext_getElem?
    intro j
    rw [List.getElem?_map, List.getElem?_map]
    by_cases hij : i = j
    · subst hij
      rw [List.getElem?_set_self (List.getElem?_eq_some_iff.mp h).1, h, Option.map_some,
        Option.map_some, hf]
    · rw [List.getElem?_set_ne hij]
  rw [total, hmap, total]

/-- Removing a component. -/
theorem total_eraseIdx {l : List α} {i : ℕ} {a : α} (h : l[i]? = some a) :
    total f (l.eraseIdx i) + f a = total f l := by
  induction l generalizing i with
  | nil => cases h
  | cons x l ih =>
    cases i with
    | zero =>
      cases h
      rw [List.eraseIdx_cons_zero, total_cons, add_comm]
    | succ i =>
      have hrest := ih (i := i) h
      rw [List.eraseIdx_cons_succ, total_cons, total_cons, add_assoc, hrest]

/-- A change that does not count leaves the total. -/
theorem total_modify_of_eq {g : α → α} (hg : ∀ a, f (g a) = f a) (l : List α) (i : ℕ) :
    total f (l.modify i g) = total f l := by
  have hmap : (l.modify i g).map f = l.map f := by
    apply List.ext_getElem?
    intro j
    rw [List.getElem?_map, List.getElem?_map, List.getElem?_modify]
    rcases l[j]? with _ | a
    · rfl
    · by_cases hij : i = j <;> simp [hij, hg]
  rw [total, hmap, total]

/-- Changes of all elements that do not count leave the total. -/
theorem total_mapIdx_of_eq {g : ℕ → α → α} (hg : ∀ i a, f (g i a) = f a) (l : List α) :
    total f (l.mapIdx g) = total f l := by
  have hmap : (l.mapIdx g).map f = l.map f := by
    apply List.ext_getElem?
    intro j
    rw [List.getElem?_map, List.getElem?_map, List.getElem?_mapIdx]
    rcases l[j]? with _ | a
    · rfl
    · simp [hg]
  rw [total, hmap, total]

/-- A natural number that is added to a total is at most the total. -/
theorem le_total_of_mem {f : α → ℕ} {l : List α} {a : α} (h : a ∈ l) : f a ≤ total f l := by
  induction l with
  | nil => cases h
  | cons b l ih =>
    rw [total_cons]
    rcases List.mem_cons.mp h with rfl | h
    · omega
    · have hle := ih h
      omega

/-! ## Counting -/

/-- Counting is a tally. -/
theorem total_indicator (p : α → Bool) (l : List α) :
    total (fun a => if p a then 1 else 0) l = l.countP p := by
  induction l with
  | nil => rfl
  | cons a l ih =>
    rw [total_cons, ih, List.countP_cons]
    omega

/-- Replacing a component changes the count by what it changes for this component. -/
theorem countP_set {l : List α} {i : ℕ} {a : α} (p : α → Bool) (b : α) (h : l[i]? = some a) :
    (l.set i b).countP p + (if p a then 1 else 0) = l.countP p + if p b then 1 else 0 := by
  rw [← total_indicator, ← total_indicator]
  exact total_set _ b h

/-- If at most one component counts, two places that count are one. -/
theorem eq_of_countP_le_one {p : α → Bool} {l : List α} (hle : l.countP p ≤ 1) {i j : ℕ} {a b : α}
    (hi : l[i]? = some a) (ha : p a = true) (hj : l[j]? = some b) (hb : p b = true) : i = j := by
  induction l generalizing i j with
  | nil => cases hi
  | cons x l ih =>
    rw [List.countP_cons] at hle
    -- behind a head that counts nothing does
    have hhead : p x = true → ∀ c ∈ l, ¬ p c = true := by
      intro hx
      rw [if_pos hx] at hle
      exact List.countP_eq_zero.mp (by omega)
    cases i with
    | zero =>
      cases hi
      cases j with
      | zero => rfl
      | succ j => exact absurd hb (hhead ha b (List.mem_of_getElem? (i := j) hj))
    | succ i =>
      cases j with
      | zero =>
        cases hj
        exact absurd ha (hhead hb a (List.mem_of_getElem? (i := i) hi))
      | succ j => exact congrArg Nat.succ (ih (by omega) hi hj)

end Tally
