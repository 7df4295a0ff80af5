/-
# While loops whose test has effects

`while (test) body`, where evaluating the test changes the state and its value is a
Boolean: `Ends test body k s s'` says that the loop started in `s` makes `k` passes
through its body and ends in `s'`, the state that the last evaluation of the test
leaves.  A loop that runs forever has no such derivation.  `Ends.of_variant` is the rule
for total correctness, with the exact number of passes.
-/
import Mathlib.Data.Nat.Basic

namespace WhileLoop

variable {σ : Type*}

/-- The loop ends after `k` passes. -/
inductive Ends (test : σ → Bool × σ) (body : σ → σ) : ℕ → σ → σ → Prop
  | done {s : σ} (h : (test s).1 = false) : Ends test body 0 s (test s).2
  | pass {s s' : σ} {k : ℕ} (h : (test s).1 = true)
      (hrest : Ends test body k (body (test s).2) s') : Ends test body (k + 1) s s'

variable {test : σ → Bool × σ} {body : σ → σ} {s : σ}

namespace Ends

/-- **The while rule.**  `I` is kept by every pass, each pass takes one off `μ`, and
where the test fails `μ` is used up and `Q` holds of what the test leaves.  Then the loop
ends in `Q`, after `μ` passes. -/
theorem of_variant {I Q : σ → Prop} {μ : σ → ℕ}
    (hpass : ∀ s, I s → (test s).1 = true →
      I (body (test s).2) ∧ μ s = μ (body (test s).2) + 1)
    (hdone : ∀ s, I s → (test s).1 = false → μ s = 0 ∧ Q (test s).2) (hI : I s) :
    ∃ s', Ends test body (μ s) s s' ∧ Q s' := by
  -- the invariant carries the induction on the passes that are left
  induction hn : μ s generalizing s with
  | zero =>
    have hfalse : (test s).1 = false := by
      by_contra htrue
      have hdec := (hpass s hI (eq_true_of_ne_false htrue)).2
      omega
    exact ⟨(test s).2, done hfalse, (hdone s hI hfalse).2⟩
  | succ n ih =>
    have htrue : (test s).1 = true := by
      by_contra hfalse
      have hzero := (hdone s hI (eq_false_of_ne_true hfalse)).1
      omega
    obtain ⟨hI', hdec⟩ := hpass s hI htrue
    obtain ⟨s', hrest, hQ⟩ := ih hI' (by omega)
    exact ⟨s', pass htrue hrest, hQ⟩

end Ends

end WhileLoop
