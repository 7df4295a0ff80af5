/-
# Guarded transition systems

A system is an executable step function: `step s a` is `some s'` when the event
`a` is enabled in `s` and leads to `s'`, and `none` when it is not enabled.
`Runs step P s as s'` are the runs from `s` to `s'` all of whose steps meet the
condition `P`, which is where assumptions about the environment go.

* `Runs.invariant`: what every step preserves holds at the end of a run;
* `Runs.trace`: what relates the state to the events so far;
* `Runs.simulate`: a system that answers every step runs along;
* `Runs.project`, `Runs.part`: when each step shows in a view of the state as a step
  of a smaller system, or not at all, the view runs in the smaller system;
* `Runs.show_run`: when it is told which step each one shows as, the view runs by these;
* `Runs.countP_add_le`: the steps that decrease a measure which no step
  increases are bounded by it;
* `Runs.amortized`: what the steps of a run cost is bounded by a potential at its
  start and what its steps bring in;
* `exists_rest`: steps that decrease a measure lead to a state where none is left;
* `runs_of_run`, `run_of_runs`: the runs are what `run` replays.
-/
import Mathlib.Algebra.Order.Monoid.Unbundled.Basic
import Mathlib.Data.List.Basic
import Mathlib.Data.List.Forall2
import Mathlib.Data.Nat.Basic
import Unichannel.Lib.Tally

namespace GuardedSystem

variable {σ α : Type*}

/-- The runs whose every step meets `P`. -/
inductive Runs (step : σ → α → Option σ) (P : σ → α → Prop) : σ → List α → σ → Prop
  | nil (s : σ) : Runs step P s [] s
  | snoc {s s' s'' : σ} {as : List α} {a : α} (h : Runs step P s as s') (hP : P s' a)
      (ha : step s' a = some s'') : Runs step P s (as ++ [a]) s''

/-- The condition that every step meets. -/
def anyStep (_ : σ) (_ : α) : Prop := True

variable {step : σ → α → Option σ} {P : σ → α → Prop} {s s' s'' : σ} {as bs : List α}

/-! ## Runs -/

namespace Runs

theorem single {a : α} (hP : P s a) (ha : step s a = some s') : Runs step P s [a] s' :=
  Runs.snoc (Runs.nil s) hP ha

theorem append (h : Runs step P s as s') (h' : Runs step P s' bs s'') :
    Runs step P s (as ++ bs) s'' := by
  induction h' with
  | nil => rwa [List.append_nil]
  | snoc _ hP ha ih =>
    rw [← List.append_assoc]
    exact Runs.snoc ih hP ha

theorem cons {a : α} (hP : P s a) (ha : step s a = some s') (h : Runs step P s' as s'') :
    Runs step P s (a :: as) s'' :=
  (single hP ha).append h

/-- A run that meets a condition meets the weaker ones. -/
theorem mono {Q : σ → α → Prop} (h : Runs step P s as s') (hQ : ∀ s a, P s a → Q s a) :
    Runs step Q s as s' := by
  induction h with
  | nil => exact Runs.nil _
  | snoc _ hP ha ih => exact Runs.snoc ih (hQ _ _ hP) ha

/-- **The invariant rule.** -/
theorem invariant {I : σ → Prop} (h : Runs step P s as s') (h₀ : I s)
    (hstep : ∀ s a s', I s → P s a → step s a = some s' → I s') : I s' := by
  induction h with
  | nil => exact h₀
  | snoc _ hP ha ih => exact hstep _ _ _ ih hP ha

/-- **The trace rule.**  A relation between the events taken so far and the state, kept
by every further event, holds at the end of a run. -/
theorem trace {R : List α → σ → Prop} (h : Runs step P s as s') (h₀ : R [] s)
    (hstep : ∀ as s' a s'', Runs step P s as s' → R as s' → P s' a → step s' a = some s'' →
      R (as ++ [a]) s'') : R as s' := by
  induction h with
  | nil => exact h₀
  | snoc h hP ha ih => exact hstep _ _ _ _ h ih hP ha

/-- **The simulation rule.**  If every step is answered, on each related event, by a step
of another system that keeps the states related, then every run is answered on each list of
related events. -/
theorem simulate {τ β : Type*} {stepₜ : τ → β → Option τ} {Q : τ → β → Prop} {R : σ → τ → Prop}
    {E : β → α → Prop} (hR : ∀ s t a b s', R s t → E b a → P s a → step s a = some s' →
      ∃ t', Q t b ∧ stepₜ t b = some t' ∧ R s' t')
    (h : Runs step P s as s') {t : τ} (h₀ : R s t) {bs : List β} (hbs : List.Forall₂ E bs as) :
    ∃ t', Runs stepₜ Q t bs t' ∧ R s' t' := by
  induction h generalizing bs with
  | nil =>
    obtain rfl := List.forall₂_nil_right_iff.mp hbs
    exact ⟨t, Runs.nil t, h₀⟩
  | @snoc s' s'' as a _ hP ha ih =>
    -- the related event of the last step is the last one
    have hinit := List.forall₂_take_append bs as [a] hbs
    have hlast := List.forall₂_drop_append bs as [a] hbs
    obtain ⟨b, rest, hb, hrest, heq⟩ := List.forall₂_cons_right_iff.mp hlast
    obtain rfl := List.forall₂_nil_right_iff.mp hrest
    obtain ⟨u, hrun, hu⟩ := ih hinit
    obtain ⟨t', hQ, ht, hrel⟩ := hR _ _ _ _ _ hu hb hP ha
    refine ⟨t', ?_, hrel⟩
    rw [← List.take_append_drop as.length bs, heq]
    exact Runs.snoc hrun hQ ht

/-- A relation that is reflexive, transitive and contains the steps taken from
states with the invariant `I` contains the runs. -/
theorem relates {I : σ → Prop} {R : σ → σ → Prop} (h : Runs step P s as s') (h₀ : I s)
    (hI : ∀ s a s', I s → P s a → step s a = some s' → I s') (hrefl : ∀ s, R s s)
    (htrans : ∀ a b c, R a b → R b c → R a c)
    (hstep : ∀ s a s', I s → P s a → step s a = some s' → R s s') : R s s' := by
  induction h with
  | nil => exact hrefl _
  | snoc h hP ha ih => exact htrans _ _ _ ih (hstep _ _ _ (h.invariant h₀ hI) hP ha)

/-- The conditions that follow from an invariant can be added to those a run meets. -/
theorem strengthen {I : σ → Prop} {Q : σ → α → Prop} (h : Runs step P s as s') (h₀ : I s)
    (hI : ∀ s a s', I s → P s a → step s a = some s' → I s')
    (hQ : ∀ s a s', I s → P s a → step s a = some s' → Q s a) : Runs step Q s as s' := by
  induction h with
  | nil => exact Runs.nil _
  | snoc h hP ha ih => exact Runs.snoc ih (hQ _ _ _ (h.invariant h₀ hI) hP ha) ha

/-- **The projection rule.**  `view` shows of a state a part that is a state of a
smaller system, once that part exists.  If each step either makes the part
appear in an initial state, leaves it as it is, or shows as a step of the smaller
system, then the part has come to its present state by a run of the smaller
system. -/
theorem project {τ β : Type*} (view : σ → Option τ) (init : τ → Prop)
    {stepᵥ : τ → β → Option τ} {Pᵥ : τ → β → Prop}
    (hview : ∀ s a s' v', P s a → step s a = some s' → view s' = some v' →
      (view s = none ∧ init v') ∨ ∃ v, view s = some v
        ∧ (v' = v ∨ ∃ b, Pᵥ v b ∧ stepᵥ v b = some v'))
    (h₀ : ∀ v, view s = some v → init v) (h : Runs step P s as s') :
    ∀ v', view s' = some v' → ∃ v bs, init v ∧ Runs stepᵥ Pᵥ v bs v' := by
  induction h with
  | nil => exact fun v' hv' => ⟨v', [], h₀ v' hv', Runs.nil v'⟩
  | snoc h hP ha ih =>
    intro v' hv'
    rcases hview _ _ _ v' hP ha hv' with ⟨-, hinit⟩ | ⟨v, hv, hcases⟩
    · exact ⟨v', [], hinit, Runs.nil v'⟩
    · obtain ⟨u, bs, hu, hrun⟩ := ih v hv
      rcases hcases with rfl | ⟨b, hb, hvb⟩
      · exact ⟨u, bs, hu, hrun⟩
      · exact ⟨u, bs ++ [b], hu, Runs.snoc hrun hb hvb⟩

/-- The projection rule for a part that is always there. -/
theorem part {τ β : Type*} (view : σ → τ) {stepᵥ : τ → β → Option τ} {Pᵥ : τ → β → Prop}
    (hview : ∀ s a s', P s a → step s a = some s' →
      view s' = view s ∨ ∃ b, Pᵥ (view s) b ∧ stepᵥ (view s) b = some (view s'))
    (h : Runs step P s as s') : ∃ bs, Runs stepᵥ Pᵥ (view s) bs (view s') := by
  induction h with
  | nil => exact ⟨[], Runs.nil _⟩
  | snoc _ hP ha ih =>
    obtain ⟨bs, hbs⟩ := ih
    rcases hview _ _ _ hP ha with hsame | ⟨b, hb, hstep⟩
    · rw [hsame]
      exact ⟨bs, hbs⟩
    · exact ⟨bs ++ [b], Runs.snoc hbs hb hstep⟩

/-- **The measure rule.**  If no step increases `μ` and the steps that `p` selects
decrease it, then a run has no more of these than `μ` has gone down. -/
theorem countP_add_le {I : σ → Prop} {μ : σ → ℕ} {p : α → Bool} (h : Runs step P s as s')
    (h₀ : I s) (hI : ∀ s a s', I s → P s a → step s a = some s' → I s')
    (hle : ∀ s a s', I s → P s a → step s a = some s' → μ s' ≤ μ s)
    (hlt : ∀ s a s', I s → P s a → p a = true → step s a = some s' → μ s' < μ s) :
    as.countP p + μ s' ≤ μ s := by
  induction h with
  | nil => simp
  | @snoc s' s'' as a h hP ha ih =>
    have hs' : I s' := h.invariant h₀ hI
    rw [List.countP_append, List.countP_singleton]
    by_cases hp : p a = true
    · have hdec := hlt s' a s'' hs' hP hp ha
      rw [if_pos hp]
      omega
    · have hdec := hle s' a s'' hs' hP ha
      rw [if_neg hp]
      omega

/-- **The potential rule.**  If each step costs no more than what it brings in and what
the potential goes down by, then so does a run. -/
theorem amortized {I : σ → Prop} {μ : σ → ℕ} {cost gain : α → ℕ} (h : Runs step P s as s')
    (h₀ : I s) (hI : ∀ s a s', I s → P s a → step s a = some s' → I s')
    (hμ : ∀ s a s', I s → P s a → step s a = some s' → μ s' + cost a ≤ μ s + gain a) :
    Tally.total cost as + μ s' ≤ μ s + Tally.total gain as := by
  induction h with
  | nil => simp
  | @snoc s' s'' as a h hP ha ih =>
    have hlast := hμ s' a s'' (h.invariant h₀ hI) hP ha
    simp only [Tally.total_append, Tally.total_cons, Tally.total_nil]
    omega

end Runs

/-! ## What a run shows -/

/-- The events of another system that those of a run show as, where an event shows as one
or as none. -/
def shown {β : Type*} (step : σ → α → Option σ) (shows : σ → α → Option β) : σ → List α → List β
  | _, [] => []
  | s, a :: as => (shows s a).toList ++ (step s a).elim [] fun s' => shown step shows s' as

/-- What a run shows that goes on. -/
theorem Runs.shown_append {β : Type*} {shows : σ → α → Option β} (h : Runs step P s as s')
    (bs : List α) :
    shown step shows s (as ++ bs) = shown step shows s as ++ shown step shows s' bs := by
  induction h generalizing bs with
  | nil => rfl
  | @snoc s' s'' as a _ _ ha ih =>
    have hlast : ∀ cs, shown step shows s' (a :: cs)
        = (shows s' a).toList ++ shown step shows s'' cs := by
      intro cs
      rw [shown, ha]
      rfl
    rw [List.append_assoc, ih, ih, List.singleton_append, hlast, hlast, List.append_assoc,
      List.append_assoc]
    rfl

/-- What one more step shows. -/
theorem Runs.shown_concat {β : Type*} {shows : σ → α → Option β} (h : Runs step P s as s')
    (a : α) :
    shown step shows s (as ++ [a]) = shown step shows s as ++ (shows s' a).toList := by
  have hlast : shown step shows s' [a] = (shows s' a).toList := by
    show (shows s' a).toList ++ (step s' a).elim [] (fun _ => []) = _
    cases step s' a <;> exact List.append_nil _
  rw [h.shown_append, hlast]

/-- **The rule for views**, where it is told what each event shows as: along every run, the
view runs by the events shown. -/
theorem Runs.show_run {τ β : Type*} (view : σ → τ) {shows : σ → α → Option β}
    {stepᵥ : τ → β → Option τ}
    (hview : ∀ as s₁ a s₂, Runs step P s as s₁ → P s₁ a → step s₁ a = some s₂ →
      (shows s₁ a = none → view s₂ = view s₁)
        ∧ ∀ b, shows s₁ a = some b → stepᵥ (view s₁) b = some (view s₂))
    (h : Runs step P s as s') :
    Runs stepᵥ anyStep (view s) (shown step shows s as) (view s') := by
  refine h.trace (R := fun as s' =>
    Runs stepᵥ anyStep (view s) (shown step shows s as) (view s')) (Runs.nil _) ?_
  intro as s₁ a s₂ hrun ih hP ha
  obtain ⟨hnone, hsome⟩ := hview as s₁ a s₂ hrun hP ha
  rw [hrun.shown_concat]
  cases hb : shows s₁ a with
  | none =>
    rw [hnone hb, Option.toList_none, List.append_nil]
    exact ih
  | some b => exact Runs.snoc ih trivial (hsome b hb)

/-! ## Rest -/

/-- No step that meets `P` is enabled. -/
def AtRest (step : σ → α → Option σ) (P : σ → α → Prop) (s : σ) : Prop :=
  ∀ a, P s a → step s a = none

/-- If the steps that meet `P` decrease a measure, then from every state they lead to rest. -/
theorem exists_rest {I : σ → Prop} {μ : σ → ℕ}
    (hI : ∀ s a s', I s → P s a → step s a = some s' → I s')
    (hμ : ∀ s a s', I s → P s a → step s a = some s' → μ s' < μ s) (h₀ : I s) :
    ∃ as s', Runs step P s as s' ∧ AtRest step P s' := by
  induction hn : μ s using Nat.strong_induction_on generalizing s with
  | _ n ih =>
    subst hn
    by_cases hrest : AtRest step P s
    · exact ⟨[], s, Runs.nil s, hrest⟩
    · unfold AtRest at hrest
      push Not at hrest
      obtain ⟨a, hP, hne⟩ := hrest
      obtain ⟨s₁, ha⟩ := Option.ne_none_iff_exists'.mp hne
      obtain ⟨as, s', hrun, hs'⟩ := ih (μ s₁) (hμ s a s₁ h₀ hP ha) (hI s a s₁ h₀ hP ha) rfl
      exact ⟨a :: as, s', Runs.cons hP ha hrun, hs'⟩

/-! ## Replay -/

instance : DecidableRel (anyStep : σ → α → Prop) := fun _ _ => isTrue trivial

/-- Take the events in order; `none` if one of them is not enabled or does not
meet `P`. -/
def run (step : σ → α → Option σ) (P : σ → α → Prop) [DecidableRel P] : σ → List α → Option σ
  | s, [] => some s
  | s, a :: as => if P s a then (step s a).bind fun s' => run step P s' as else none

/-- A list of events replays if its first one is taken and the rest replays. -/
theorem run_cons_eq_some_iff [DecidableRel P] {a : α} :
    run step P s (a :: as) = some s'
      ↔ P s a ∧ ∃ s₁, step s a = some s₁ ∧ run step P s₁ as = some s' := by
  rw [run]
  split_ifs with hP
  · rw [Option.bind_eq_some_iff]
    exact (and_iff_right hP).symm
  · exact iff_of_false (fun h => by cases h) (fun h => hP h.1)

/-- What replays is a run. -/
theorem runs_of_run [DecidableRel P] (h : run step P s as = some s') : Runs step P s as s' := by
  induction as generalizing s with
  | nil =>
    rw [run, Option.some.injEq] at h
    rw [← h]
    exact Runs.nil s
  | cons a as ih =>
    obtain ⟨hP, s₁, ha, has⟩ := run_cons_eq_some_iff.mp h
    exact Runs.cons hP ha (ih has)

/-- Two lists of events replay one after the other. -/
theorem run_append [DecidableRel P] (s : σ) (as bs : List α) :
    run step P s (as ++ bs) = (run step P s as).bind fun s' => run step P s' bs := by
  induction as generalizing s with
  | nil => rfl
  | cons a as ih =>
    rw [List.cons_append, run, run]
    split_ifs with hP
    · cases step s a with
      | none => rfl
      | some s' => exact ih s'
    · rfl

/-- A run replays. -/
theorem run_of_runs [DecidableRel P] (h : Runs step P s as s') : run step P s as = some s' := by
  induction h with
  | nil => rfl
  | snoc _ hP ha ih =>
    rw [run_append, ih, Option.bind_some, run, if_pos hP, ha]
    rfl

/-- The state that a replay ends in is reached by a run. -/
theorem runs_get [DecidableRel P] (h : (run step P s as).isSome = true) :
    Runs step P s as ((run step P s as).get h) :=
  runs_of_run (Option.some_get h).symm

end GuardedSystem
