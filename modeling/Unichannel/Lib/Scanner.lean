/-
# Incremental scanners with verdicts

A scanner reads one symbol at a time and may, on any symbol, stop with a
verdict.  `scan` runs it over a whole input and reports the final state, the
verdict (if any) and the number of symbols consumed; `scanChunks` runs it over
an input delivered in pieces, resuming from the state the last piece left.

* `scanChunks_eq_scan_flatten`: the way the input is cut does not matter;
* `scan_append_of_verdict`: nothing after the deciding symbol matters;
* `decides_iff_mem_residual`: a family of languages that satisfies the
  scanner's one-symbol equations is exactly the set of inputs on which the
  scanner stops with the chosen verdict at the last symbol;
* `viable_iff`, `other_verdict_iff`: when every state has a completing input, the
  scan goes on exactly as long as a completion exists;
* `Feeds`: the stretches of input that are read without a verdict, composed by
  `Feeds.append`;
* `scan_relates`: scanners that move in step scan in step;
* `Feeds.trace`: what relates the state to the input read so far;
* `mem_emitted_iff`: what a scan emits on its way, by where it is emitted.
-/
import Mathlib.Computability.Language

/-- A scanner with states `σ` over the alphabet `β`: each symbol gives the next
state and possibly a verdict, which ends the scan. -/
structure Scanner (σ β ν : Type*) where
  step : σ → β → σ × Option ν

namespace Scanner

/-- What a scan reports: the state it stopped in, the verdict if one was given,
and how many symbols it read. -/
@[ext] structure Outcome (σ ν : Type*) where
  state : σ
  verdict : Option ν
  consumed : ℕ
  deriving DecidableEq

variable {σ β ν : Type*}

/-- The outcome of a scan that is continued after `n` symbols already read. -/
def Outcome.shift (n : ℕ) (o : Outcome σ ν) : Outcome σ ν :=
  { o with consumed := n + o.consumed }

@[simp] theorem Outcome.shift_state (n : ℕ) (o : Outcome σ ν) :
    (o.shift n).state = o.state := rfl

@[simp] theorem Outcome.shift_verdict (n : ℕ) (o : Outcome σ ν) :
    (o.shift n).verdict = o.verdict := rfl

@[simp] theorem Outcome.shift_consumed (n : ℕ) (o : Outcome σ ν) :
    (o.shift n).consumed = n + o.consumed := rfl

@[simp] theorem Outcome.shift_zero (o : Outcome σ ν) : o.shift 0 = o := by
  ext <;> simp

theorem Outcome.shift_shift (m n : ℕ) (o : Outcome σ ν) :
    (o.shift n).shift m = o.shift (m + n) := by
  ext <;> simp [Nat.add_assoc]

variable (M : Scanner σ β ν)

/-- Run the scanner over an input, stopping at the first verdict. -/
def scan : σ → List β → Outcome σ ν
  | s, [] => ⟨s, none, 0⟩
  | s, b :: bs =>
    match (M.step s b).2 with
    | some v => ⟨(M.step s b).1, some v, 1⟩
    | none => (scan (M.step s b).1 bs).shift 1

@[simp] theorem scan_nil (s : σ) : M.scan s [] = ⟨s, none, 0⟩ := rfl

/-- As long as there is no verdict the scan goes on. -/
theorem scan_cons_of_none {s : σ} {b : β} (bs : List β) (h : (M.step s b).2 = none) :
    M.scan s (b :: bs) = (M.scan (M.step s b).1 bs).shift 1 := by
  rw [scan, h]

/-- The scan ends with the first verdict. -/
theorem scan_cons_of_some {s : σ} {b : β} {v : ν} (bs : List β)
    (h : (M.step s b).2 = some v) :
    M.scan s (b :: bs) = ⟨(M.step s b).1, some v, 1⟩ := by
  rw [scan, h]

/-! ## How much is consumed -/

/-- No more is consumed than there is. -/
theorem consumed_le_length (s : σ) (bs : List β) : (M.scan s bs).consumed ≤ bs.length := by
  induction bs generalizing s with
  | nil => simp
  | cons b bs ih =>
    cases h : (M.step s b).2 with
    | none =>
      have hle := ih (M.step s b).1
      rw [scan_cons_of_none M bs h, Outcome.shift_consumed, List.length_cons]
      omega
    | some v => simp [scan_cons_of_some M bs h]

/-- A scan without a verdict has read everything. -/
theorem consumed_eq_length_of_none {s : σ} {bs : List β}
    (h : (M.scan s bs).verdict = none) : (M.scan s bs).consumed = bs.length := by
  induction bs generalizing s with
  | nil => rfl
  | cons b bs ih =>
    cases hb : (M.step s b).2 with
    | none =>
      rw [scan_cons_of_none M bs hb] at h ⊢
      rw [Outcome.shift_consumed, ih h, List.length_cons, Nat.add_comm]
    | some v => simp [scan_cons_of_some M bs hb] at h

/-! ## Invariants of the state -/

/-- What every step keeps, with a verdict or without, holds where a scan stops. -/
theorem scan_state_invariant {I : σ → Prop} (hI : ∀ s b, I s → I (M.step s b).1) {s : σ}
    (h : I s) (bs : List β) : I (M.scan s bs).state := by
  induction bs generalizing s with
  | nil => exact h
  | cons b bs ih =>
    cases hb : (M.step s b).2 with
    | none =>
      rw [scan_cons_of_none M bs hb, Outcome.shift_state]
      exact ih (hI s b h)
    | some v =>
      rw [scan_cons_of_some M bs hb]
      exact hI s b h

/-- **The simulation rule**: two scanners whose states stay related, symbol by symbol,
with the same verdicts, read as far as each other and give the same verdict. -/
theorem scan_relates {τ : Type*} {N : Scanner τ β ν} {R : σ → τ → Prop}
    (hR : ∀ s t b, R s t → (M.step s b).2 = (N.step t b).2 ∧ R (M.step s b).1 (N.step t b).1)
    {s : σ} {t : τ} (h : R s t) (bs : List β) :
    (M.scan s bs).verdict = (N.scan t bs).verdict
      ∧ (M.scan s bs).consumed = (N.scan t bs).consumed
      ∧ R (M.scan s bs).state (N.scan t bs).state := by
  induction bs generalizing s t with
  | nil => exact ⟨rfl, rfl, h⟩
  | cons b bs ih =>
    obtain ⟨hverdict, hnext⟩ := hR s t b h
    cases hb : (M.step s b).2 with
    | none =>
      obtain ⟨hv, hc, hs⟩ := ih hnext
      rw [scan_cons_of_none M bs hb, scan_cons_of_none N bs (hverdict ▸ hb)]
      refine ⟨hv, ?_, hs⟩
      rw [Outcome.shift_consumed, Outcome.shift_consumed, hc]
    | some v =>
      rw [scan_cons_of_some M bs hb, scan_cons_of_some N bs (hverdict ▸ hb)]
      exact ⟨rfl, rfl, hnext⟩

/-! ## Continuing a scan -/

/-- A scan without a verdict is continued from the state it left. -/
theorem scan_append_of_none {s : σ} {xs : List β} (ys : List β)
    (h : (M.scan s xs).verdict = none) :
    M.scan s (xs ++ ys) = (M.scan (M.scan s xs).state ys).shift xs.length := by
  induction xs generalizing s with
  | nil => simp
  | cons b xs ih =>
    cases hb : (M.step s b).2 with
    | none =>
      -- the symbol `b` shifts both scans by one
      rw [scan_cons_of_none M xs hb] at h ⊢
      rw [List.cons_append, scan_cons_of_none M _ hb, ih h, Outcome.shift_shift,
        List.length_cons, Nat.add_comm, Outcome.shift_state]
    | some v => simp [scan_cons_of_some M xs hb] at h

/-- Once a verdict is given, nothing that follows is looked at. -/
theorem scan_append_of_verdict {s : σ} {xs : List β} {v : ν} (ys : List β)
    (h : (M.scan s xs).verdict = some v) : M.scan s (xs ++ ys) = M.scan s xs := by
  induction xs generalizing s with
  | nil => simp at h
  | cons b xs ih =>
    cases hb : (M.step s b).2 with
    | none =>
      rw [scan_cons_of_none M xs hb] at h
      rw [List.cons_append, scan_cons_of_none M _ hb, scan_cons_of_none M _ hb, ih h]
    | some w => rw [List.cons_append, scan_cons_of_some M _ hb, scan_cons_of_some M _ hb]

/-- A decided scan only depends on the symbols it consumed. -/
theorem scan_take_consumed {s : σ} {bs : List β} {v : ν}
    (h : (M.scan s bs).verdict = some v) :
    M.scan s (bs.take (M.scan s bs).consumed) = M.scan s bs := by
  induction bs generalizing s with
  | nil => simp at h
  | cons b bs ih =>
    cases hb : (M.step s b).2 with
    | none =>
      rw [scan_cons_of_none M bs hb] at h ⊢
      rw [Outcome.shift_consumed, Nat.add_comm, List.take_succ_cons, scan_cons_of_none M _ hb,
        ih h]
    | some w =>
      rw [scan_cons_of_some M bs hb, List.take_succ_cons, scan_cons_of_some M _ hb]

/-- An input that agrees with a decided one as far as this was consumed has the
same outcome. -/
theorem scan_eq_of_take_consumed {s : σ} {xs ys : List β} {v : ν}
    (h : (M.scan s xs).verdict = some v)
    (htake : ys.take (M.scan s xs).consumed = xs.take (M.scan s xs).consumed) :
    M.scan s ys = M.scan s xs := by
  have htaken : M.scan s (ys.take (M.scan s xs).consumed) = M.scan s xs := by
    rw [htake, scan_take_consumed M h]
  have happ := scan_append_of_verdict M (ys.drop (M.scan s xs).consumed)
    (show (M.scan s (ys.take (M.scan s xs).consumed)).verdict = some v by rw [htaken, h])
  rw [List.take_append_drop] at happ
  rw [happ, htaken]

/-- Nothing behind the deciding symbol matters. -/
theorem scan_take_of_consumed_le {s : σ} {bs : List β} {v : ν} {k : ℕ}
    (h : (M.scan s bs).verdict = some v) (hk : (M.scan s bs).consumed ≤ k) :
    M.scan s (bs.take k) = M.scan s bs := by
  refine scan_eq_of_take_consumed M h ?_
  rw [List.take_take, Nat.min_eq_left hk]

/-- In front of the deciding symbol there is no verdict. -/
theorem scan_take_of_lt_consumed {s : σ} {bs : List β} {k : ℕ}
    (hk : k < (M.scan s bs).consumed) : (M.scan s (bs.take k)).verdict = none := by
  by_contra hsome
  obtain ⟨v, hv⟩ := Option.ne_none_iff_exists'.mp hsome
  -- a verdict on a shorter input would have been the verdict
  have happ := scan_append_of_verdict M (bs.drop k) hv
  rw [List.take_append_drop] at happ
  have hle := consumed_le_length M s (bs.take k)
  rw [← happ, List.length_take] at hle
  omega

/-! ## Input in pieces -/

/-- Run the scanner over an input that arrives in pieces: each piece is scanned
from the state the one before it left, until a verdict is given. -/
def scanChunks : σ → List (List β) → Outcome σ ν
  | s, [] => ⟨s, none, 0⟩
  | s, c :: cs =>
    match (M.scan s c).verdict with
    | some _ => M.scan s c
    | none => (scanChunks (M.scan s c).state cs).shift c.length

/-- **Cutting does not matter**: scanning the pieces is scanning their
concatenation. -/
theorem scanChunks_eq_scan_flatten (s : σ) (cs : List (List β)) :
    M.scanChunks s cs = M.scan s cs.flatten := by
  induction cs generalizing s with
  | nil => rfl
  | cons c cs ih =>
    rw [scanChunks, List.flatten_cons]
    cases h : (M.scan s c).verdict with
    | none => rw [scan_append_of_none M _ h, ih]
    | some v => rw [scan_append_of_verdict M _ h]

/-! ## Inputs that end exactly at the verdict -/

/-- The scan of `w` from `s` gives the verdict `v` on the last symbol of `w`. -/
def Decides (s : σ) (v : ν) (w : List β) : Prop :=
  (M.scan s w).verdict = some v ∧ (M.scan s w).consumed = w.length

/-- The empty word decides nothing. -/
theorem not_decides_nil (s : σ) (v : ν) : ¬ M.Decides s v [] := by
  simp [Decides]

/-- **The derivative** of the deciding words: the first symbol decides, or it is fed. -/
theorem decides_cons (s : σ) (v : ν) (b : β) (w : List β) :
    M.Decides s v (b :: w) ↔
      ((M.step s b).2 = some v ∧ w = [])
        ∨ ((M.step s b).2 = none ∧ M.Decides (M.step s b).1 v w) := by
  cases h : (M.step s b).2 with
  | none =>
    rw [Decides, Decides, scan_cons_of_none M w h, Outcome.shift_verdict, Outcome.shift_consumed,
      List.length_cons, Nat.add_comm 1, Nat.add_right_cancel_iff]
    simp
  | some u =>
    rw [Decides, scan_cons_of_some M w h, List.length_cons]
    simp

/-- A verdict after `k` symbols is a verdict on the last symbol of the first
`k`. -/
theorem verdict_and_consumed_iff (s : σ) (v : ν) (bs : List β) (k : ℕ) :
    ((M.scan s bs).verdict = some v ∧ (M.scan s bs).consumed = k)
      ↔ k ≤ bs.length ∧ M.Decides s v (bs.take k) := by
  constructor
  · rintro ⟨hv, rfl⟩
    have hle := consumed_le_length M s bs
    refine ⟨hle, ?_⟩
    rw [Decides, scan_take_consumed M hv, List.length_take, Nat.min_eq_left hle]
    exact ⟨hv, rfl⟩
  · rintro ⟨hle, hv, hk⟩
    rw [List.length_take, Nat.min_eq_left hle] at hk
    have happ := scan_append_of_verdict M (bs.drop k) hv
    rw [List.take_append_drop] at happ
    rw [happ]
    exact ⟨hv, hk⟩

/-- **Prefix-freeness**: of two inputs that end at their verdict, neither is a
proper prefix of the other. -/
theorem Decides.eq_of_append {s : σ} {u v : ν} {w z : List β}
    (hw : M.Decides s u w) (hwz : M.Decides s v (w ++ z)) : z = [] := by
  obtain ⟨hv, hc⟩ := hw
  have hcz := hwz.2
  rw [scan_append_of_verdict M z hv, hc, List.length_append] at hcz
  exact List.length_eq_zero_iff.mp (by omega)

/-- **The residual rule**: a family of languages, one for each state, that
contains no empty word and satisfies the one-symbol equations of the scanner is
the family of inputs decided with verdict `v`. -/
theorem decides_iff_mem_residual (v : ν) (R : σ → Language β) (hnil : ∀ s, [] ∉ R s)
    (hcons : ∀ s b w, b :: w ∈ R s ↔
      ((M.step s b).2 = some v ∧ w = [])
        ∨ ((M.step s b).2 = none ∧ w ∈ R (M.step s b).1))
    (s : σ) (w : List β) : M.Decides s v w ↔ w ∈ R s := by
  induction w generalizing s with
  | nil => exact ⟨fun h => absurd h (not_decides_nil M s v), fun h => absurd h (hnil s)⟩
  | cons b w ih => rw [decides_cons, hcons, ih]

/-! ## Viable inputs -/

/-- A nonempty continuation of `w` makes the scan stop with `v` on its last
symbol. -/
def Viable (s : σ) (v : ν) (w : List β) : Prop := ∃ z, z ≠ [] ∧ M.Decides s v (w ++ z)

/-- An input with a verdict is not continued. -/
theorem verdict_eq_none_of_viable {s : σ} {v : ν} {w : List β} (h : M.Viable s v w) :
    (M.scan s w).verdict = none := by
  obtain ⟨z, hz, hdec⟩ := h
  cases hw : (M.scan s w).verdict with
  | none => rfl
  | some u =>
    obtain ⟨-, hc⟩ := hdec
    have hle := consumed_le_length M s w
    have hpos : 0 < z.length := List.length_pos_iff.mpr hz
    rw [scan_append_of_verdict M z hw, List.length_append] at hc
    omega

/-- **The viable-prefix rule**: when every state has a completing input, a scan
without a verdict is a proper prefix of a decided one, and only such a scan is. -/
theorem viable_iff {v : ν} (hlive : ∀ s, ∃ z, M.Decides s v z) (s : σ) (w : List β) :
    M.Viable s v w ↔ (M.scan s w).verdict = none := by
  constructor
  · exact verdict_eq_none_of_viable M
  · intro hnone
    obtain ⟨z, hz⟩ := hlive (M.scan s w).state
    refine ⟨z, ?_, ?_⟩
    · rintro rfl
      exact not_decides_nil M _ v hz
    · obtain ⟨hv, hc⟩ := hz
      rw [Decides, scan_append_of_none M z hnone, Outcome.shift_verdict, Outcome.shift_consumed,
        hc, List.length_append]
      exact ⟨hv, rfl⟩

/-- A verdict other than `v` falls on the first symbol after which no continuation
leads to `v`. -/
theorem other_verdict_iff {v : ν} (hlive : ∀ s, ∃ z, M.Decides s v z) (s : σ) (bs : List β)
    (k : ℕ) :
    (((M.scan s bs).verdict ≠ none ∧ (M.scan s bs).verdict ≠ some v)
        ∧ (M.scan s bs).consumed = k)
      ↔ k ≤ bs.length ∧ 0 < k ∧ M.Viable s v (bs.take (k - 1))
        ∧ ∀ z, ¬ M.Decides s v (bs.take k ++ z) := by
  constructor
  · rintro ⟨⟨hsome, hne⟩, rfl⟩
    obtain ⟨u, hu⟩ := Option.ne_none_iff_exists'.mp hsome
    have hle := consumed_le_length M s bs
    have htake := scan_take_consumed M hu
    have hpos : 0 < (M.scan s bs).consumed := by
      by_contra hzero
      rw [Nat.eq_zero_of_not_pos hzero, List.take_zero] at htake
      rw [← htake] at hu
      cases hu
    refine ⟨hle, hpos, ?_, ?_⟩
    · rw [viable_iff M hlive]
      exact scan_take_of_lt_consumed M (by omega)
    · rintro z ⟨hz, -⟩
      rw [scan_append_of_verdict M z (htake ▸ hu), htake] at hz
      exact hne hz
  · rintro ⟨hle, hpos, hviable, hdead⟩
    have hnone := verdict_eq_none_of_viable M hviable
    have hsome : (M.scan s (bs.take k)).verdict ≠ none := by
      intro hk
      obtain ⟨z, -, hz⟩ := (viable_iff M hlive s (bs.take k)).mpr hk
      exact hdead z hz
    obtain ⟨u, hu⟩ := Option.ne_none_iff_exists'.mp hsome
    have hconsumed : (M.scan s (bs.take k)).consumed = k := by
      have hlek := consumed_le_length M s (bs.take k)
      rw [List.length_take, Nat.min_eq_left hle] at hlek
      by_contra hlt
      -- otherwise the verdict had been given before the last symbol
      have hshort := scan_take_of_consumed_le M hu (k := k - 1) (by omega)
      rw [List.take_take, Nat.min_eq_left (by omega)] at hshort
      rw [hshort, hu] at hnone
      cases hnone
    have happ := scan_append_of_verdict M (bs.drop k) hu
    rw [List.take_append_drop] at happ
    rw [happ]
    refine ⟨⟨hsome, ?_⟩, hconsumed⟩
    intro hv
    refine hdead [] ?_
    rw [List.append_nil, Decides, hconsumed, List.length_take, Nat.min_eq_left hle]
    exact ⟨hv, rfl⟩

/-! ## Stretches read without a verdict -/

/-- Reading `w` from `s` gives no verdict and ends in `s'`. -/
def Feeds (s : σ) (w : List β) (s' : σ) : Prop :=
  M.scan s w = ⟨s', none, w.length⟩

variable {M}

theorem Feeds.nil (s : σ) : M.Feeds s [] s := rfl

/-- A symbol without a verdict is fed. -/
theorem Feeds.single {s s' : σ} {b : β} (h : M.step s b = (s', none)) : M.Feeds s [b] s' := by
  rw [Feeds, scan_cons_of_none M [] (by rw [h]), h]
  rfl

/-- After a stretch without a verdict the scan goes on where it ended. -/
theorem Feeds.scan_append {s s' : σ} {w : List β} (h : M.Feeds s w s') (z : List β) :
    M.scan s (w ++ z) = (M.scan s' z).shift w.length := by
  rw [scan_append_of_none M z (by rw [h]), h]

/-- A word may be fed before the one that decides. -/
theorem Feeds.decides {s s' : σ} {w z : List β} {v : ν} (h : M.Feeds s w s')
    (hz : M.Decides s' v z) : M.Decides s v (w ++ z) := by
  obtain ⟨hv, hc⟩ := hz
  rw [Decides, h.scan_append, Outcome.shift_verdict, Outcome.shift_consumed, hc,
    List.length_append]
  exact ⟨hv, rfl⟩

/-- Words are fed one after the other. -/
theorem Feeds.append {s s' s'' : σ} {w z : List β} (h : M.Feeds s w s')
    (h' : M.Feeds s' z s'') : M.Feeds s (w ++ z) s'' := by
  rw [Feeds, h.scan_append, h', List.length_append]
  rfl

/-- A symbol may be fed before a word. -/
theorem Feeds.cons {s s' s'' : σ} {b : β} {w : List β} (h : M.step s b = (s', none))
    (h' : M.Feeds s' w s'') : M.Feeds s (b :: w) s'' :=
  (Feeds.single h).append h'

/-- A stretch of symbols of one class, each of which is absorbed by `f` without
leaving the family `s`, ends in the state that has absorbed them in order. -/
theorem Feeds.foldl {α : Type*} {p : β → Prop} {s : α → σ} {f : α → β → α}
    (hstep : ∀ a b, p b → M.step (s a) b = (s (f a b), none)) (a : α) (w : List β)
    (hw : ∀ b ∈ w, p b) : M.Feeds (s a) w (s (w.foldl f a)) := by
  induction w generalizing a with
  | nil => exact Feeds.nil _
  | cons b w ih =>
    have hb := hstep a b (hw b List.mem_cons_self)
    exact Feeds.cons hb (ih (f a b) (fun c hc => hw c (List.mem_cons_of_mem b hc)))

/-! ## What has been read where -/

/-- The first symbol of a stretch. -/
theorem feeds_cons_iff {s s' : σ} {b : β} {w : List β} :
    M.Feeds s (b :: w) s' ↔ (M.step s b).2 = none ∧ M.Feeds (M.step s b).1 w s' := by
  constructor
  · intro h
    cases hb : (M.step s b).2 with
    | none =>
      rw [Feeds, scan_cons_of_none M w hb, List.length_cons, Nat.add_comm] at h
      have hstate := congrArg Outcome.state h
      have hverdict := congrArg Outcome.verdict h
      have hconsumed := congrArg Outcome.consumed h
      exact ⟨rfl, Outcome.ext hstate hverdict (Nat.add_left_cancel hconsumed)⟩
    | some v =>
      rw [Feeds, scan_cons_of_some M w hb] at h
      cases congrArg Outcome.verdict h
  · rintro ⟨hb, hw⟩
    exact Feeds.cons (Prod.ext rfl hb) hw

/-- The last symbol of a stretch. -/
theorem feeds_concat_iff {s s' : σ} {w : List β} {b : β} :
    M.Feeds s (w ++ [b]) s' ↔ ∃ p, M.Feeds s w p ∧ M.step p b = (s', none) := by
  constructor
  · intro h
    have hnone : (M.scan s w).verdict = none := by
      cases hv : (M.scan s w).verdict with
      | none => rfl
      | some v =>
        have happ := M.scan_append_of_verdict [b] hv
        rw [h] at happ
        rw [← happ] at hv
        cases hv
    have hw : M.Feeds s w (M.scan s w).state :=
      Outcome.ext rfl hnone (M.consumed_eq_length_of_none hnone)
    refine ⟨_, hw, ?_⟩
    have hlast := hw.scan_append [b]
    rw [h] at hlast
    cases hb : (M.step (M.scan s w).state b).2 with
    | none =>
      rw [scan_cons_of_none M [] hb] at hlast
      exact Prod.ext (congrArg Outcome.state hlast).symm hb
    | some v =>
      rw [scan_cons_of_some M [] hb] at hlast
      cases congrArg Outcome.verdict hlast
  · rintro ⟨p, hw, hb⟩
    exact hw.append (Feeds.single hb)

/-- **The trace rule**: a relation between what has been read and the state, kept by
every symbol that gives no verdict, holds after a stretch. -/
theorem Feeds.trace {R : List β → σ → Prop} {s : σ} (hstart : R [] s)
    (hstep : ∀ w p b p', R w p → M.step p b = (p', none) → R (w ++ [b]) p') {w : List β} {s' : σ}
    (h : M.Feeds s w s') : R w s' := by
  induction w using List.reverseRecOn generalizing s' with
  | nil =>
    cases h
    exact hstart
  | append_singleton w b ih =>
    obtain ⟨p, hw, hb⟩ := feeds_concat_iff.mp h
    exact hstep w p b s' (ih hw) hb

/-- A verdict is given on some symbol, after a stretch without one. -/
theorem exists_feeds_of_verdict {s : σ} {bs : List β} {v : ν}
    (h : (M.scan s bs).verdict = some v) :
    ∃ w b rest p, bs = w ++ b :: rest ∧ M.Feeds s w p
      ∧ M.step p b = ((M.scan s bs).state, some v) := by
  induction bs generalizing s with
  | nil => cases h
  | cons b bs ih =>
    cases hb : (M.step s b).2 with
    | none =>
      rw [scan_cons_of_none M bs hb] at h ⊢
      obtain ⟨w, c, rest, p, rfl, hw, hc⟩ := ih h
      exact ⟨b :: w, c, rest, p, rfl, Feeds.cons (Prod.ext rfl hb) hw, hc⟩
    | some u =>
      rw [scan_cons_of_some M bs hb] at h ⊢
      exact ⟨[], b, bs, s, rfl, Feeds.nil s, Prod.ext rfl (hb.trans h)⟩

variable {γ : Type*}

/-- What `f` gives on each symbol of a scan, up to the verdict. -/
def emitted (M : Scanner σ β ν) (f : σ → β → List γ) : σ → List β → List γ
  | _, [] => []
  | s, b :: bs =>
    f s b ++
      match (M.step s b).2 with
      | some _ => []
      | none => emitted M f (M.step s b).1 bs

/-- What is emitted is emitted by some step of the scan. -/
theorem mem_emitted_iff {f : σ → β → List γ} {s : σ} {bs : List β} {t : γ} :
    t ∈ M.emitted f s bs
      ↔ ∃ w b rest p, bs = w ++ b :: rest ∧ M.Feeds s w p ∧ t ∈ f p b := by
  constructor
  · intro h
    induction bs generalizing s with
    | nil => cases h
    | cons b bs ih =>
      rw [emitted] at h
      rcases List.mem_append.mp h with h | h
      · exact ⟨[], b, bs, s, rfl, Feeds.nil s, h⟩
      · cases hb : (M.step s b).2 with
        | none =>
          rw [hb] at h
          obtain ⟨w, c, rest, p, rfl, hw, ht⟩ := ih h
          exact ⟨b :: w, c, rest, p, rfl, Feeds.cons (Prod.ext rfl hb) hw, ht⟩
        | some u =>
          rw [hb] at h
          cases h
  · rintro ⟨w, b, rest, p, rfl, hw, ht⟩
    induction w generalizing s with
    | nil =>
      cases hw
      rw [List.nil_append, emitted]
      exact List.mem_append_left _ ht
    | cons c w ih =>
      obtain ⟨hc, hw⟩ := feeds_cons_iff.mp hw
      rw [List.cons_append, emitted, hc]
      exact List.mem_append_right _ (ih hw)

end Scanner
