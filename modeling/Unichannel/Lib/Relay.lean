/-
# A relay of two queues

Items are accepted at the back of a first queue, taken from its front into hands,
handed over to the back of a second queue and put out from its front.  Any number
of items may be in hands, and they are handed over in any order.

* `conserved_run`: nothing is lost or duplicated on the way;
* `inLine_step`: as long as nobody hands over an item while an older one is still in
  hands, the relay is one queue, and the items come out in the order in which they
  were accepted;
* `fifo_run`: with a single hand the relay refines a queue (`Fifo`), event by event;
* `early_run`: with `k` hands no item comes `k` or more places before its turn.
-/
import Mathlib.Algebra.Order.Group.Multiset
import Mathlib.Data.Multiset.Basic
import Mathlib.Tactic.Abel
import Unichannel.Lib.GuardedSystem

/-! ## One queue -/

/-- A queue; `accepted` are the items that went in and `out` those that came out, both
in order. -/
@[ext] structure Fifo (α : Type*) where
  accepted : List α
  queue : List α
  out : List α

namespace Fifo

variable {α : Type*}

/-- The events of a queue. -/
inductive Event (α : Type*)
  | push (a : α)
  | pop

/-- One event. -/
def step (f : Fifo α) : Event α → Option (Fifo α)
  | .push a => some { f with accepted := f.accepted ++ [a], queue := f.queue ++ [a] }
  | .pop =>
    match f.queue with
    | [] => none
    | a :: rest => some { f with queue := rest, out := f.out ++ [a] }

/-- The queue before anything is pushed. -/
def initial : Fifo α := ⟨[], [], []⟩

/-- **First in, first out**: what came out and then what is in the queue is what was
pushed. -/
theorem accepted_eq {P : Fifo α → Event α → Prop} {es : List (Event α)} {f : Fifo α}
    (h : GuardedSystem.Runs step P initial es f) : f.accepted = f.out ++ f.queue := by
  refine h.invariant (I := fun f => f.accepted = f.out ++ f.queue) rfl ?_
  intro f e f' hf _ hstep
  cases e with
  | push a =>
    cases hstep
    show f.accepted ++ [a] = f.out ++ (f.queue ++ [a])
    rw [hf, List.append_assoc]
  | pop =>
    simp only [step] at hstep
    split at hstep
    · cases hstep
    · rename_i a rest hq
      cases hstep
      show f.accepted = f.out ++ [a] ++ rest
      rw [hf, hq, List.append_assoc]
      rfl

/-- The queue is what was pushed and has not come out. -/
theorem queue_eq {f : Fifo α} (h : f.accepted = f.out ++ f.queue) :
    f.queue = f.accepted.drop f.out.length := by
  rw [h, List.drop_left]

/-- If nothing was pushed and nothing came out, the queue is the same. -/
theorem eq_of_accepted {f f' : Fifo α} (h : f.accepted = f.out ++ f.queue)
    (h' : f'.accepted = f'.out ++ f'.queue) (haccepted : f'.accepted = f.accepted)
    (hout : f'.out = f.out) : f' = f := by
  refine Fifo.ext haccepted ?_ hout
  rw [queue_eq h, queue_eq h', haccepted, hout]

/-- If one item was pushed and nothing came out, that was a push. -/
theorem step_push_of_accepted {f f' : Fifo α} {a : α} (h : f.accepted = f.out ++ f.queue)
    (h' : f'.accepted = f'.out ++ f'.queue) (haccepted : f'.accepted = f.accepted ++ [a])
    (hout : f'.out = f.out) : f.step (.push a) = some f' := by
  refine congrArg some (eq_of_accepted h' ?_ haccepted.symm hout.symm)
  show f.accepted ++ [a] = f.out ++ (f.queue ++ [a])
  rw [h, List.append_assoc]

/-- If one item came out and nothing was pushed, that was a pop. -/
theorem step_pop_of_accepted {f f' : Fifo α} {a : α} (h : f.accepted = f.out ++ f.queue)
    (h' : f'.accepted = f'.out ++ f'.queue) (haccepted : f'.accepted = f.accepted)
    (hout : f'.out = f.out ++ [a]) : f.step .pop = some f' := by
  have hqueue : f.queue = a :: f'.queue := by
    rw [haccepted, h, hout, List.append_assoc] at h'
    exact List.append_cancel_left h'
  rw [step, hqueue]
  refine congrArg some (eq_of_accepted h' ?_ haccepted.symm hout.symm)
  show f.accepted = f.out ++ [a] ++ f'.queue
  rw [h, hqueue, List.append_assoc]
  rfl

end Fifo

/-! ## Two queues -/

/-- The state of a relay; `accepted` are the items that went in and `out` those
that came out, both in order. -/
structure Relay (α : Type*) where
  accepted : List α
  first : List α
  hands : Multiset α
  second : List α
  out : List α

namespace Relay

open scoped List

variable {α : Type*}

/-- The events of a relay. -/
inductive Event (α : Type*)
  | accept (a : α)
  | take
  | handOver (a : α)
  | putOut

theorem coe_concat (l : List α) (a : α) : ((l ++ [a] : List α) : Multiset α) = l + {a} := by
  rw [← Multiset.coe_add, Multiset.coe_singleton]

theorem coe_cons (a : α) (l : List α) : ((a :: l : List α) : Multiset α) = {a} + l := by
  rw [← Multiset.cons_coe, Multiset.singleton_add]

/-- What was accepted is in one of the queues, in hands, or out. -/
def Conserved (s : Relay α) : Prop :=
  (s.accepted : Multiset α) = s.first + s.hands + s.second + s.out

/-- An item in hands is not out: items that are told apart are in one place. -/
theorem Conserved.notMem_out {s : Relay α} (h : Conserved s) (hnodup : s.accepted.Nodup) {a : α}
    (ha : a ∈ s.hands) : a ∉ s.out := by
  have hall : (s.first + s.hands + s.second + s.out : Multiset α).Nodup := by
    rw [← show (s.accepted : Multiset α) = _ from h]
    exact Multiset.coe_nodup.mpr hnodup
  obtain ⟨-, -, hdisjoint⟩ := Multiset.nodup_add.mp hall
  have hmem : a ∈ (s.first + s.hands + s.second : Multiset α) := by
    rw [Multiset.mem_add, Multiset.mem_add]
    exact Or.inl (Or.inr ha)
  exact fun hout => Multiset.disjoint_left.mp hdisjoint hmem (Multiset.mem_coe.mpr hout)

/-- Nobody hands over an item while one that was accepted before it is in hands. -/
def OldestFirst (s : Relay α) (e : Event α) : Prop :=
  ∀ a, e = .handOver a → ∀ b ∈ s.hands, ¬ [b, a] <+ s.accepted

/-- The relay is one queue: what is out, what is in the second queue, what is in
hands and what is in the first queue make up what was accepted, in this order. -/
def InLine (s : Relay α) : Prop :=
  ∃ line : List α, s.accepted = s.out ++ s.second ++ line ++ s.first ∧ s.hands = line

/-- What comes out is the beginning of what was accepted. -/
theorem InLine.out_isPrefix {s : Relay α} (h : InLine s) : s.out <+: s.accepted := by
  obtain ⟨line, hline, -⟩ := h
  exact ⟨s.second ++ (line ++ s.first), by rw [hline]; simp⟩

/-- In a list without repetitions, what stands before an element of an initial
part stands there too. -/
theorem precedes_of_isPrefix {l out : List α} (hnodup : l.Nodup) (hpre : out <+: l) {a b : α}
    (hab : [a, b] <+ l) (hb : b ∈ out) : [a, b] <+ out := by
  obtain ⟨rest, rfl⟩ := hpre
  obtain ⟨l₁, l₂, heq, h₁, h₂⟩ := List.sublist_append_iff.mp hab
  rcases List.eq_nil_or_concat' l₂ with rfl | ⟨l₂, x, rfl⟩
  · rw [List.append_nil] at heq
    rwa [heq]
  · -- the last one, `b`, would be behind the initial part
    have hx : b = x := by
      have hlast := congrArg List.getLast? heq
      rw [← List.append_assoc, List.getLast?_concat] at hlast
      exact Option.some.inj hlast
    have hbrest : b ∈ rest := h₂.subset (by rw [hx]; simp)
    exact absurd hbrest (List.disjoint_of_nodup_append hnodup hb)

variable [DecidableEq α]

/-- One event. -/
def step (s : Relay α) : Event α → Option (Relay α)
  | .accept a => some { s with accepted := s.accepted ++ [a], first := s.first ++ [a] }
  | .take =>
    match s.first with
    | [] => none
    | a :: rest => some { s with first := rest, hands := a ::ₘ s.hands }
  | .handOver a =>
    if a ∈ s.hands then some { s with hands := s.hands.erase a, second := s.second ++ [a] }
    else none
  | .putOut =>
    match s.second with
    | [] => none
    | a :: rest => some { s with second := rest, out := s.out ++ [a] }

/-- The relay before anything is accepted. -/
def initial : Relay α := ⟨[], [], 0, [], []⟩

variable {s s' : Relay α}

/-! ### What each event does -/

/-- The front of the first queue comes into hands. -/
theorem step_take (h : s.step .take = some s') :
    ∃ a rest, s.first = a :: rest ∧ s' = { s with first := rest, hands := a ::ₘ s.hands } := by
  simp only [step] at h
  split at h
  · cases h
  · rename_i a rest hfirst
    exact ⟨a, rest, hfirst, (Option.some.inj h).symm⟩

/-- An item in hands goes to the back of the second queue. -/
theorem step_handOver {a : α} (h : s.step (.handOver a) = some s') :
    a ∈ s.hands ∧ s' = { s with hands := s.hands.erase a, second := s.second ++ [a] } := by
  simp only [step] at h
  split_ifs at h with ha
  exact ⟨ha, (Option.some.inj h).symm⟩

/-- The front of the second queue comes out. -/
theorem step_putOut (h : s.step .putOut = some s') :
    ∃ a rest, s.second = a :: rest ∧ s' = { s with second := rest, out := s.out ++ [a] } := by
  simp only [step] at h
  split at h
  · cases h
  · rename_i a rest hsecond
    exact ⟨a, rest, hsecond, (Option.some.inj h).symm⟩

/-! ### Conservation -/

/-- **Step lemma.** -/
theorem conserved_step {e : Event α} (h : Conserved s) (hstep : s.step e = some s') :
    Conserved s' := by
  unfold Conserved at h ⊢
  cases e with
  | accept a =>
    cases hstep
    show ((s.accepted ++ [a] : List α) : Multiset α)
      = ((s.first ++ [a] : List α) : Multiset α) + s.hands + s.second + s.out
    rw [coe_concat, coe_concat, h]
    abel
  | take =>
    obtain ⟨a, rest, hfirst, rfl⟩ := step_take hstep
    show (s.accepted : Multiset α) = rest + a ::ₘ s.hands + s.second + s.out
    rw [h, hfirst, coe_cons, ← Multiset.singleton_add]
    abel
  | handOver a =>
    obtain ⟨ha, rfl⟩ := step_handOver hstep
    show (s.accepted : Multiset α)
      = s.first + s.hands.erase a + ((s.second ++ [a] : List α) : Multiset α) + s.out
    rw [h, coe_concat, ← Multiset.cons_erase ha, ← Multiset.singleton_add]
    rw [Multiset.singleton_add, Multiset.erase_cons_head, ← Multiset.singleton_add]
    abel
  | putOut =>
    obtain ⟨a, rest, hsecond, rfl⟩ := step_putOut hstep
    show (s.accepted : Multiset α)
      = s.first + s.hands + rest + ((s.out ++ [a] : List α) : Multiset α)
    rw [h, hsecond, coe_cons, coe_concat]
    abel

/-- **Nothing is lost or duplicated.** -/
theorem conserved_run {P : Relay α → Event α → Prop} {es : List (Event α)}
    (h : GuardedSystem.Runs step P initial es s) : Conserved s :=
  h.invariant (I := Conserved) rfl fun _ _ _ h _ hstep => conserved_step h hstep

/-! ### Order -/

/-- **Step lemma.** -/
theorem inLine_step {e : Event α} (h : InLine s) (hP : OldestFirst s e)
    (hstep : s.step e = some s') : InLine s' := by
  obtain ⟨line, hline, hhands⟩ := h
  cases e with
  | accept a =>
    cases hstep
    exact ⟨line, by simp [hline], hhands⟩
  | take =>
    obtain ⟨a, rest, hfirst, rfl⟩ := step_take hstep
    refine ⟨line ++ [a], ?_, ?_⟩
    · show s.accepted = s.out ++ s.second ++ (line ++ [a]) ++ rest
      rw [hline, hfirst]
      simp
    · show a ::ₘ s.hands = ((line ++ [a] : List α) : Multiset α)
      rw [coe_concat, hhands, ← Multiset.singleton_add, add_comm]
  | handOver a =>
    obtain ⟨ha, rfl⟩ := step_handOver hstep
    rw [hhands, Multiset.mem_coe] at ha
    obtain ⟨pre, post, hsplit⟩ := List.append_of_mem ha
    -- `a` is the head of the line, since whatever stands before it is older
    cases pre with
    | nil =>
      refine ⟨post, ?_, ?_⟩
      · show s.accepted = s.out ++ (s.second ++ [a]) ++ post ++ s.first
        rw [hline, hsplit]
        simp
      · show s.hands.erase a = (post : Multiset α)
        rw [hhands, hsplit, List.nil_append, ← Multiset.cons_coe, Multiset.erase_cons_head]
    | cons b pre =>
      -- `b` is in hands and was accepted before `a`
      have hb : b ∈ s.hands := by
        rw [hhands, hsplit]
        simp
      have hba : [b, a] <+ line := by
        rw [hsplit, List.cons_append]
        exact List.Sublist.cons_cons b
          ((List.sublist_append_right pre [a]).trans
            (List.Sublist.append (List.Sublist.refl pre) (List.singleton_sublist.mpr (by simp))))
      have hsub : line <+ s.accepted := by
        rw [hline, List.append_assoc]
        exact (List.sublist_append_left line s.first).trans (List.sublist_append_right _ _)
      exact absurd (hba.trans hsub) (hP a rfl b hb)
  | putOut =>
    obtain ⟨a, rest, hsecond, rfl⟩ := step_putOut hstep
    refine ⟨line, ?_, hhands⟩
    show s.accepted = (s.out ++ [a]) ++ rest ++ line ++ s.first
    rw [hline, hsecond]
    simp

/-! ### A single hand -/

/-- Items are taken by empty hands only. -/
def TakesFree (s : Relay α) (e : Event α) : Prop := e = .take → s.hands = 0

/-- **Step lemma.** -/
theorem card_hands_step {e : Event α} (h : s.hands.card ≤ 1) (hP : TakesFree s e)
    (hstep : s.step e = some s') : s'.hands.card ≤ 1 := by
  cases e with
  | accept a =>
    cases hstep
    exact h
  | take =>
    obtain ⟨a, rest, -, rfl⟩ := step_take hstep
    show (a ::ₘ s.hands).card ≤ 1
    rw [hP rfl]
    exact le_rfl
  | handOver a =>
    obtain ⟨-, rfl⟩ := step_handOver hstep
    exact (Multiset.card_le_card (Multiset.erase_le a s.hands)).trans h
  | putOut =>
    obtain ⟨a, rest, -, rfl⟩ := step_putOut hstep
    exact h

omit [DecidableEq α] in
/-- The relay as one queue: the second queue in front, then what is in hands, and the
first queue behind. -/
noncomputable def asFifo (s : Relay α) : Fifo α :=
  ⟨s.accepted, s.second ++ Multiset.toList s.hands ++ s.first, s.out⟩

/-- **With a single hand the relay refines the queue**: accepting pushes, putting out
pops, and what happens between the queues does not show. -/
theorem step_fifo {e : Event α} (h : s.hands.card ≤ 1) (hP : TakesFree s e)
    (hstep : s.step e = some s') :
    s'.asFifo = s.asFifo ∨ ∃ f, s.asFifo.step f = some s'.asFifo := by
  cases e with
  | accept a =>
    right
    cases hstep
    refine ⟨.push a, congrArg some ?_⟩
    simp [asFifo]
  | take =>
    left
    obtain ⟨a, rest, hfirst, rfl⟩ := step_take hstep
    simp [asFifo, hP rfl, hfirst]
  | handOver a =>
    left
    obtain ⟨ha, rfl⟩ := step_handOver hstep
    -- the item handed over is the only one in hands
    have hhands : s.hands = {a} := by
      obtain ⟨rest, hrest⟩ := Multiset.exists_cons_of_mem ha
      rw [hrest, Multiset.card_cons] at h
      have hnone : rest = 0 := Multiset.card_eq_zero.mp (by omega)
      rw [hrest, hnone]
      rfl
    simp [asFifo, hhands]
  | putOut =>
    right
    obtain ⟨a, rest, hsecond, rfl⟩ := step_putOut hstep
    refine ⟨.pop, ?_⟩
    simp [asFifo, Fifo.step, hsecond]

/-- **Run lemma.** -/
theorem fifo_run {es : List (Event α)} (h : GuardedSystem.Runs step TakesFree initial es s) :
    s.hands.card ≤ 1
      ∧ ∃ fs, GuardedSystem.Runs Fifo.step GuardedSystem.anyStep Fifo.initial fs s.asFifo := by
  have hkeep : ∀ (s : Relay α) (e : Event α) (s' : Relay α), s.hands.card ≤ 1 → TakesFree s e →
      s.step e = some s' → s'.hands.card ≤ 1 := fun _ _ _ h hP hstep => card_hands_step h hP hstep
  refine ⟨h.invariant (I := fun s => s.hands.card ≤ 1) (Nat.zero_le 1) hkeep, ?_⟩
  have hboth : GuardedSystem.Runs step (fun s e => s.hands.card ≤ 1 ∧ TakesFree s e) initial es s :=
    h.strengthen (I := fun s => s.hands.card ≤ 1) (Nat.zero_le 1) hkeep
      fun _ _ _ hs hP _ => ⟨hs, hP⟩
  have hproject : ∃ f fs, f = Fifo.initial
      ∧ GuardedSystem.Runs Fifo.step GuardedSystem.anyStep f fs s.asFifo := by
    refine GuardedSystem.Runs.project (fun s => some (asFifo s)) (fun f => f = Fifo.initial)
      ?_ ?_ hboth s.asFifo rfl
    · rintro s e s' f' ⟨hs, hP⟩ hstep hf'
      cases hf'
      refine Or.inr ⟨s.asFifo, rfl, ?_⟩
      exact (step_fifo hs hP hstep).imp_right fun ⟨f, hf⟩ => ⟨f, trivial, hf⟩
    · intro f hf
      rw [← Option.some.inj hf]
      simp [asFifo, initial, Fifo.initial]
  obtain ⟨f, fs, rfl, hfs⟩ := hproject
  exact ⟨fs, hfs⟩

/-! ### Several hands -/

omit [DecidableEq α] in
/-- What has been handed over, in order. -/
def handedOver (s : Relay α) : List α := s.out ++ s.second

/-- What was taken from the first queue is the beginning of what was accepted, and the
item handed over in place `j` is one of the first `j + k` that were accepted. -/
structure Early (k : ℕ) (s : Relay α) : Prop where
  taken : ∃ taken : List α, s.accepted = taken ++ s.first
    ∧ (taken : Multiset α) = s.hands + s.second + s.out
  early : ∀ (j : ℕ) (a : α), s.handedOver[j]? = some a → ∃ i < j + k, s.accepted[i]? = some a

/-- At most `k` items are in hands. -/
def AtMost (k : ℕ) (s : Relay α) (_ : Event α) : Prop := s.hands.card ≤ k

/-- **Step lemma.** -/
theorem early_step {k : ℕ} {e : Event α} (h : Early k s) (hP : AtMost k s e)
    (hstep : s.step e = some s') : Early k s' := by
  obtain ⟨⟨taken, haccepted, htaken⟩, hearly⟩ := h
  cases e with
  | accept a =>
    cases hstep
    constructor
    · refine ⟨taken, ?_, htaken⟩
      show s.accepted ++ [a] = taken ++ (s.first ++ [a])
      rw [haccepted, List.append_assoc]
    · intro j b hb
      obtain ⟨i, hi, hget⟩ := hearly j b hb
      refine ⟨i, hi, ?_⟩
      rw [List.getElem?_append_left (List.getElem?_eq_some_iff.mp hget).1]
      exact hget
  | take =>
    obtain ⟨a, rest, hfirst, rfl⟩ := step_take hstep
    refine ⟨⟨taken ++ [a], ?_, ?_⟩, hearly⟩
    · show s.accepted = taken ++ [a] ++ rest
      rw [haccepted, hfirst, List.append_assoc]
      rfl
    · show ((taken ++ [a] : List α) : Multiset α) = a ::ₘ s.hands + s.second + s.out
      rw [coe_concat, htaken, ← Multiset.singleton_add]
      abel
  | handOver a =>
    obtain ⟨ha, rfl⟩ := step_handOver hstep
    have hsplit := Multiset.cons_erase ha
    constructor
    · refine ⟨taken, haccepted, ?_⟩
      show (taken : Multiset α)
        = s.hands.erase a + ((s.second ++ [a] : List α) : Multiset α) + s.out
      rw [coe_concat, htaken, ← hsplit, ← Multiset.singleton_add, Multiset.singleton_add,
        Multiset.erase_cons_head, ← Multiset.singleton_add]
      abel
    · intro j b hb
      have hb' : (s.handedOver ++ [a])[j]? = some b := by
        rw [handedOver, List.append_assoc]
        exact hb
      rcases lt_or_ge j s.handedOver.length with hlt | hge
      · rw [List.getElem?_append_left hlt] at hb'
        exact hearly j b hb'
      · -- the new one is among those that were taken
        rw [List.getElem?_append_right hge] at hb'
        obtain rfl : b = a := (List.mem_singleton.mp (List.mem_of_getElem? hb'))
        have hmem : b ∈ taken := by
          rw [← Multiset.mem_coe, htaken, Multiset.mem_add, Multiset.mem_add]
          exact Or.inl (Or.inl ha)
        obtain ⟨i, hi, hget⟩ := List.mem_iff_getElem.mp hmem
        have hcard := congrArg Multiset.card htaken
        rw [Multiset.coe_card, Multiset.card_add, Multiset.card_add, Multiset.coe_card,
          Multiset.coe_card] at hcard
        have hle : s.hands.card ≤ k := hP
        rw [handedOver, List.length_append] at hge
        refine ⟨i, by omega, ?_⟩
        show s.accepted[i]? = some b
        rw [haccepted, List.getElem?_append_left hi, List.getElem?_eq_getElem hi, hget]
  | putOut =>
    obtain ⟨a, rest, hsecond, rfl⟩ := step_putOut hstep
    constructor
    · refine ⟨taken, haccepted, ?_⟩
      show (taken : Multiset α) = s.hands + rest + ((s.out ++ [a] : List α) : Multiset α)
      rw [htaken, hsecond, coe_cons, coe_concat]
      abel
    · intro j b hb
      have hsame : s.handedOver = s.out ++ [a] ++ rest := by
        rw [handedOver, hsecond, List.append_assoc]
        rfl
      refine hearly j b ?_
      rw [hsame]
      exact hb

/-- **Run lemma.** -/
theorem early_run {k : ℕ} {es : List (Event α)}
    (h : GuardedSystem.Runs step (AtMost k) initial es s) : Early k s := by
  refine h.invariant (I := Early k) ⟨⟨[], rfl, rfl⟩, ?_⟩
    fun _ _ _ h hP hstep => early_step h hP hstep
  intro j a hj
  simp [handedOver, initial] at hj

end Relay
