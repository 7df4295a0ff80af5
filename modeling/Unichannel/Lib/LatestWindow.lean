/-
# The latest few

A window keeps a fixed number of items in the order of a key.  An item that comes in is
put in its place, behind those with the same key, and the item in front goes out, which
may be the one that has just come in.

* `Latest.push`: what goes out is never later than what stays;
* `Latest.keys_eq`: so the keys in the window are the last ones of all keys in order,
  whatever the order in which the items came in;
* `Latest.unique`: with different keys so are the items.
-/
import Mathlib.Data.List.DropRight
import Mathlib.Data.List.Sort
import Mathlib.Data.Multiset.Sort

namespace LatestWindow

variable {α β : Type*} [LinearOrder β] (key : α → β)

/-- Put an item in its place, going from the back past the items with a larger key. -/
def insert (a : α) (l : List α) : List α :=
  l.rdropWhile (fun b => key a < key b) ++ a :: l.rtakeWhile (fun b => key a < key b)

/-- Put an item in its place and let the one in front go. -/
def push (a : α) (l : List α) : List α := (insert key a l).tail

/-- The list is in the order of the key. -/
def InOrder (l : List α) : Prop := l.Pairwise fun a b => key a ≤ key b

/-- An item that is inserted is one of the list. -/
theorem insert_perm (a : α) (l : List α) : (insert key a l).Perm (a :: l) := by
  unfold insert
  refine List.perm_middle.trans (List.Perm.cons a ?_)
  rw [List.rdropWhile_append_rtakeWhile]

theorem length_insert (a : α) (l : List α) : (insert key a l).length = l.length + 1 := by
  rw [(insert_perm key a l).length_eq, List.length_cons]

theorem length_push (a : α) (l : List α) : (push key a l).length = l.length := by
  rw [push, List.length_tail, length_insert, Nat.add_sub_cancel]

variable {key}

/-- The items that are not passed are not later. -/
theorem le_of_mem_rdropWhile {a b : α} {l : List α} (h : InOrder key l)
    (hb : b ∈ l.rdropWhile fun b => key a < key b) : key b ≤ key a := by
  have hne : (l.rdropWhile fun b => key a < key b) ≠ [] := List.ne_nil_of_mem hb
  have hlast := List.rdropWhile_last_not (fun b => decide (key a < key b)) l hne
  have hsorted : InOrder key (l.rdropWhile fun b => key a < key b) :=
    List.Pairwise.sublist (List.rdropWhile_prefix _ _).sublist h
  rw [decide_eq_true_eq, not_lt] at hlast
  -- the last one is not later than `a`, and the others are not later than that one
  rw [← List.dropLast_append_getLast hne] at hb hsorted
  rcases List.mem_append.mp hb with hb | hb
  · have hle := (List.pairwise_append.mp hsorted).2.2 b hb _ (List.mem_singleton_self _)
    exact le_trans hle hlast
  · rw [List.mem_singleton.mp hb]
    exact hlast

/-- An item is inserted in its place. -/
theorem inOrder_insert {l : List α} (h : InOrder key l) (a : α) : InOrder key (insert key a l) := by
  unfold insert InOrder
  rw [List.pairwise_append, List.pairwise_cons]
  refine ⟨List.Pairwise.sublist (List.rdropWhile_prefix _ _).sublist h, ⟨?_, ?_⟩, ?_⟩
  · intro b hb
    have hlt := List.mem_rtakeWhile_imp hb
    exact (of_decide_eq_true hlt).le
  · exact List.Pairwise.sublist (List.rtakeWhile_suffix _ _).sublist h
  · intro b hb c hc
    have hba := le_of_mem_rdropWhile h hb
    rcases List.mem_cons.mp hc with rfl | hc
    · exact hba
    · have hlt := List.mem_rtakeWhile_imp hc
      exact hba.trans (of_decide_eq_true hlt).le

/-- The window is in order, and everything else is not later than what is in it. -/
structure Latest (key : α → β) (all : Multiset α) (window : List α) : Prop where
  inOrder : InOrder key window
  latest : ∃ dropped : Multiset α, all = dropped + window
    ∧ ∀ a ∈ dropped, ∀ b ∈ window, key a ≤ key b

/-- A window in order shows the latest of itself. -/
theorem Latest.init {l : List α} (h : InOrder key l) : Latest key l l :=
  ⟨h, 0, (Multiset.zero_add _).symm, fun _ ha => absurd ha (Multiset.notMem_zero _)⟩

/-- **Step lemma.** -/
theorem Latest.push {all : Multiset α} {window : List α} (h : Latest key all window) (a : α) :
    Latest key (a ::ₘ all) (push key a window) := by
  have hsorted := inOrder_insert h.inOrder a
  have hperm := insert_perm key a window
  obtain ⟨dropped, hall, hle⟩ := h.latest
  unfold LatestWindow.push
  cases hins : insert key a window with
  | nil =>
    rw [hins] at hperm
    exact absurd hperm.symm.eq_nil (List.cons_ne_nil a window)
  | cons first rest =>
    rw [hins] at hsorted hperm
    unfold InOrder at hsorted
    rw [List.pairwise_cons] at hsorted
    refine ⟨hsorted.2, first ::ₘ dropped, ?_, ?_⟩
    · have hcoe : (a ::ₘ (window : Multiset α)) = first ::ₘ (rest : Multiset α) :=
        Multiset.coe_eq_coe.mpr hperm.symm
      rw [hall, List.tail_cons, Multiset.cons_add, ← Multiset.add_cons, hcoe, Multiset.add_cons]
    · intro b hb c hc
      rw [List.tail_cons] at hc
      rcases Multiset.mem_cons.mp hb with rfl | hb
      · exact hsorted.1 c hc
      · rcases List.mem_cons.mp (hperm.subset (List.mem_cons_of_mem first hc)) with rfl | hc'
        · -- the new item stays, so the item that goes out was in the window
          rcases List.mem_cons.mp (hperm.subset List.mem_cons_self) with rfl | hfirst
          · exact hle b hb first (hperm.cons_inv.subset hc)
          · exact (hle b hb first hfirst).trans (hsorted.1 c hc)
        · exact hle b hb c hc'

/-- **The keys in the window** are the last ones of all keys in order. -/
theorem Latest.keys_eq {all : Multiset α} {window : List α} (h : Latest key all window) :
    window.map key = ((all.map key).sort).drop (all.card - window.length) := by
  obtain ⟨dropped, hall, hle⟩ := h.latest
  have hcard : all.card - window.length = ((dropped.map key).sort).length := by
    rw [hall, Multiset.card_add, Multiset.coe_card, Multiset.length_sort, Multiset.card_map]
    omega
  have hsplit : (all.map key).sort = (dropped.map key).sort ++ window.map key := by
    apply List.Perm.eq_of_pairwise' (r := (· ≤ ·))
    · exact Multiset.pairwise_sort _ _
    · rw [List.pairwise_append]
      refine ⟨Multiset.pairwise_sort _ _, List.pairwise_map.mpr h.inOrder, ?_⟩
      intro x hx y hy
      obtain ⟨a, ha, rfl⟩ := Multiset.mem_map.mp ((Multiset.mem_sort _).mp hx)
      obtain ⟨b, hb, rfl⟩ := List.mem_map.mp hy
      exact hle a ha b hb
    · apply Multiset.coe_eq_coe.mp
      rw [← Multiset.coe_add, Multiset.sort_eq, Multiset.sort_eq, hall, Multiset.map_add,
        Multiset.map_coe]
  rw [hsplit, hcard, List.drop_left]

/-- **With different keys** the window does not depend on the order either. -/
theorem Latest.unique {all : Multiset α} {window window' : List α} (h : Latest key all window)
    (h' : Latest key all window') (hlength : window.length = window'.length)
    (hkey : ∀ a ∈ all, ∀ b ∈ all, key a = key b → a = b) : window = window' := by
  have hmem : ∀ {w : List α}, Latest key all w → ∀ a ∈ w, a ∈ all := by
    intro w hw a ha
    obtain ⟨dropped, hall, -⟩ := hw.latest
    rw [hall]
    exact Multiset.mem_add.mpr (Or.inr (Multiset.mem_coe.mpr ha))
  have hkeys : window.map key = window'.map key := by
    rw [h.keys_eq, h'.keys_eq, hlength]
  apply List.ext_getElem hlength
  intro i hi hi'
  apply hkey _ (hmem h _ (List.getElem_mem hi)) _ (hmem h' _ (List.getElem_mem hi'))
  have hget := congrArg (fun l => l[i]?) hkeys
  simpa [List.getElem?_eq_getElem hi, List.getElem?_eq_getElem hi'] using hget

end LatestWindow
