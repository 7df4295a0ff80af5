/-
# Languages built from symbol classes

Membership of a nonempty word in the languages one writes down for a line
protocol: a symbol of a class, a fixed word, an unbounded repetition, each
followed by the rest of the message.  The lemmas read a word one symbol at a
time, so that a grammar given as a product can be compared with an automaton.
-/
import Mathlib.Computability.Language

open Computability

namespace SymbolLanguage

variable {β : Type*}

/-- The words of one symbol of the class `p`. -/
def single (p : β → Prop) : Language β := {w | ∃ b, p b ∧ w = [b]}

/-- One fixed word. -/
def word (w : List β) : Language β := {w}

/-- One or more symbols of the class `p`. -/
def plus (p : β → Prop) : Language β := single p * (single p)∗

/-- The words of a class are its symbols. -/
theorem mem_single {p : β → Prop} {w : List β} : w ∈ single p ↔ ∃ b, p b ∧ w = [b] := Iff.rfl

/-- The language of a word has this word only. -/
theorem mem_word {v w : List β} : w ∈ word v ↔ w = v := Iff.rfl

/-- A fixed word is read symbol by symbol. -/
theorem word_cons (b : β) (w : List β) : word (b :: w) = single (· = b) * word w := by
  ext z
  rw [mem_word, Language.mem_mul]
  constructor
  · rintro rfl
    exact ⟨[b], ⟨b, rfl, rfl⟩, w, rfl, rfl⟩
  · rintro ⟨-, ⟨c, rfl, rfl⟩, -, rfl, rfl⟩
    rfl

/-- The empty word is the unit of concatenation. -/
theorem word_nil : word ([] : List β) = 1 := rfl

/-- A word of one symbol is the class of this symbol. -/
theorem word_singleton (b : β) : word [b] = single (· = b) := by
  rw [word_cons, word_nil, mul_one]

/-! ## Reading the first symbol -/

/-- A symbol is not the empty word. -/
@[simp] theorem nil_notMem_single (p : β → Prop) : [] ∉ single p := by
  simp [mem_single]

/-- A word of a class has nothing behind its first symbol. -/
@[simp] theorem cons_mem_single (p : β → Prop) (b : β) (w : List β) :
    b :: w ∈ single p ↔ p b ∧ w = [] := by
  simp [mem_single]

/-- What starts with a symbol of a class is not empty. -/
@[simp] theorem nil_notMem_single_mul (p : β → Prop) (L : Language β) :
    [] ∉ single p * L := by
  rintro ⟨-, ⟨b, -, rfl⟩, z, -, h⟩
  exact absurd h (by simp)

/-- **The derivative** by a symbol: the class takes it and the rest follows. -/
@[simp] theorem cons_mem_single_mul (p : β → Prop) (L : Language β) (b : β) (w : List β) :
    b :: w ∈ single p * L ↔ p b ∧ w ∈ L := by
  rw [Language.mem_mul]
  constructor
  · rintro ⟨-, ⟨c, hc, rfl⟩, z, hz, h⟩
    obtain ⟨rfl, rfl⟩ := List.cons.inj h
    exact ⟨hc, hz⟩
  · rintro ⟨hb, hw⟩
    exact ⟨[b], ⟨b, hb, rfl⟩, w, hw, rfl⟩

/-- Unfolding one round of a repetition that is followed by `L`. -/
theorem kstar_mul_eq (K L : Language β) : K∗ * L = K * (K∗ * L) + L := by
  conv_lhs => rw [← Language.one_add_self_mul_kstar_eq_kstar, add_mul, one_mul, mul_assoc]
  rw [add_comm]

/-- Behind any number of symbols, the empty word is one of the rest. -/
@[simp] theorem nil_mem_kstar_single_mul (p : β → Prop) (L : Language β) :
    [] ∈ (single p)∗ * L ↔ [] ∈ L := by
  rw [kstar_mul_eq, Language.mem_add]
  simp

/-- The derivative behind any number of symbols: one more of them, or the rest begins. -/
@[simp] theorem cons_mem_kstar_single_mul (p : β → Prop) (L : Language β) (b : β)
    (w : List β) :
    b :: w ∈ (single p)∗ * L ↔ (p b ∧ w ∈ (single p)∗ * L) ∨ b :: w ∈ L := by
  rw [kstar_mul_eq, Language.mem_add, cons_mem_single_mul, ← kstar_mul_eq]

/-- Behind at least one symbol, no word is empty. -/
@[simp] theorem nil_notMem_plus_mul (p : β → Prop) (L : Language β) : [] ∉ plus p * L := by
  rw [plus, mul_assoc]
  exact nil_notMem_single_mul p _

/-- The derivative behind at least one symbol: that is the first one. -/
@[simp] theorem cons_mem_plus_mul (p : β → Prop) (L : Language β) (b : β) (w : List β) :
    b :: w ∈ plus p * L ↔ p b ∧ w ∈ (single p)∗ * L := by
  rw [plus, mul_assoc, cons_mem_single_mul]

end SymbolLanguage
