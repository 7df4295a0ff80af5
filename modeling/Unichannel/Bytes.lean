/-
# Bytes, characters and string literals

The program's `char` is an 8-bit byte; the parser's predicates take an `int`,
so a byte is promoted with the sign it has as a `char` (`charToInt`).  String
and character literals of the source are written `str "..."` and `ch '.'`.
-/
import Unichannel.Lib.Decimal

namespace Unichannel

/-- A `char` of the program. -/
abbrev Byte := UInt8

/-- The contents of a `std::string`. -/
abbrev Bytes := List Byte

/-- A character literal. -/
def ch (c : Char) : Byte := UInt8.ofNat c.toNat

/-- A string literal. -/
def str (s : String) : Bytes := s.toList.map ch

/-- The value a `char` has when it is promoted to `int` (plain `char` is
signed). -/
def charToInt (c : Byte) : ℤ := if c.toNat < 128 then c.toNat else (c.toNat : ℤ) - 256

/-- The character of a decimal digit. -/
def digitByte (d : ℕ) : Byte := UInt8.ofNat (48 + d)

/-- `std::to_string` of an unsigned number. -/
def stdToString (n : ℕ) : Bytes := (Decimal.digits n).map digitByte

/-- The number a string of decimal digits denotes. -/
def decimalNumber (s : Bytes) : ℕ := Decimal.value 0 (s.map fun b => b.toNat - (ch '0').toNat)

/-- The line end `crlf` of HttpReply.h. -/
def crlf : Bytes := [ch '\r', ch '\n']

theorem toNat_digitByte {d : ℕ} (hd : d < 10) : (digitByte d).toNat = 48 + d := by
  rw [digitByte, UInt8.toNat_ofNat']
  omega

/-- A class that holds the elements of a list and one more holds the list with it at the
back. -/
theorem forall_mem_concat {α : Type*} {p : α → Prop} {l : List α} {a : α} (h : ∀ b ∈ l, p b)
    (ha : p a) : ∀ b ∈ l ++ [a], p b := by
  intro b hb
  rcases List.mem_append.mp hb with hb | hb
  · exact h b hb
  · rw [List.mem_singleton.mp hb]
    exact ha

/-- A printed number reads back as itself. -/
theorem decimalNumber_stdToString (n : ℕ) : decimalNumber (stdToString n) = n := by
  have hmap : ((Decimal.digits n).map digitByte).map (fun b => b.toNat - (ch '0').toNat)
      = Decimal.digits n := by
    rw [List.map_map]
    conv_rhs => rw [← List.map_id (Decimal.digits n)]
    refine List.map_congr_left (fun d hd => ?_)
    have h0 : (ch '0').toNat = 48 := by decide
    rw [Function.comp_apply, toNat_digitByte (Decimal.lt_ten_of_mem_digits hd), h0, id]
    omega
  rw [decimalNumber, stdToString, hmap, Decimal.value_digits]

end Unichannel
