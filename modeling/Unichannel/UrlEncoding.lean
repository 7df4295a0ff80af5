/-
# What `url_decode` accepts, and what it decodes

`escapes` are the bytes behind each `%` that no escape before it has consumed.  The
encoding is valid if all of them are two hexadecimal digits.  The decoder asks a string
stream instead, which takes less: one digit is enough (`Lax`), before any other byte or
behind white space or a sign.

* `urlDecode_rejects_iff`: an invalid encoding is rejected exactly when some escape is
  refused by the stream, or none is lax;
* `urlDecode_of_encodes`: every encoding of a string, byte by byte, decodes to it.
-/
import Unichannel.UrlDecode

namespace Unichannel

/-! ## Valid encodings -/

/-- The bytes behind the escapes: two, or less at the end. -/
def escapes : Bytes → List Bytes
  | [] => []
  | c :: rest =>
    if c = ch '%' then
      match rest with
      | a :: b :: rest' => [a, b] :: escapes rest'
      | short => [short]
    else escapes rest

/-- A percent sign starts an escape of two bytes. -/
theorem escapes_pair (a b : Byte) (rest : Bytes) :
    escapes (ch '%' :: a :: b :: rest) = [a, b] :: escapes rest := by
  rw [escapes.eq_def]
  exact if_pos rfl

theorem escapes_short {rest : Bytes} (h : rest.length < 2) : escapes (ch '%' :: rest) = [rest] := by
  match rest, h with
  | [], _ => rfl
  | [_], _ => rfl

theorem escapes_of_ne {c : Byte} (hc : c ≠ ch '%') (rest : Bytes) :
    escapes (c :: rest) = escapes rest := by
  rw [escapes.eq_def]
  exact if_neg hc

/-- A hexadecimal digit. -/
def HexByte (c : Byte) : Prop :=
  ((ch '0').toNat ≤ c.toNat ∧ c.toNat ≤ (ch '9').toNat)
    ∨ ((ch 'a').toNat ≤ c.toNat ∧ c.toNat ≤ (ch 'f').toNat)
    ∨ ((ch 'A').toNat ≤ c.toNat ∧ c.toNat ≤ (ch 'F').toNat)

instance : DecidablePred HexByte := fun _ => inferInstanceAs (Decidable (_ ∨ _ ∨ _))

/-- Two hexadecimal digits. -/
def TwoHex (p : Bytes) : Prop := ∃ a b, p = [a, b] ∧ HexByte a ∧ HexByte b

/-- Every escape is followed by two hexadecimal digits. -/
def ValidEncoding (input : Bytes) : Prop := ∀ p ∈ escapes input, TwoHex p

/-- `url_decode` returns true for a valid encoding only. -/
def RejectsInvalid (input : Bytes) : Prop := (urlDecode input).1 = true → ValidEncoding input

/-! ## What the stream takes -/

/-- What an extraction passes over before the first digit. -/
def SkippedByte (c : Byte) : Prop := isSpace c = true ∨ c = ch '-' ∨ c = ch '+'

/-- The start `0x` of a number without digits. -/
def ZeroX (a b : Byte) : Prop := a = ch '0' ∧ (b = ch 'x' ∨ b = ch 'X')

/-- Two bytes with one digit that is enough for the stream. -/
def Lax (p : Bytes) : Prop :=
  ∃ a b, p = [a, b]
    ∧ ((HexByte a ∧ ¬ HexByte b ∧ ¬ ZeroX a b) ∨ (SkippedByte a ∧ HexByte b))

/-- Anything else: fewer than two bytes, or no digit to read. -/
def Refused (p : Bytes) : Prop := ¬ TwoHex p ∧ ¬ Lax p

/-- The bytes with a value are the hexadecimal digits. -/
theorem hexValue_eq_none_iff (c : Byte) : hexValue c = none ↔ ¬ HexByte c := by
  unfold hexValue HexByte
  split_ifs with h₁ h₂ h₃
  · simp [h₁]
  · simp [h₂]
  · simp [h₃]
  · simp only [h₁, h₂, h₃, or_self, not_false_iff]

/-- No digit is read where none stands. -/
theorem hexDigits_eq_nil_iff (c : Byte) (rest : Bytes) :
    hexDigits (c :: rest) = [] ↔ ¬ HexByte c := by
  rw [hexDigits, ← hexValue_eq_none_iff]
  cases hexValue c <;> simp

/-- White space and signs are no digits. -/
theorem SkippedByte.not_hex {c : Byte} (h : SkippedByte c) : ¬ HexByte c := by
  rcases h with h | rfl | rfl
  · rw [isSpace, decide_eq_true_iff] at h
    simp only [List.mem_cons, List.not_mem_nil, or_false] at h
    rcases h with rfl | rfl | rfl | rfl | rfl | rfl <;> decide
  · decide
  · decide

/-- The `x` of `0x` is not a digit. -/
theorem ZeroX.not_hex {a b : Byte} (h : ZeroX a b) : ¬ HexByte b := by
  rcases h with ⟨-, rfl | rfl⟩ <;> decide

/-- From one byte a number is read if it is a digit. -/
theorem hexMagnitude_single_eq_none_iff (b : Byte) : hexMagnitude [b] = none ↔ ¬ HexByte b := by
  have hmag : hexMagnitude [b]
      = if hexDigits [b] = [] then none
        else some ((hexDigits [b]).foldl (fun a d => a * 16 + d) 0) := rfl
  rw [hmag, ← hexDigits_eq_nil_iff b []]
  simp

/-- Behind `0x` there is no digit left. -/
theorem hexMagnitude_of_zeroX {a b : Byte} (h : ZeroX a b) : hexMagnitude [a, b] = none := by
  obtain ⟨rfl, rfl | rfl⟩ := h <;> rfl

/-- Otherwise the leading digits are read. -/
theorem hexMagnitude_of_not_zeroX {a b : Byte} (h : ¬ ZeroX a b) :
    hexMagnitude [a, b]
      = if hexDigits [a, b] = [] then none
        else some ((hexDigits [a, b]).foldl (fun a d => a * 16 + d) 0) := by
  have hmag : hexMagnitude [a, b]
      = if (if a = ch '0' ∧ (b = ch 'x' ∨ b = ch 'X') then hexDigits [] else hexDigits [a, b]) = []
        then none
        else some ((if a = ch '0' ∧ (b = ch 'x' ∨ b = ch 'X') then hexDigits []
          else hexDigits [a, b]).foldl (fun a d => a * 16 + d) 0) := rfl
  rw [hmag, if_neg (show ¬ (a = ch '0' ∧ (b = ch 'x' ∨ b = ch 'X')) from h)]

/-- From two bytes a number is read if the first one is a digit, but not from `0x`. -/
theorem hexMagnitude_pair_eq_none_iff (a b : Byte) :
    hexMagnitude [a, b] = none ↔ ¬ HexByte a ∨ ZeroX a b := by
  by_cases h : ZeroX a b
  · simp [hexMagnitude_of_zeroX h, h]
  · rw [hexMagnitude_of_not_zeroX h, ← hexDigits_eq_nil_iff a [b]]
    simp [h]

/-- The extraction from one byte. -/
theorem extractHex_single_eq_none_iff (b : Byte) : extractHex [b] = none ↔ ¬ HexByte b := by
  by_cases hb : SkippedByte b
  · refine iff_of_true ?_ hb.not_hex
    rcases hb with hb | rfl | rfl
    · rw [extractHex, List.dropWhile_cons_of_pos hb]
      rfl
    · rfl
    · rfl
  · obtain ⟨hspace, hminus, hplus⟩ := not_or.mp hb |>.imp_right not_or.mp
    have hext : extractHex [b] = (hexMagnitude [b]).map fun n : ℕ => (n : ℤ) := by
      rw [extractHex, List.dropWhile_cons_of_neg hspace]
      simp only [hminus, hplus, if_false]
      cases hexMagnitude [b] <;> rfl
    rw [hext, Option.map_eq_none_iff, hexMagnitude_single_eq_none_iff]

/-- Behind a byte that is passed over, the second byte decides. -/
theorem extractHex_of_skipped {a : Byte} (ha : SkippedByte a) (b : Byte) :
    extractHex [a, b] = none ↔ ¬ HexByte b := by
  rcases ha with ha | rfl | rfl
  · have hext : extractHex [a, b] = extractHex [b] := by
      rw [extractHex, List.dropWhile_cons_of_pos ha, extractHex]
    rw [hext, extractHex_single_eq_none_iff]
  · have hext : extractHex [ch '-', b] = (hexMagnitude [b]).map fun n : ℕ => -(n : ℤ) := by
      show Option.map _ (Option.bind (hexMagnitude [b]) _) = _
      cases hexMagnitude [b] <;> rfl
    rw [hext, Option.map_eq_none_iff, hexMagnitude_single_eq_none_iff]
  · have hext : extractHex [ch '+', b] = (hexMagnitude [b]).map fun n : ℕ => (n : ℤ) := by
      show Option.map _ (Option.bind (hexMagnitude [b]) _) = _
      cases hexMagnitude [b] <;> rfl
    rw [hext, Option.map_eq_none_iff, hexMagnitude_single_eq_none_iff]

/-- Otherwise the two bytes are the field. -/
theorem extractHex_of_not_skipped {a : Byte} (ha : ¬ SkippedByte a) (b : Byte) :
    extractHex [a, b] = (hexMagnitude [a, b]).map fun n : ℕ => (n : ℤ) := by
  obtain ⟨hspace, hminus, hplus⟩ := not_or.mp ha |>.imp_right not_or.mp
  rw [extractHex, List.dropWhile_cons_of_neg hspace]
  simp only [hminus, hplus, if_false]
  cases hexMagnitude [a, b] <;> rfl

/-- An escape in the sense of the comment. -/
theorem twoHex_pair_iff (a b : Byte) : TwoHex [a, b] ↔ HexByte a ∧ HexByte b := by
  simp [TwoHex]

/-- An escape that is taken although it is none. -/
theorem lax_pair_iff (a b : Byte) :
    Lax [a, b] ↔ (HexByte a ∧ ¬ HexByte b ∧ ¬ ZeroX a b) ∨ (SkippedByte a ∧ HexByte b) := by
  simp [Lax]

/-- **The extraction from two bytes fails exactly if they are refused.** -/
theorem extractHex_eq_none_iff (a b : Byte) : extractHex [a, b] = none ↔ Refused [a, b] := by
  have hzero : ZeroX a b → ¬ HexByte b := ZeroX.not_hex
  rw [Refused, twoHex_pair_iff, lax_pair_iff]
  by_cases ha : SkippedByte a
  · have hhex : ¬ HexByte a := ha.not_hex
    rw [extractHex_of_skipped ha]
    tauto
  · rw [extractHex_of_not_skipped ha, Option.map_eq_none_iff, hexMagnitude_pair_eq_none_iff]
    tauto

/-! ## Rejection -/

/-- An escape that is cut off is refused. -/
theorem refused_of_length_ne {p : Bytes} (h : p.length ≠ 2) : Refused p := by
  constructor
  · rintro ⟨a, b, rfl, -⟩
    exact h rfl
  · rintro ⟨a, b, rfl, -⟩
    exact h rfl

/-- **The decoder succeeds exactly if no escape is refused.** -/
theorem urlDecodeLoop_fst_iff (out input : Bytes) :
    (urlDecodeLoop out input).1 = true ↔ ∀ p ∈ escapes input, ¬ Refused p := by
  fun_induction urlDecodeLoop out input with
  | case1 out => simp [escapes]
  | case2 out a b rest' value hvalue ih =>
    have hok : ¬ Refused [a, b] := by
      rw [← extractHex_eq_none_iff, hvalue]
      simp
    rw [ih, escapes_pair, List.forall_mem_cons]
    exact ⟨fun h => ⟨hok, h⟩, fun h => h.2⟩
  | case3 out a b rest' hnone =>
    have hrefused : Refused [a, b] := (extractHex_eq_none_iff a b).mp hnone
    rw [escapes_pair, List.forall_mem_cons]
    exact iff_of_false Bool.false_ne_true fun h => h.1 hrefused
  | case4 out rest hshort =>
    have hlength : rest.length < 2 := by
      match rest, hshort with
      | [], _ => exact Nat.zero_lt_two
      | [_], _ => exact Nat.one_lt_two
      | a :: b :: rest', hshort => exact absurd rfl (hshort a b rest')
    rw [escapes_short hlength]
    refine iff_of_false Bool.false_ne_true fun h => h rest List.mem_cons_self ?_
    exact refused_of_length_ne (by omega)
  | case5 out rest hne ih => rw [ih, escapes_of_ne hne]
  | case6 out c rest hpercent hplus ih => rw [ih, escapes_of_ne hpercent]

/-- The three kinds of escapes exclude each other. -/
theorem twoHex_iff (p : Bytes) : TwoHex p ↔ ¬ Refused p ∧ ¬ Lax p := by
  constructor
  · intro h
    refine ⟨fun hrefused => hrefused.1 h, ?_⟩
    obtain ⟨a, b, rfl, ha, hb⟩ := h
    rw [lax_pair_iff]
    rintro (⟨-, hnot, -⟩ | ⟨hskip, -⟩)
    · exact hnot hb
    · exact hskip.not_hex ha
  · rintro ⟨hrefused, hlax⟩
    by_contra h
    exact hrefused ⟨h, hlax⟩

/-- **Rejection of invalid encodings.**  For every input, `url_decode` returns true for a
valid encoding only, exactly if one of its escapes is refused or none is lax. -/
theorem urlDecode_rejects_iff (input : Bytes) :
    RejectsInvalid input
      ↔ (∃ p ∈ escapes input, Refused p) ∨ ∀ p ∈ escapes input, ¬ Lax p := by
  rw [RejectsInvalid, urlDecode, urlDecodeLoop_fst_iff]
  constructor
  · intro h
    by_cases hrefused : ∃ p ∈ escapes input, Refused p
    · exact Or.inl hrefused
    · have hok : ∀ p ∈ escapes input, ¬ Refused p := fun p hp hr => hrefused ⟨p, hp, hr⟩
      exact Or.inr fun p hp => ((twoHex_iff p).mp (h hok p hp)).2
  · rintro (⟨p, hp, hrefused⟩ | hlax) hok
    · exact absurd hrefused (hok p hp)
    · exact fun p hp => (twoHex_iff p).mpr ⟨hok p hp, hlax p hp⟩

/-- One digit before another byte is taken for an escape. -/
theorem not_urlDecode_rejects : ¬ ∀ input : Bytes, RejectsInvalid input := by
  intro h
  have hdecoded : (urlDecode (str "/%4g")).1 = true := by decide +kernel
  have hvalid : TwoHex (str "4g") := h (str "/%4g") hdecoded (str "4g") List.mem_cons_self
  rw [show str "4g" = [ch '4', ch 'g'] from rfl, twoHex_pair_iff] at hvalid
  exact absurd hvalid (by decide)

/-! ## Encodings of a string -/

/-- `c` is the hexadecimal digit `d`, in one of the two cases. -/
def HexDigitOf (d : ℕ) (c : Byte) : Prop :=
  (str "0123456789abcdef")[d]? = some c ∨ (str "0123456789ABCDEF")[d]? = some c

/-- `Encodes s e`: each byte of `s` is written in `e` as itself, as `+`, or as an
escape. -/
inductive Encodes : Bytes → Bytes → Prop
  | nil : Encodes [] []
  | literal {s e : Bytes} {b : Byte} (hpercent : b ≠ ch '%') (hplus : b ≠ ch '+') :
      Encodes s e → Encodes (b :: s) (b :: e)
  | plus {s e : Bytes} : Encodes s e → Encodes (ch ' ' :: s) (ch '+' :: e)
  | escape {s e : Bytes} {b hi lo : Byte} (hhi : HexDigitOf (b.toNat / 16) hi)
      (hlo : HexDigitOf (b.toNat % 16) lo) :
      Encodes s e → Encodes (b :: s) (ch '%' :: hi :: lo :: e)

/-- Text without `%` and `+` is an encoding of itself. -/
theorem encodes_self {s : Bytes} (h : ∀ b ∈ s, b ≠ ch '%' ∧ b ≠ ch '+') : Encodes s s := by
  induction s with
  | nil => exact Encodes.nil
  | cons b s ih =>
    obtain ⟨hpercent, hplus⟩ := h b List.mem_cons_self
    exact Encodes.literal hpercent hplus (ih fun c hc => h c (List.mem_cons_of_mem b hc))

/-- Encodings can be put together. -/
theorem Encodes.append {s s' e e' : Bytes} (h : Encodes s e) (h' : Encodes s' e') :
    Encodes (s ++ s') (e ++ e') := by
  induction h with
  | nil => exact h'
  | literal hpercent hplus _ ih => exact literal hpercent hplus ih
  | plus _ ih => exact plus ih
  | escape hhi hlo _ ih => exact escape hhi hlo ih

/-- A digit, in either case, has its value. -/
theorem hexValue_of_hexDigitOf {d : ℕ} {c : Byte} (h : HexDigitOf d c) : hexValue c = some d := by
  have hd : d < 16 := by
    rcases h with h | h
    · exact (List.getElem?_eq_some_iff.mp h).1
    · exact (List.getElem?_eq_some_iff.mp h).1
  rcases h with h | h
  · interval_cases d <;> exact Option.some.inj h ▸ rfl
  · interval_cases d <;> exact Option.some.inj h ▸ rfl

theorem hexByte_of_hexDigitOf {d : ℕ} {c : Byte} (h : HexDigitOf d c) : HexByte c := by
  by_contra hnot
  rw [← hexValue_eq_none_iff, hexValue_of_hexDigitOf h] at hnot
  cases hnot

/-- The stream reads two digits as the number they denote. -/
theorem extractHex_digits {x y : ℕ} {a b : Byte} (ha : HexDigitOf x a) (hb : HexDigitOf y b) :
    extractHex [a, b] = some ((x * 16 + y : ℕ) : ℤ) := by
  have hskip : ¬ SkippedByte a := fun h => h.not_hex (hexByte_of_hexDigitOf ha)
  have hzero : ¬ ZeroX a b := fun h => h.not_hex (hexByte_of_hexDigitOf hb)
  have hdigits : hexDigits [a, b] = [x, y] := by
    rw [hexDigits, hexValue_of_hexDigitOf ha, hexDigits, hexValue_of_hexDigitOf hb]
    rfl
  rw [extractHex_of_not_skipped hskip, hexMagnitude_of_not_zeroX hzero, hdigits,
    if_neg (List.cons_ne_nil x [y]), Option.map_some]
  simp

/-- The conversion to a character gives a byte back. -/
theorem castChar_toNat (b : Byte) : castChar (b.toNat : ℤ) = b := by
  have hlt := b.toNat_lt
  have hmod : ((b.toNat : ℤ) % 256).toNat = b.toNat := by omega
  rw [castChar, hmod, UInt8.ofNat_toNat]

/-- The decoder appends what is encoded to what it holds. -/
theorem urlDecodeLoop_of_encodes {s e : Bytes} (h : Encodes s e) (out : Bytes) :
    urlDecodeLoop out e = (true, out ++ s) := by
  induction h generalizing out with
  | nil => rw [urlDecodeLoop, List.append_nil]
  | @literal s e b hpercent hplus _ ih =>
    rw [urlDecodeLoop.eq_def]
    simp only [hpercent, hplus, if_false]
    rw [ih, List.append_assoc]
    rfl
  | @plus s e _ ih =>
    rw [urlDecodeLoop.eq_def]
    show urlDecodeLoop (out ++ [ch ' ']) e = _
    rw [ih, List.append_assoc]
    rfl
  | @escape s e b hi lo hhi hlo _ ih =>
    have hvalue : b.toNat / 16 * 16 + b.toNat % 16 = b.toNat := by omega
    have hext : extractHex [hi, lo] = some (b.toNat : ℤ) := by
      rw [extractHex_digits hhi hlo, hvalue]
    rw [urlDecodeLoop.eq_def]
    simp only [if_true, hext, castChar_toNat]
    rw [ih, List.append_assoc]
    rfl

/-- **Decoding.**  Every encoding of a string is decoded to it. -/
theorem urlDecode_of_encodes {s e : Bytes} (h : Encodes s e) : urlDecode e = (true, s) :=
  urlDecodeLoop_of_encodes h []

/-- The byte 255, a space and a letter, with an escape at the end. -/
theorem urlDecode_of_encodes_example :
    urlDecode (str "%fF+%41") = (true, [255, ch ' ', ch 'A']) := by
  have hletter : Encodes [ch 'A'] (str "%41") := .escape (Or.inl rfl) (Or.inl rfl) .nil
  exact urlDecode_of_encodes (.escape (Or.inl rfl) (Or.inr rfl) (.plus hletter))

end Unichannel
