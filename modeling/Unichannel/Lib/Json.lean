/-
# JSON texts that are arrays of numbers

A reader for the part of JSON that numbers and arrays make up: white space, the number
grammar (an optional sign, an integer without leading zeros, an optional fraction, an
optional exponent) and arrays, nested to any depth.  `number` is the exact value of the
number's text, a rational; `array` takes the reader of its elements.  A reader returns the
value and the text behind it, and `decode` wants nothing but white space there.

`Reads value txt a` says that `txt`, with something behind it that can follow a value, is
read as `a`: `reads_intText` for the decimal text of an integer, and `reads_array` for an
array, once it holds of the elements.
-/
import Mathlib.Algebra.Field.Rat
import Mathlib.Data.List.Forall2
import Unichannel.Lib.Decimal

namespace Json

/-! ## The reader -/

/-- White space between the tokens. -/
def isWhiteSpace (c : Char) : Bool := c = ' ' ∨ c = '\t' ∨ c = '\n' ∨ c = '\r'

def skipSpace (s : List Char) : List Char := s.dropWhile isWhiteSpace

/-- The digits in front. -/
def leadingDigits (s : List Char) : List ℕ :=
  (s.takeWhile Char.isDigit).map fun c => c.toNat - '0'.toNat

/-- One digit or more, and what they denote. -/
def digits (s : List Char) : Option (List ℕ × List Char) :=
  if leadingDigits s = [] then none else some (leadingDigits s, s.dropWhile Char.isDigit)

/-- The integer part: no zero in front of another digit. -/
def intPart (s : List Char) : Option (ℕ × List Char) :=
  match digits s with
  | none => none
  | some (ds, t) =>
    if ds.head? = some 0 ∧ ds.length ≠ 1 then none else some (Decimal.value 0 ds, t)

/-- The fraction, if there is one. -/
def fracPart : List Char → Option (ℚ × List Char)
  | '.' :: s => (digits s).map fun r => (Decimal.value 0 r.1 / 10 ^ r.1.length, r.2)
  | s => some (0, s)

/-- The sign of an exponent. -/
def expSign : List Char → ℤ × List Char
  | '-' :: s => (-1, s)
  | '+' :: s => (1, s)
  | s => (1, s)

/-- The exponent, if there is one. -/
def expPart : List Char → Option (ℤ × List Char)
  | [] => some (0, [])
  | c :: s =>
    if c = 'e' ∨ c = 'E' then
      (digits (expSign s).2).map fun r => ((expSign s).1 * Decimal.value 0 r.1, r.2)
    else some (0, c :: s)

/-- The sign of a number. -/
def minus : List Char → ℚ × List Char
  | '-' :: s => (-1, s)
  | s => (1, s)

/-- A number. -/
def number (s : List Char) : Option (ℚ × List Char) := do
  let (i, s₁) ← intPart (minus s).2
  let (f, s₂) ← fracPart s₁
  let (e, s₃) ← expPart s₂
  return ((minus s).1 * (i + f) * 10 ^ e, s₃)

variable {α : Type*}

/-- The elements of an array from the next one on, up to the bracket.  `fuel` bounds their
number. -/
def elements (elem : List Char → Option (α × List Char)) :
    ℕ → List Char → Option (List α × List Char)
  | 0, _ => none
  | fuel + 1, s =>
    match elem (skipSpace s) with
    | none => none
    | some (a, t) =>
      match skipSpace t with
      | ',' :: u => (elements elem fuel u).map fun r => (a :: r.1, r.2)
      | ']' :: u => some ([a], u)
      | _ => none

/-- An array.  It has fewer elements than characters. -/
def array (elem : List Char → Option (α × List Char)) : List Char → Option (List α × List Char)
  | '[' :: s =>
    match skipSpace s with
    | ']' :: t => some ([], t)
    | t => elements elem t.length t
  | _ => none

/-- A whole text. -/
def decode (value : List Char → Option (α × List Char)) (s : List Char) : Option α :=
  match value (skipSpace s) with
  | some (a, t) => if skipSpace t = [] then some a else none
  | none => none

/-- A text with fractions, an exponent, white space and an array in an array. -/
example : decode (array (array number)) " [ [-1.50 , 2e3],[] ]".toList
    = some [[-3 / 2, 2000], []] := by
  decide +kernel

/-- The empty text is not a JSON text. -/
theorem decode_array_nil (elem : List Char → Option (α × List Char)) :
    decode (array elem) [] = none := rfl

/-! ## Arrays read back -/

/-- What can stand behind a value: nothing, the separator, the end of an array or white
space. -/
def EndsValue (s : List Char) : Prop :=
  s = [] ∨ ∃ c t, s = c :: t ∧ (c = ',' ∨ c = ']' ∨ isWhiteSpace c = true)

/-- The text is read as `a` wherever a value can stand. -/
structure Reads (value : List Char → Option (α × List Char)) (txt : List Char) (a : α) : Prop where
  starts : ∃ c t, txt = c :: t ∧ isWhiteSpace c = false ∧ c ≠ ']'
  reads : ∀ rest, EndsValue rest → value (txt ++ rest) = some (a, rest)

variable {elem value : List Char → Option (α × List Char)} {txt rest : List Char} {a : α}

/-- In front of any other character nothing is skipped. -/
theorem skipSpace_cons {c : Char} (hc : isWhiteSpace c = false) (s : List Char) :
    skipSpace (c :: s) = c :: s := by
  unfold skipSpace
  exact List.dropWhile_cons_of_neg (Bool.not_eq_true _ ▸ hc)

/-- The text of a value does not start with white space. -/
theorem Reads.skipSpace_append (h : Reads value txt a) (s : List Char) :
    skipSpace (txt ++ s) = txt ++ s := by
  obtain ⟨c, t, rfl, hc, -⟩ := h.starts
  exact skipSpace_cons hc (t ++ s)

/-- A text that is read as `a` decodes to `a`. -/
theorem decode_of_reads (h : Reads value txt a) : decode value txt = some a := by
  have hskip := h.skipSpace_append []
  have hreads := h.reads [] (Or.inl rfl)
  rw [List.append_nil] at hskip hreads
  rw [decode, hskip, hreads]
  rfl

/-- The last element of an array. -/
theorem elements_last (h : Reads elem txt a) (fuel : ℕ) (rest : List Char) :
    elements elem (fuel + 1) (txt ++ ']' :: rest) = some ([a], rest) := by
  have hends : EndsValue (']' :: rest) := Or.inr ⟨']', rest, rfl, Or.inr (Or.inl rfl)⟩
  rw [elements, h.skipSpace_append, h.reads _ hends]
  rfl

/-- An element with others behind it. -/
theorem elements_next (h : Reads elem txt a) (fuel : ℕ) (rest : List Char) :
    elements elem (fuel + 1) (txt ++ ',' :: rest)
      = (elements elem fuel rest).map fun r => (a :: r.1, r.2) := by
  have hends : EndsValue (',' :: rest) := Or.inr ⟨',', rest, rfl, Or.inl rfl⟩
  rw [elements, h.skipSpace_append, h.reads _ hends]
  rfl

/-- The elements of an array, by induction on the list of their texts. -/
theorem elements_intercalate {txts : List (List Char)} {as : List α}
    (h : List.Forall₂ (Reads elem) txts as) (hne : txts ≠ []) {fuel : ℕ}
    (hfuel : txts.length ≤ fuel) (rest : List Char) :
    elements elem fuel ([','].intercalate txts ++ ']' :: rest) = some (as, rest) := by
  induction h generalizing fuel with
  | nil => exact absurd rfl hne
  | @cons txt a txts as hhead htail ih =>
    -- one unit of fuel goes with the first element
    rw [List.length_cons] at hfuel
    obtain ⟨n, rfl⟩ : ∃ n, fuel = n + 1 := Nat.exists_eq_add_one.mpr (by omega)
    cases htail with
    | nil =>
      rw [List.intercalate_singleton]
      exact elements_last hhead n rest
    | @cons txt' a' txts as hhead' htail =>
      have hrest := ih (List.cons_ne_nil txt' txts) (Nat.le_of_succ_le_succ hfuel)
      rw [List.intercalate_cons_cons, List.append_assoc, List.append_assoc, List.singleton_append,
        elements_next hhead, hrest]
      rfl

/-- Joined elements are long enough to be the fuel for their number. -/
theorem length_le_intercalate {txts : List (List Char)} {as : List α}
    (h : List.Forall₂ (Reads elem) txts as) :
    txts.length ≤ ([','].intercalate txts).length := by
  induction h with
  | nil => exact le_rfl
  | @cons txt a txts as hhead htail ih =>
    obtain ⟨c, t, rfl, -, -⟩ := hhead.starts
    cases htail with
    | nil => simp
    | @cons txt' a' txts as _ _ =>
      rw [List.intercalate_cons_cons, List.length_append, List.length_append]
      simp only [List.length_cons] at ih ⊢
      omega

/-- The start of the first element is the start of the array's text. -/
theorem starts_intercalate {txts : List (List Char)} {as : List α}
    (h : List.Forall₂ (Reads elem) txts as) (hne : txts ≠ []) :
    ∃ c t, [','].intercalate txts = c :: t ∧ isWhiteSpace c = false ∧ c ≠ ']' := by
  cases h with
  | nil => exact absurd rfl hne
  | @cons txt a txts as hhead _ =>
    obtain ⟨c, t, rfl, hspace, hclose⟩ := hhead.starts
    exact ⟨c, [','].intercalate (t :: txts), List.intercalate_cons_cons_left, hspace, hclose⟩

/-- An array starts with a bracket, and is empty or goes on with an element. -/
theorem array_cons (s : List Char) :
    array elem ('[' :: s)
      = match skipSpace s with
        | ']' :: t => some ([], t)
        | t => elements elem t.length t := rfl

/-- **An array reads back**, once its elements do. -/
theorem reads_array {txts : List (List Char)} {as : List α}
    (h : List.Forall₂ (Reads elem) txts as) (hne : txts ≠ []) :
    Reads (array elem) ('[' :: ([','].intercalate txts ++ [']'])) as := by
  refine ⟨⟨'[', _, rfl, by decide, by decide⟩, ?_⟩
  intro rest _
  obtain ⟨c, t, htext, hspace, hclose⟩ := starts_intercalate h hne
  have hfuel : txts.length ≤ ([','].intercalate txts ++ ']' :: rest).length := by
    rw [List.length_append]
    exact (length_le_intercalate h).trans (Nat.le_add_right _ _)
  have helems := elements_intercalate h hne hfuel rest
  rw [List.cons_append, List.append_assoc, List.singleton_append]
  rw [htext, List.cons_append] at helems ⊢
  rw [array_cons, skipSpace_cons hspace]
  split
  · -- the first element does not start with the bracket that ends the array
    rename_i heq
    exact absurd (List.cons.inj heq).1 hclose
  · exact helems

/-! ## Integers read back -/

/-- The text of an integer. -/
def intText (n : ℤ) : List Char :=
  (if n < 0 then ['-'] else []) ++ (Decimal.digits n.natAbs).map Nat.digitChar

/-- The characters of the digits are digits. -/
theorem isDigit_digitChar {d : ℕ} (hd : d < 10) : (Nat.digitChar d).isDigit = true := by
  interval_cases d <;> rfl

theorem toNat_digitChar {d : ℕ} (hd : d < 10) : (Nat.digitChar d).toNat - '0'.toNat = d := by
  interval_cases d <;> rfl

/-- White space is no digit. -/
theorem not_isDigit_of_isWhiteSpace {c : Char} (h : isWhiteSpace c = true) :
    ¬ c.isDigit = true := by
  unfold isWhiteSpace at h
  rw [decide_eq_true_iff] at h
  rcases h with rfl | rfl | rfl | rfl <;> decide

/-- No digit can follow a value. -/
theorem EndsValue.not_digit (h : EndsValue rest) : rest.takeWhile Char.isDigit = [] := by
  rcases h with rfl | ⟨c, t, rfl, hc⟩
  · rfl
  · apply List.takeWhile_cons_of_neg
    rcases hc with rfl | rfl | hspace
    · decide
    · decide
    · exact not_isDigit_of_isWhiteSpace hspace

/-- Digits with a value's end behind them. -/
theorem digits_append {ds : List ℕ} (hds : ∀ d ∈ ds, d < 10) (hne : ds ≠ [])
    (h : EndsValue rest) : digits (ds.map Nat.digitChar ++ rest) = some (ds, rest) := by
  have hall : ∀ c ∈ ds.map Nat.digitChar, c.isDigit = true := by
    intro c hc
    obtain ⟨d, hd, rfl⟩ := List.mem_map.mp hc
    exact isDigit_digitChar (hds d hd)
  have hdrop : rest.dropWhile Char.isDigit = rest := by
    have happ := List.takeWhile_append_dropWhile (p := Char.isDigit) (l := rest)
    rwa [h.not_digit, List.nil_append] at happ
  have hleading : leadingDigits (ds.map Nat.digitChar ++ rest) = ds := by
    rw [leadingDigits, List.takeWhile_append_of_pos hall, h.not_digit, List.append_nil,
      List.map_map]
    conv_rhs => rw [← List.map_id ds]
    exact List.map_congr_left fun d hd => toNat_digitChar (hds d hd)
  rw [digits, hleading, if_neg hne, List.dropWhile_append_of_pos hall, hdrop]

/-- A written number is read as an integer part. -/
theorem intPart_append (n : ℕ) (h : EndsValue rest) :
    intPart ((Decimal.digits n).map Nat.digitChar ++ rest) = some (n, rest) := by
  have hdigits := digits_append (fun d hd => Decimal.lt_ten_of_mem_digits hd)
    (Decimal.digits_ne_nil n) h
  unfold intPart
  rw [hdigits]
  dsimp only
  rw [if_neg (fun hzero => hzero.2 (Decimal.digits_no_leading_zero n hzero.1)),
    Decimal.value_digits]

/-- Where a value ends there is no fraction. -/
theorem fracPart_of_endsValue (h : EndsValue rest) : fracPart rest = some (0, rest) := by
  unfold fracPart
  split
  · rcases h with h | ⟨c, t, h, hc⟩
    · cases h
    · cases h
      exact absurd hc (by decide)
  · rfl

theorem expPart_of_endsValue (h : EndsValue rest) : expPart rest = some (0, rest) := by
  rcases h with rfl | ⟨c, t, rfl, hc⟩
  · rfl
  · have hexp : ¬ (c = 'e' ∨ c = 'E') := by
      rintro (rfl | rfl) <;> exact absurd hc (by decide)
    exact if_neg hexp

/-- A numeral starts with a digit. -/
theorem starts_digits (n : ℕ) :
    ∃ c t, (Decimal.digits n).map Nat.digitChar = c :: t ∧ c.isDigit = true := by
  obtain ⟨d, ds, hds⟩ := List.exists_cons_of_ne_nil (Decimal.digits_ne_nil n)
  have hd : d < 10 := Decimal.lt_ten_of_mem_digits (hds ▸ List.mem_cons_self)
  exact ⟨Nat.digitChar d, ds.map Nat.digitChar, by rw [hds, List.map_cons], isDigit_digitChar hd⟩

/-- In front of a digit there is no sign. -/
theorem minus_of_isDigit {c : Char} (hc : c.isDigit = true) (s : List Char) :
    minus (c :: s) = (1, c :: s) := by
  unfold minus
  split
  · rename_i heq
    rw [(List.cons.inj heq).1] at hc
    exact absurd hc (by decide)
  · rfl

/-- A number without fraction and exponent is its integer part with the sign. -/
theorem number_of_intPart {s s' : List Char} {sgn : ℚ} {n : ℕ} (hminus : minus s = (sgn, s'))
    (hint : intPart s' = some (n, rest)) (h : EndsValue rest) :
    number s = some (sgn * n, rest) := by
  unfold number
  rw [hminus]
  dsimp only
  rw [hint]
  dsimp only [bind, Option.bind]
  rw [fracPart_of_endsValue h]
  dsimp only
  rw [expPart_of_endsValue h]
  dsimp only [pure]
  rw [add_zero, zpow_zero, mul_one]

/-- **An integer reads back.** -/
theorem reads_intText (n : ℤ) : Reads number (intText n) n := by
  obtain ⟨c, t, htext, hc⟩ := starts_digits n.natAbs
  by_cases hneg : n < 0
  · have hint : intText n = '-' :: (Decimal.digits n.natAbs).map Nat.digitChar := by
      rw [intText, if_pos hneg, List.singleton_append]
    constructor
    · exact ⟨'-', _, hint, by decide, by decide⟩
    · intro rest h
      have hminus : minus (intText n ++ rest)
          = (-1, (Decimal.digits n.natAbs).map Nat.digitChar ++ rest) := by
        rw [hint]
        rfl
      have habs : ((n.natAbs : ℤ) : ℚ) = ((-n : ℤ) : ℚ) := by
        rw [Int.ofNat_natAbs_of_nonpos hneg.le]
      rw [Int.cast_natCast, Int.cast_neg] at habs
      rw [number_of_intPart hminus (intPart_append n.natAbs h) h, habs, neg_one_mul, neg_neg]
  · have hint : intText n = (Decimal.digits n.natAbs).map Nat.digitChar := by
      rw [intText, if_neg hneg, List.nil_append]
    constructor
    · refine ⟨c, t, hint.trans htext, ?_, ?_⟩
      · by_contra hspace
        exact not_isDigit_of_isWhiteSpace (Bool.not_eq_false _ ▸ hspace) hc
      · rintro rfl
        exact absurd hc (by decide)
    · intro rest h
      have hminus : minus (intText n ++ rest) = (1, intText n ++ rest) := by
        rw [hint, htext, List.cons_append]
        exact minus_of_isDigit hc (t ++ rest)
      have hparts : intPart (intText n ++ rest) = some (n.natAbs, rest) := by
        rw [hint]
        exact intPart_append n.natAbs h
      have habs : ((n.natAbs : ℤ) : ℚ) = (n : ℚ) := by
        rw [Int.natAbs_of_nonneg (not_lt.mp hneg)]
      rw [Int.cast_natCast] at habs
      rw [number_of_intPart hminus hparts h, habs, one_mul]

end Json
