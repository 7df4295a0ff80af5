/-
# URL decoding (HttpReqHandler::url_decode)

The decoder reads each escape through a string stream: `extractHex` is the
extraction `is >> std::hex >> value` of an `int` from a stream over the given
characters.  It skips white space, takes an optional sign and an optional `0x`,
and reads hexadecimal digits up to the first other character; it fails when
there is no digit.
-/
import Unichannel.Bytes

namespace Unichannel

/-- The white space a formatted extraction skips. -/
def isSpace (c : Byte) : Bool :=
  c ∈ [ch ' ', ch '\t', ch '\n', UInt8.ofNat 11, UInt8.ofNat 12, ch '\r']

/-- The value of a hexadecimal digit. -/
def hexValue (c : Byte) : Option ℕ :=
  if (ch '0').toNat ≤ c.toNat ∧ c.toNat ≤ (ch '9').toNat then some (c.toNat - (ch '0').toNat)
  else if (ch 'a').toNat ≤ c.toNat ∧ c.toNat ≤ (ch 'f').toNat then
    some (c.toNat - (ch 'a').toNat + 10)
  else if (ch 'A').toNat ≤ c.toNat ∧ c.toNat ≤ (ch 'F').toNat then
    some (c.toNat - (ch 'A').toNat + 10)
  else none

/-- The hexadecimal digits the characters start with. -/
def hexDigits : Bytes → List ℕ
  | [] => []
  | c :: rest =>
    match hexValue c with
    | some d => d :: hexDigits rest
    | none => []

/-- The magnitude of a hexadecimal field, after white space and sign. -/
def hexMagnitude (field : Bytes) : Option ℕ :=
  let digits :=
    match field with
    | zero :: x :: rest =>
      if zero = ch '0' ∧ (x = ch 'x' ∨ x = ch 'X') then hexDigits rest else hexDigits field
    | _ => hexDigits field
  if digits = [] then none else some (digits.foldl (fun a d => a * 16 + d) 0)

/-- `is >> std::hex >> value` on a stream over `chars`: the value, unless the
extraction fails. -/
def extractHex (chars : Bytes) : Option ℤ :=
  match chars.dropWhile isSpace with
  | [] => none
  | sign :: field =>
    if sign = ch '-' then (hexMagnitude field).map fun n => -(n : ℤ)
    else if sign = ch '+' then (hexMagnitude field).map fun n => (n : ℤ)
    else (hexMagnitude (sign :: field)).map fun n => (n : ℤ)

/-- `static_cast<char>(value)`. -/
def castChar (value : ℤ) : Byte := UInt8.ofNat (value % 256).toNat

/-- The loop of `url_decode`: what is left of `in` and what `out` holds; the
result and the final `out`. -/
def urlDecodeLoop (out : Bytes) : Bytes → Bool × Bytes
  | [] => (true, out)
  | c :: rest =>
    if c = ch '%' then
      match rest with
      | a :: b :: rest' =>
        match extractHex [a, b] with
        | some value => urlDecodeLoop (out ++ [castChar value]) rest'
        | none => (false, out)
      | _ => (false, out)
    else if c = ch '+' then urlDecodeLoop (out ++ [ch ' ']) rest
    else urlDecodeLoop (out ++ [c]) rest

/-- `HttpReqHandler::url_decode`: whether the decoding succeeded, and `out`. -/
def urlDecode (input : Bytes) : Bool × Bytes := urlDecodeLoop [] input

example : urlDecode (str "/a%2e%2E+b%41") = (true, str "/a.. bA") := by decide +kernel

end Unichannel
