/-
# TeiidSyndesis.Library.Base64 — bytes as texts of sixty-four characters.

Three bytes are written as four characters of six bits each; one or two bytes that are left over are
filled up with zero bits, and the text with `=`.  Reading a text back takes groups of four characters
from the front, of which only the last may be filled up.

Main results:
* `value_digit`, `div_joined`, `mod_joined` — a digit is read back, and so are the bits that share one;
* `decode_encode` — and every list of bytes.
-/
import Mathlib.Data.List.Basic

namespace TeiidSyndesis.Library.Base64

def alphabet : List Char :=
  "ABCDEFGHIJKLMNOPQRSTUVWXYZabcdefghijklmnopqrstuvwxyz0123456789+/".toList

/-- The character of six bits. -/
def digit (n : Nat) : Char := alphabet.getD n 'A'

/-- The six bits of a character. -/
def value (c : Char) : Option Nat := alphabet.findIdx? (· = c)

/-- Three bytes as four characters, and what is left over. -/
def encode : List UInt8 → List Char
  | [] => []
  | [a] => [digit (a.toNat / 4), digit (a.toNat % 4 * 16), '=', '=']
  | [a, b] =>
      [digit (a.toNat / 4), digit (a.toNat % 4 * 16 + b.toNat / 16), digit (b.toNat % 16 * 4), '=']
  | a :: b :: c :: bytes =>
      digit (a.toNat / 4) :: digit (a.toNat % 4 * 16 + b.toNat / 16) ::
        digit (b.toNat % 16 * 4 + c.toNat / 64) :: digit (c.toNat % 64) :: encode bytes

/-- The bytes of a last group that is filled up. -/
def decodeLast (w x : Nat) (y : Char) : Option (List UInt8) :=
  if y = '=' then some [UInt8.ofNat (w * 4 + x / 16)]
  else
    (value y).map fun y => [UInt8.ofNat (w * 4 + x / 16), UInt8.ofNat (x % 16 * 16 + y / 4)]

/-- Four characters at a time. -/
def decode : List Char → Option (List UInt8)
  | [] => some []
  | w :: x :: y :: z :: rest => do
      let w ← value w
      let x ← value x
      if z = '=' then
        if rest = [] then decodeLast w x y else none
      else
        let y ← value y
        let z ← value z
        let bytes ← decode rest
        pure (UInt8.ofNat (w * 4 + x / 16) :: UInt8.ofNat (x % 16 * 16 + y / 4) ::
          UInt8.ofNat (y % 4 * 64 + z) :: bytes)
  | _ => none

/-! ## Reading back -/

/-- A digit is read back. -/
theorem value_digit : ∀ n < 64, value (digit n) = some n := by decide

theorem digit_ne_fill : ∀ n < 64, digit n ≠ '=' := by decide +kernel

/-- Two groups of bits that have been put together come apart again. -/
theorem div_joined {hi lo k : Nat} (h : lo < k) : (hi * k + lo) / k = hi := by
  rw [Nat.mul_comm, Nat.mul_add_div (by omega), Nat.div_eq_of_lt h, Nat.add_zero]

/-- The lower bits are what is left over. -/
theorem mod_joined {hi lo k : Nat} (h : lo < k) : (hi * k + lo) % k = lo := by
  rw [Nat.mul_comm, Nat.mul_add_mod, Nat.mod_eq_of_lt h]

/-- A byte is determined by its number. -/
theorem ofNat_eq {n : Nat} {a : UInt8} (h : n = a.toNat) : UInt8.ofNat n = a := by
  rw [h, UInt8.ofNat_toNat]

/-- Bytes are read back, three at a time. -/
theorem decode_encode (bytes : List UInt8) : decode (encode bytes) = some bytes := by
  fun_induction encode bytes with
  | case1 => rfl
  | case2 a =>
      have ha := a.toNat_lt
      -- each byte is put together from the bits of two digits
      have hfirst : a.toNat / 4 * 4 + a.toNat % 4 * 16 / 16 = a.toNat := by omega
      rw [decode, value_digit _ (by omega), value_digit _ (by omega)]
      show some [UInt8.ofNat _] = _
      rw [ofNat_eq hfirst]
  | case3 a b =>
      have ha := a.toNat_lt
      have hb := b.toNat_lt
      have hlow : b.toNat / 16 < 16 := by omega
      have hfirst : a.toNat / 4 * 4 + (a.toNat % 4 * 16 + b.toNat / 16) / 16 = a.toNat := by
        rw [div_joined hlow]
        omega
      have hsecond :
          (a.toNat % 4 * 16 + b.toNat / 16) % 16 * 16 + b.toNat % 16 * 4 / 4 = b.toNat := by
        rw [mod_joined hlow]
        omega
      rw [decode, value_digit _ (by omega), value_digit _ (by omega)]
      show decodeLast _ _ _ = _
      rw [decodeLast, if_neg (digit_ne_fill _ (by omega)), value_digit _ (by omega)]
      show some [UInt8.ofNat _, UInt8.ofNat _] = _
      rw [ofNat_eq hfirst, ofNat_eq hsecond]
  | case4 a b c bytes ih =>
      have ha := a.toNat_lt
      have hb := b.toNat_lt
      have hc := c.toNat_lt
      have hlow : b.toNat / 16 < 16 := by omega
      have hlow' : c.toNat / 64 < 4 := by omega
      have hfirst : a.toNat / 4 * 4 + (a.toNat % 4 * 16 + b.toNat / 16) / 16 = a.toNat := by
        rw [div_joined hlow]
        omega
      have hsecond : (a.toNat % 4 * 16 + b.toNat / 16) % 16 * 16 +
          (b.toNat % 16 * 4 + c.toNat / 64) / 4 = b.toNat := by
        rw [mod_joined hlow, div_joined hlow']
        omega
      have hthird : (b.toNat % 16 * 4 + c.toNat / 64) % 4 * 64 + c.toNat % 64 = c.toNat := by
        rw [mod_joined hlow']
        omega
      rw [decode, value_digit _ (by omega), value_digit _ (by omega)]
      show (if digit (c.toNat % 64) = '=' then _ else _) = _
      rw [if_neg (digit_ne_fill _ (by omega)), value_digit _ (by omega), value_digit _ (by omega), ih]
      show some (UInt8.ofNat _ :: UInt8.ofNat _ :: UInt8.ofNat _ :: bytes) = _
      rw [ofNat_eq hfirst, ofNat_eq hsecond, ofNat_eq hthird]

example : encode [102, 111, 111, 98] = "Zm9vYg==".toList := by decide

end TeiidSyndesis.Library.Base64
