import FwupdPoc.Lib.Utf16
import Mathlib.Data.Nat.Digits.Defs

/-!
# Hexadecimal texts

The lower case digits that `String.format` writes for `%x`, padded with zeros as for `%04x`, and the
number they stand for (`hexValue_hexText`).
-/

namespace Utf16

/-- A digit. -/
def hexUnit (digit : ℕ) : BitVec 16 :=
  BitVec.ofNat 16 (if digit < 10 then 0x30 + digit else 0x57 + digit)

/-- The value of a digit. -/
def hexDigit (c : BitVec 16) : ℕ := if c.toNat < 0x3A then c.toNat - 0x30 else c.toNat - 0x57

/-- A number in at least `width` digits. -/
def hexText (width n : ℕ) : Units := ((Nat.digits 16 n).reverse.map hexUnit).leftpad width 0x30

/-- The number that digits stand for. -/
def hexValue (text : Units) : ℕ := text.foldl (fun value c => value * 16 + hexDigit c) 0

theorem hexDigit_hexUnit : ∀ digit < 16, hexDigit (hexUnit digit) = digit := by decide

/-- **A number is the value of its text.** -/
theorem hexValue_hexText (width n : ℕ) : hexValue (hexText width n) = n := by
  have hpad : ∀ k : ℕ, (List.replicate k (0x30 : BitVec 16)).foldl
      (fun value c => value * 16 + hexDigit c) 0 = 0 := by
    intro k
    induction k with
    | zero => rfl
    | succ k ih => exact ih
  have hdigits : ∀ digits : List ℕ, (∀ digit ∈ digits, digit < 16) →
      (digits.reverse.map hexUnit).foldl (fun value c => value * 16 + hexDigit c) 0 =
        Nat.ofDigits 16 digits := by
    intro digits h
    rw [Nat.ofDigits_eq_foldr, List.foldl_map, List.foldl_reverse]
    induction digits with
    | nil => rfl
    | cons digit digits ih =>
      rw [List.foldr_cons, List.foldr_cons, ih fun d hd => h d (List.mem_cons_of_mem _ hd),
        hexDigit_hexUnit digit (h digit List.mem_cons_self), Nat.mul_comm, Nat.add_comm]
      rfl
  have hlt : ∀ digit ∈ Nat.digits 16 n, digit < 16 :=
    fun digit hdigit => Nat.digits_lt_base (by decide) hdigit
  rw [hexValue, hexText, List.leftpad, List.foldl_append, hpad, hdigits _ hlt, Nat.ofDigits_digits]

/-- The characters of a text are digits. -/
theorem mem_hexText {width n : ℕ} {c : BitVec 16} (h : c ∈ hexText width n) :
    ∃ digit < 16, c = hexUnit digit := by
  rw [hexText, List.leftpad, List.mem_append] at h
  rcases h with h | h
  · exact ⟨0, by decide, List.eq_of_mem_replicate h⟩
  · obtain ⟨digit, hdigit, rfl⟩ := List.mem_map.1 h
    exact ⟨digit, Nat.digits_lt_base (by decide) (List.mem_reverse.1 hdigit), rfl⟩

end Utf16
