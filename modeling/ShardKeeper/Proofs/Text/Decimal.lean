import Mathlib.Data.Nat.Notation
import ShardKeeper.Text.Decimal
import ShardKeeper.Text.Utf8

/-!
# Numerals

## Main results

* `Decimal.value_ofNat` — a numeral spells the number that it was written for.
* `Decimal.isDigit_of_mem_ofNat`, `Decimal.ofNat_ne_nil` — it is one or more digits.
* `Decimal.head?_ofNat_ne` — it has no needless leading zero.
* `Utf8.encode_of_ascii` — the bytes of such a text.
-/

namespace ShardKeeper

namespace Decimal

variable {n : ℕ} {c : Char}

theorem isDigit_of_mem_ofNat (h : c ∈ ofNat n) : c.isDigit = true :=
  Nat.isDigit_of_mem_toDigits (by decide) (by decide) h

theorem ofNat_ne_nil (n : ℕ) : ofNat n ≠ [] := Nat.toDigits_ne_nil

/-- **A numeral spells the number that it was written for.** -/
theorem value_ofNat (n : ℕ) : value (ofNat n) = n :=
  Nat.ofDigitChars_toDigits (by decide) (by decide)

/-- Only the numeral of zero begins with a zero. -/
theorem head?_ofNat_ne (hn : n ≠ 0) : (ofNat n).head? ≠ some '0' := by
  induction n using Nat.strongRecOn with
  | _ n ih =>
      rw [ofNat, Nat.toDigits_eq_if (by decide)]
      split
      · rename_i hlt
        have hdigit : ∀ d < 10, d ≠ 0 → [Nat.digitChar d].head? ≠ some '0' := by decide
        exact hdigit n hlt hn
      · rename_i hge
        have hrest := ih (n / 10) (by omega) (by omega)
        obtain ⟨c, tail, hdigits⟩ := List.exists_cons_of_ne_nil (ofNat_ne_nil (n / 10))
        rw [ofNat] at hdigits hrest
        rw [hdigits] at hrest ⊢
        exact hrest

theorem toNat_of_isDigit (h : c.isDigit = true) : 48 ≤ c.toNat ∧ c.toNat ≤ 57 := by
  rw [Char.isDigit, Bool.and_eq_true, decide_eq_true_eq, decide_eq_true_eq] at h
  exact ⟨UInt32.le_iff_toNat_le.mp h.1, UInt32.le_iff_toNat_le.mp h.2⟩

end Decimal

/-- The bytes of a text of ASCII characters. -/
theorem Utf8.encode_of_ascii {text : List Char} (h : ∀ c ∈ text, c.toNat < 128) :
    Utf8.encode text = text.map fun c => UInt8.ofNat c.toNat := by
  induction text with
  | nil => rfl
  | cons c text ih =>
      have hc : c.val.toNat ≤ 127 := Nat.le_of_lt_succ (h c List.mem_cons_self)
      have hfirst : String.utf8EncodeChar c = [UInt8.ofNat c.toNat] := by
        rw [String.utf8EncodeChar]
        exact if_pos hc
      rw [Utf8.encode, List.flatMap_cons, hfirst, List.map_cons, List.singleton_append]
      exact congrArg _ (ih fun d hd => h d (List.mem_cons_of_mem c hd))

end ShardKeeper
