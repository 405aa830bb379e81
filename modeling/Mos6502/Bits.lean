import Mathlib.Data.BitVec
import Mathlib.Tactic.IntervalCases

/-!
# Bytes and words

The emulator computes on `uint8_t` registers and `uint16_t` addresses; here they are `BitVec 8`
and `BitVec 16`, whose arithmetic wraps as the C types do. This module gathers the bit-level facts
the CPU model needs about them: the little-endian word `((uint16_t)high << 8) | low` that
`fetch_word`, `pull_word` and the vector reads build, its inverse in `push_word`, and the test of
one bit of a byte that every flag goes through.

## Main definitions

* `Byte`, `Word`: `uint8_t` and `uint16_t`
* `toWord low high`: the word `((uint16_t)high << 8) | (uint16_t)low`
* `setBit b i v`: `b | (1 << i)` when `v`, else `b & ~(1 << i)`

## Main results

* `toWord_toNat`: the word's value is `low + 256 * high`
* `toWord_split`: splitting a word into its low and high bytes and joining them is the identity
* `getLsbD_setBit`: `setBit` changes bit `i` and no other
* `or_0x30_and_0xEF_or_0x20`, `setBit_four_or_0x10`: the status bytes of `PHP`/`PLP` and `BRK`
-/

namespace Mos6502

/-- `uint8_t`. -/
abbrev Byte := BitVec 8

/-- `uint16_t`. -/
abbrev Word := BitVec 16

/-- The little-endian word `((uint16_t)high << 8) | (uint16_t)low`. -/
def toWord (low high : Byte) : Word := (high.setWidth 16 <<< 8) ||| low.setWidth 16

theorem toWord_halves_disjoint (low high : Byte) :
    (high.setWidth 16 <<< 8) &&& low.setWidth 16 = 0#16 := by
  ext i
  simp only [BitVec.getLsbD_and, BitVec.getLsbD_shiftLeft, BitVec.getLsbD_setWidth,
    BitVec.getLsbD_zero]
  by_cases h : (i : Nat) < 8
  · simp [h]
  · simp [h, BitVec.getLsbD_ge low i (by omega)]

/-- The halves of a word do not overlap, so the `|` that joins them is an addition. -/
theorem toWord_eq_add (low high : Byte) :
    toWord low high = (high.setWidth 16 <<< 8) + low.setWidth 16 :=
  (BitVec.add_eq_or_of_and_eq_zero _ _ (toWord_halves_disjoint low high)).symm

theorem toWord_toNat (low high : Byte) :
    (toWord low high).toNat = low.toNat + 256 * high.toNat := by
  have hl := low.isLt
  have hh := high.isLt
  rw [toWord_eq_add, BitVec.toNat_add, BitVec.toNat_shiftLeft, BitVec.toNat_setWidth,
    BitVec.toNat_setWidth, Nat.shiftLeft_eq]
  simp only [Nat.reducePow] at *
  omega

/-- **Little-endian round trip**: `push_word` splits a word into `value & 0xFF` and
`(value >> 8) & 0xFF`, and joining them back gives the word. -/
theorem toWord_split (w : Word) : toWord (w.setWidth 8) ((w >>> 8).setWidth 8) = w := by
  ext i
  simp only [toWord, BitVec.getLsbD_or, BitVec.getLsbD_shiftLeft, BitVec.getLsbD_setWidth,
    BitVec.getLsbD_ushiftRight]
  by_cases h8 : (i : Nat) < 8
  · simp [h8]
  · have hi : 8 + ((i : Nat) - 8) = i := by omega
    simp [h8, hi, show (i : Nat) - 8 < 8 by omega]
    omega

theorem toWord_inj {l₁ h₁ l₂ h₂ : Byte} (h : toWord l₁ h₁ = toWord l₂ h₂) : l₁ = l₂ ∧ h₁ = h₂ := by
  have hv := congrArg BitVec.toNat h
  rw [toWord_toNat, toWord_toNat] at hv
  have := l₁.isLt; have := l₂.isLt
  exact ⟨BitVec.eq_of_toNat_eq (by omega), BitVec.eq_of_toNat_eq (by omega)⟩

/-- `b | (1 << i)` when `v`, and `b & ~(1 << i)` otherwise: bit `i` of `b` set to `v`. -/
def setBit (b : Byte) (i : Nat) (v : Bool) : Byte :=
  if v then b ||| (1#8 <<< i) else b &&& ~~~(1#8 <<< i)

theorem getLsbD_setBit (b : Byte) {i : Nat} (hi : i < 8) (v : Bool) (j : Nat) :
    (setBit b i v).getLsbD j = if i = j then v else b.getLsbD j := by
  unfold setBit
  by_cases hij : i = j
  · subst hij
    cases v <;> simp [hi]
  · cases v <;> simp only [hij, if_false, BitVec.getLsbD_or, BitVec.getLsbD_and,
      BitVec.getLsbD_not, BitVec.getLsbD_shiftLeft, BitVec.getLsbD_one]
    · by_cases hj : j < 8
      · simp [hj]; omega
      · simp [hj, BitVec.getLsbD_ge b j (by omega)]
    · simp; omega

theorem getLsbD_seven (v : Byte) : v.getLsbD 7 = decide (128 ≤ v.toNat) := by
  rw [← BitVec.testBit_toNat, Nat.testBit_to_div_mod]
  have := v.isLt
  simp only [decide_eq_decide]
  omega

/-- The signed value of a byte, as `(int8_t)v` reads it. -/
theorem toInt_byte (v : Byte) :
    v.toInt = if 128 ≤ v.toNat then (v.toNat : Int) - 256 else v.toNat := by
  rw [BitVec.toInt_eq_toNat_cond]
  simp only [Nat.reducePow]
  split_ifs <;> omega

theorem and_0x80_eq (v : Byte) : v &&& 0x80#8 = if v.getLsbD 7 then 0x80#8 else 0#8 := by
  ext i
  have hi := i.isLt
  split <;> rename_i h <;>
  · generalize (i : Nat) = j at *
    interval_cases j <;> simp [h]

/-- Bit 7 of a byte, as the C test `(v & 0x80) != 0` reads it. -/
@[simp] theorem and_0x80_ne_zero (v : Byte) : (v &&& 0x80#8 != 0#8) = v.getLsbD 7 := by
  rw [and_0x80_eq]
  cases v.getLsbD 7 <;> decide

/-! ## Status bytes -/

/-- `PLP` of the byte `PHP` pushes: `((P | 0x30) & 0xEF) | 0x20` is `P` with `B` clear and `U`
set. -/
theorem or_0x30_and_0xEF_or_0x20 (p : Byte) :
    (p ||| 0x30#8) &&& 0xEF#8 ||| 0x20#8 = p &&& 0xEF#8 ||| 0x20#8 := by
  ext i
  have hi := i.isLt
  generalize (i : Nat) = j at *
  interval_cases j <;> simp

/-- `BRK`'s pushed status: `P` with `B` set, ored with `0x10`, is `P | 0x10`. -/
theorem setBit_four_or_0x10 (p : Byte) : setBit p 4 true ||| 0x10#8 = p ||| 0x10#8 := by
  ext i
  have hi := i.isLt
  generalize (i : Nat) = j at *
  interval_cases j <;> simp [setBit]

/-- `BRK` sets `B` and then `I`: `P | 0x14`. -/
theorem setBit_four_setBit_two (p : Byte) : setBit (setBit p 4 true) 2 true = p ||| 0x14#8 := by
  ext i
  have hi := i.isLt
  generalize (i : Nat) = j at *
  interval_cases j <;> simp [setBit]

/-- A status byte with `B` set is never one with `B` clear and `U` set. -/
theorem or_0x10_ne (p q : Byte) : p ||| 0x10#8 ≠ q &&& ~~~0x10#8 ||| 0x20#8 := fun h => by
  have := congrArg (BitVec.getLsbD · 4) h
  simp at this

end Mos6502

