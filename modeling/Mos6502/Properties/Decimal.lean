import Mos6502.Properties.Arithmetic

/-!
# Decimal mode

With `D` set, `instr_adc` adds packed BCD: the low nibbles with the carry, then the high nibbles,
each digit corrected by 10 with a carry into the next, all in `uint8_t`. On operands whose
nibbles are decimal digits this is decimal addition modulo 100, with the carry out exactly when
the sum reaches 100 (`adc_decimal_step`). The proof goes through the numbers the nibble
arithmetic computes, for every byte (`adcDecimal_toNat`), and from them to the BCD law
(`adcDecimal_bcd`).

The specification asks for more than the code does in two places. `Z` and `N` are to follow the
binary result byte, but `instr_adc` sets them from the corrected BCD byte it stores in `A`. And
the decimal branch of `instr_sbc` is empty, so an `SBC` with `D` set leaves `A` and every flag as
they were (`sbc_decimal_does_nothing`, `decimal_flags_follow_stored_result`).

## Main definitions

* `IsBcd`, `bcdValue`, `toBcd`: packed BCD bytes and the numbers they stand for

## Main results

* `adcDecimal_toNat`: the nibble arithmetic of `instr_adc`, in numbers
* `adcDecimal_bcd`: on BCD operands it is decimal addition
* `adc_decimal_step`: a step of an `ADC` opcode in decimal mode
* `sbc_decimal_does_nothing`: a step of an `SBC` opcode in decimal mode changes neither `A` nor
  `P`
* `decimal_flags_follow_stored_result`: in decimal mode `Z` and `N` describe the byte stored in
  `A`, not the binary sum
-/

namespace Mos6502

/-! ## Packed BCD -/

/-- A byte is packed BCD when both its nibbles are decimal digits. -/
def IsBcd (v : Byte) : Prop := v.toNat % 16 ≤ 9 ∧ v.toNat / 16 ≤ 9

instance : DecidablePred IsBcd := fun v =>
  inferInstanceAs (Decidable (v.toNat % 16 ≤ 9 ∧ v.toNat / 16 ≤ 9))

/-- The number a packed BCD byte stands for. -/
def bcdValue (v : Byte) : Nat := 10 * (v.toNat / 16) + v.toNat % 16

/-- The packed BCD byte of a number below 100. -/
def toBcd (n : Nat) : Byte := BitVec.ofNat 8 (16 * (n / 10) + n % 10)

/-! ## Nibbles -/

/-- `v & 0x0F`, the low nibble. -/
theorem toNat_and_0x0F (a : Byte) : (a &&& 0x0F#8).toNat = a.toNat % 16 := by
  rw [BitVec.toNat_and]
  exact Nat.and_pow_two_sub_one_eq_mod a.toNat 4

/-- `v >> 4`, the high nibble. -/
theorem toNat_ushiftRight_four (a : Byte) : (a >>> 4).toNat = a.toNat / 16 := by
  rw [BitVec.toNat_ushiftRight, Nat.shiftRight_eq_div_pow]

theorem shiftLeft_four_or (h l : Byte) :
    (h <<< 4) ||| (l &&& 0x0F#8) = (h <<< 4) + (l &&& 0x0F#8) := by
  have hlo : ∀ i : Fin 8, (0x0F#8).getLsbD i = decide (i.val < 4) := by decide
  refine (BitVec.add_eq_or_of_and_eq_zero _ _ ?_).symm
  ext i
  simp only [BitVec.getLsbD_and, BitVec.getLsbD_shiftLeft, hlo, BitVec.getLsbD_zero]
  by_cases h4 : (i : Nat) < 4 <;> simp [h4]

/-- `(ah << 4) | (al & 0x0F)` stored in a byte. -/
theorem toNat_shiftLeft_four_or (h l : Byte) :
    ((h <<< 4) ||| (l &&& 0x0F#8)).toNat = 16 * h.toNat % 256 + l.toNat % 16 := by
  have := l.isLt
  rw [shiftLeft_four_or, BitVec.toNat_add, BitVec.toNat_shiftLeft, toNat_and_0x0F, Nat.shiftLeft_eq]
  omega

/-! ## The decimal branch of `instr_adc` -/

/-- **The nibble arithmetic of `instr_adc`, in numbers**, for every accumulator, operand and
carry: no `uint8_t` in it wraps but the final shift. -/
theorem adcDecimal_toNat (v : Byte) (t : Cpu) :
    let al := t.A.toNat % 16 + v.toNat % 16 + (t.getFlag .carry).toNat
    let ah := t.A.toNat / 16 + v.toNat / 16 + (if 9 < al then 1 else 0)
    (adcDecimal v t).A.toNat =
        16 * (if 9 < ah then ah - 10 else ah) % 256 + (if 9 < al then al - 10 else al) % 16 ∧
      (adcDecimal v t).getFlag .carry = decide (9 < ah) := by
  intro al ah
  have hA := t.A.isLt
  have hv := v.isLt
  have hC : (t.flagValue .carry).toNat = (t.getFlag .carry).toNat := by
    unfold Cpu.flagValue
    cases t.getFlag .carry <;> rfl
  have hal : ((t.A &&& 0x0F#8) + (v &&& 0x0F#8) + t.flagValue .carry).toNat = al := by
    have := Bool.toNat_le (t.getFlag .carry)
    simp only [BitVec.toNat_add, toNat_and_0x0F, hC, al]
    omega
  have hah : ((t.A >>> 4) + (v >>> 4)).toNat = t.A.toNat / 16 + v.toNat / 16 := by
    simp only [BitVec.toNat_add, toNat_ushiftRight_four]
    omega
  simp only [adcDecimal]
  generalize (t.A &&& 0x0F#8) + (v &&& 0x0F#8) + t.flagValue .carry = AL at hal ⊢
  generalize (t.A >>> 4) + (v >>> 4) = AH at hah ⊢
  have h9 : ∀ x : Byte, (x > 9#8) ↔ 9 < x.toNat := fun x => BitVec.lt_def
  -- the low digit, corrected
  have hL : (if decide (AL > 9#8) = true then AL - 10#8 else AL).toNat =
      if 9 < al then al - 10 else al := by
    by_cases h : 9 < al <;> simp [h9, hal, h, BitVec.toNat_sub]
    omega
  -- the high digits with the low digit's carry
  have hH : (if decide (AL > 9#8) = true then AH + 1#8 else AH).toNat = ah := by
    have hah_eq : ah = t.A.toNat / 16 + v.toNat / 16 + if 9 < al then 1 else 0 := rfl
    by_cases h : 9 < al <;>
      simp only [h9, hal, h, decide_True, decide_False, if_true, if_false, Bool.false_eq_true,
        Nat.add_zero] at hah_eq ⊢
    · rw [BitVec.toNat_add, hah, hah_eq]
      simp only [BitVec.toNat_ofNat]
      omega
    · rw [hah, hah_eq]
  generalize (if decide (AL > 9#8) = true then AH + 1#8 else AH) = AH' at hH ⊢
  generalize (if decide (AL > 9#8) = true then AL - 10#8 else AL) = AL' at hL ⊢
  -- the high digit, corrected
  have hH' : (if AH' > 9#8 then AH' - 10#8 else AH').toNat = if 9 < ah then ah - 10 else ah := by
    by_cases h : 9 < ah <;> simp [h9, hH, h, BitVec.toNat_sub]
    omega
  refine ⟨?_, ?_⟩
  · show ((if AH' > 9#8 then AH' - 10#8 else AH') <<< 4 ||| AL' &&& 0x0F#8).toNat = _
    rw [toNat_shiftLeft_four_or, hH', hL]
  · rw [Cpu.getFlag_updateZeroAndNegativeFlags]
    show (t.setFlag .carry _).getFlag .carry = _
    simp [h9, hH]

/-- The packed BCD of a sum with decimal digits `hi` and `lo`, modulo 100. -/
theorem toNat_toBcd_digits (k : Nat) {hi lo : Nat} (hhi : hi ≤ 9) (hlo : lo ≤ 9) :
    (toBcd ((100 * k + 10 * hi + lo) % 100)).toNat = 16 * hi + lo := by
  have h : (100 * k + 10 * hi + lo) % 100 = 10 * hi + lo := by omega
  rw [h, toBcd, BitVec.toNat_ofNat]
  omega

/-- **Decimal addition.** On packed BCD operands the decimal branch of `instr_adc` stores the
packed BCD of the decimal sum modulo 100, and sets the carry exactly when the sum reaches 100. -/
theorem adcDecimal_bcd (v : Byte) (t : Cpu) (hA : IsBcd t.A) (hv : IsBcd v) :
    let n := bcdValue t.A + bcdValue v + (t.getFlag .carry).toNat
    (adcDecimal v t).A = toBcd (n % 100) ∧
      (adcDecimal v t).getFlag .carry = decide (100 ≤ n) := by
  obtain ⟨hA₀, hA₁⟩ := hA
  obtain ⟨hv₀, hv₁⟩ := hv
  obtain ⟨h₁, h₂⟩ := adcDecimal_toNat v t
  have hC := Bool.toNat_le (t.getFlag .carry)
  generalize hal : t.A.toNat % 16 + v.toNat % 16 + (t.getFlag .carry).toNat = al at h₁ h₂
  generalize hah : t.A.toNat / 16 + v.toNat / 16 + (if 9 < al then 1 else 0) = ah at h₁ h₂
  generalize hlo : (if 9 < al then al - 10 else al) = lo at h₁
  generalize hhi : (if 9 < ah then ah - 10 else ah) = hi at h₁
  -- the corrected nibbles are the decimal digits of the sum
  have hn : lo ≤ 9 ∧ hi ≤ 9 ∧
      bcdValue t.A + bcdValue v + (t.getFlag .carry).toNat =
        100 * (if 9 < ah then 1 else 0) + 10 * hi + lo := by
    simp only [bcdValue]
    split_ifs at hah hlo hhi ⊢ <;> omega
  obtain ⟨hlo₉, hhi₉, hn⟩ := hn
  intro n
  rw [show n = _ from hn]
  refine ⟨BitVec.eq_of_toNat_eq ?_, h₂.trans ?_⟩
  · rw [h₁, toNat_toBcd_digits _ hhi₉ hlo₉]
    omega
  · split_ifs <;> simp <;> omega

/-! ## A step in decimal mode -/

/-- With no latch, an `ADC` opcode at `PC` and `D` set, a step is the decimal add of the byte the
routine reads, on the state after the read, and the page-crossing cycle. -/
theorem cpuExecuteInstruction_adc_decimal {c : Cpu} (hn : c.NMIPending = false)
    (hi : c.IRQPending = false) (hop : (cpuRead c c.PC).1 ∈ adcOpcodes)
    (hd : c.getFlag .decimal = true) :
    (cpuExecuteInstruction c).2 = addPageCrossedCycle (stepOperand c).1
      (adcDecimal (stepOperandValue c)
        (cpuRead (stepOperand c).2 (stepOperand c).1.address).2) := by
  rw [cpuExecuteInstruction_of_execute hn hi (opcodeTable_adcOpcodes _ hop)]
  simp only [Cpu.getFlag] at hd
  simp [Instruction.execute, instrAdc, stepOperand, stepOperandValue, Cpu.getFlag, hd]

/-- With no latch, an `SBC` opcode at `PC` and `D` set, a step only reads the operand and charges
the page-crossing cycle. -/
theorem cpuExecuteInstruction_sbc_decimal {c : Cpu} (hn : c.NMIPending = false)
    (hi : c.IRQPending = false) (hop : (cpuRead c c.PC).1 ∈ sbcOpcodes)
    (hd : c.getFlag .decimal = true) :
    (cpuExecuteInstruction c).2 = addPageCrossedCycle (stepOperand c).1
      (cpuRead (stepOperand c).2 (stepOperand c).1.address).2 := by
  rw [cpuExecuteInstruction_of_execute hn hi (opcodeTable_sbcOpcodes _ hop)]
  simp only [Cpu.getFlag] at hd
  simp [Instruction.execute, instrSbc, stepOperand, Cpu.getFlag, hd]

/-- **Decimal `ADC`.** With no interrupt latched and `D` set, a step of any of the eight `ADC`
opcodes whose `A` and operand are packed BCD stores in `A` the packed BCD of
`dec(A) + dec(M) + C` modulo 100, and sets `C` exactly when that sum reaches 100. -/
theorem adc_decimal_step (c : Cpu) (hn : c.NMIPending = false) (hi : c.IRQPending = false)
    (hop : (cpuRead c c.PC).1 ∈ adcOpcodes) (hd : c.getFlag .decimal = true)
    (hA : IsBcd c.A) (hM : IsBcd (stepOperandValue c)) :
    let c' := (cpuExecuteInstruction c).2
    let n := bcdValue c.A + bcdValue (stepOperandValue c) + (c.getFlag .carry).toNat
    c'.A = toBcd (n % 100) ∧ c'.getFlag .carry = decide (100 ≤ n) := by
  obtain ⟨hrA, hrP⟩ := stepOperand_read_A_P c
  have hrC : (cpuRead (stepOperand c).2 (stepOperand c).1.address).2.getFlag .carry =
      c.getFlag .carry := by
    rw [Cpu.getFlag, hrP]; rfl
  obtain ⟨h₁, h₂⟩ := adcDecimal_bcd (stepOperandValue c)
    (cpuRead (stepOperand c).2 (stepOperand c).1.address).2 (by rw [hrA]; exact hA) hM
  rw [hrA, hrC] at h₁ h₂
  rw [cpuExecuteInstruction_adc_decimal hn hi hop hd]
  exact ⟨(A_addPageCrossedCycle _ _).trans h₁, (getFlag_addPageCrossedCycle _ _ _).trans h₂⟩

/-- `ADC #$46` with `D` and `C` set and `A = 0x58`: both digits are corrected, `58 + 46 + 1`
stores `0x05` and sets the carry. -/
theorem adc_decimal_58_plus_46 :
    let c := { Cpu.initial .ram (fun a => if a = 0 then 0x69 else 0x46) with A := 0x58, P := 0x3D }
    (c.NMIPending = false ∧ c.IRQPending = false ∧ (cpuRead c c.PC).1 ∈ adcOpcodes ∧
      c.getFlag .decimal = true ∧ IsBcd c.A ∧ IsBcd (stepOperandValue c)) ∧
    let c' := (cpuExecuteInstruction c).2
    let n := bcdValue c.A + bcdValue (stepOperandValue c) + (c.getFlag .carry).toNat
    c'.A = toBcd (n % 100) ∧ c'.getFlag .carry = decide (100 ≤ n) :=
  ⟨⟨rfl, rfl, by decide, by decide, by decide, by decide⟩,
    adc_decimal_step _ rfl rfl (by decide) (by decide) (by decide) (by decide)⟩

/-! ## Where the code does less than the specification -/

/-- `Z` and `N` after `update_zero_and_negative_flags` on the stored accumulator. -/
theorem updateZeroAndNegativeFlags_A (c : Cpu) :
    (c.updateZeroAndNegativeFlags c.A).getFlag .zero = (c.A == 0) ∧
      (c.updateZeroAndNegativeFlags c.A).getFlag .negative = c.A.getLsbD 7 := by
  simp [Cpu.getFlag_updateZeroAndNegativeFlags]

/-- **Decimal `SBC` does nothing.** With no interrupt latched and `D` set, a step of any of the
nine `SBC` opcodes leaves `A` and `P`, every flag included, as they were: the decimal branch of
`instr_sbc` is empty. -/
theorem sbc_decimal_does_nothing (c : Cpu) (hn : c.NMIPending = false)
    (hi : c.IRQPending = false) (hop : (cpuRead c c.PC).1 ∈ sbcOpcodes)
    (hd : c.getFlag .decimal = true) :
    let c' := (cpuExecuteInstruction c).2
    c'.A = c.A ∧ c'.P = c.P := by
  obtain ⟨hrA, hrP⟩ := stepOperand_read_A_P c
  rw [cpuExecuteInstruction_sbc_decimal hn hi hop hd]
  exact ⟨(A_addPageCrossedCycle _ _).trans hrA, (P_addPageCrossedCycle _ _).trans hrP⟩

/-- `SBC #$01` with `D` and `C` set and `A = 0x10` leaves `0x10` in `A`, where decimal
subtraction gives `10 - 1 = 09`. -/
theorem sbc_decimal_10_minus_01 :
    let c := { Cpu.initial .ram (fun a => if a = 0 then 0xE9 else 0x01) with A := 0x10, P := 0x3D }
    (c.NMIPending = false ∧ c.IRQPending = false ∧ (cpuRead c c.PC).1 ∈ sbcOpcodes ∧
      c.getFlag .decimal = true) ∧
    ((cpuExecuteInstruction c).2.A = c.A ∧ (cpuExecuteInstruction c).2.P = c.P) ∧
      c.A = 0x10 ∧ toBcd ((bcdValue c.A + 100 - bcdValue (stepOperandValue c) -
        (1 - (c.getFlag .carry).toNat)) % 100) = 0x09 :=
  ⟨⟨rfl, rfl, by decide, by decide⟩,
    sbc_decimal_does_nothing _ rfl rfl (by decide) (by decide),
    rfl, by decide⟩

/-- **In decimal mode `Z` and `N` describe the stored byte.** With no interrupt latched and `D`
set, a step of an `ADC` opcode sets `Z` and `N` from the corrected BCD byte it stores in `A`,
and a step of an `SBC` opcode leaves them as they were; neither looks at the binary sum. -/
theorem decimal_flags_follow_stored_result (c : Cpu) (hn : c.NMIPending = false)
    (hi : c.IRQPending = false) (hd : c.getFlag .decimal = true) :
    let c' := (cpuExecuteInstruction c).2
    ((cpuRead c c.PC).1 ∈ adcOpcodes →
      c'.getFlag .zero = (c'.A == 0) ∧ c'.getFlag .negative = c'.A.getLsbD 7) ∧
    ((cpuRead c c.PC).1 ∈ sbcOpcodes →
      c'.getFlag .zero = c.getFlag .zero ∧ c'.getFlag .negative = c.getFlag .negative) := by
  refine ⟨fun hop => ?_, fun hop => ?_⟩
  · rw [cpuExecuteInstruction_adc_decimal hn hi hop hd, getFlag_addPageCrossedCycle,
      getFlag_addPageCrossedCycle, A_addPageCrossedCycle]
    exact updateZeroAndNegativeFlags_A _
  · have hP := (P_addPageCrossedCycle (stepOperand c).1 _).trans (stepOperand_read_A_P c).2
    rw [cpuExecuteInstruction_sbc_decimal hn hi hop hd]
    simp only [Cpu.getFlag, hP, and_self]

/-- `ADC #$01` with `D` set, `C` clear and `A = 0x99` stores `0x00`, sets `Z` and clears `N`,
where the binary sum `0x9A` is nonzero with bit 7 set. -/
theorem adc_decimal_99_plus_01 :
    let c := { Cpu.initial .ram (fun a => if a = 0 then 0x69 else 0x01) with A := 0x99, P := 0x3C }
    let c' := (cpuExecuteInstruction c).2
    (c.NMIPending = false ∧ c.IRQPending = false ∧ c.getFlag .decimal = true) ∧
    (((cpuRead c c.PC).1 ∈ adcOpcodes →
      c'.getFlag .zero = (c'.A == 0) ∧ c'.getFlag .negative = c'.A.getLsbD 7) ∧
    ((cpuRead c c.PC).1 ∈ sbcOpcodes →
      c'.getFlag .zero = c.getFlag .zero ∧ c'.getFlag .negative = c.getFlag .negative)) ∧
    c'.A = 0x00 ∧ c'.getFlag .zero = true ∧ c'.getFlag .negative = false ∧
      (c.A.toNat + (stepOperandValue c).toNat + (c.getFlag .carry).toNat) % 256 = 0x9A :=
  ⟨⟨rfl, rfl, by decide⟩, decimal_flags_follow_stored_result _ rfl rfl (by decide),
    by decide, by decide, by decide, by decide⟩

end Mos6502
