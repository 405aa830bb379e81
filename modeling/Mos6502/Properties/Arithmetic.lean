import Mos6502.Cpu.Effects

/-!
# Binary addition and subtraction

With `D` clear, `instr_adc` adds the operand and the carry to `A` in 9 bits and `instr_sbc`
subtracts the operand and the borrow `1 - C` in a `uint16_t`. Both are additions with carry:
`SBC` adds the complement `255 - M`, and the two 8-bit results with their carries out are exact,
`A' + 256 * C' = A + M + C` and `A' + 256 * C' = A + (255 - M) + C`. The overflow flag is set
exactly when the signed result leaves `[-128, 127]`; the code computes it from the sign bits of
`A`, the operand and the result, and `addOverflow_iff` and `subOverflow_iff` show the two agree.

`AddsWithCarry` collects what a binary add with carry does to the registers, the flags and
memory. The arithmetic routines satisfy it (`adcBinary_spec`, `sbcBinary_spec`), and so does
a whole step of `cpu_execute_instruction` that runs one of the seventeen `ADC` and `SBC`
opcodes in binary mode, whatever the addressing mode, as long as the operand is not the serial
input port (`adc_sbc_binary_step`).

A compare computes its flags on its own: `C` is `reg ≥ M`, and `Z` and `N` describe the byte
`reg - M`. An `SBC` with `C` set and no borrow in computes the same three flags from `A - M`
(`sbcBinary_no_borrow`), so a compare of a register and an `SBC` from `A` equal to it agree on
`C`, `Z` and `N` for every operand and every mode of either (`compare_flags_match_sbc`).

## Main definitions

* `AddsWithCarry`: a binary add with carry, with its flags and its frame
* `adcOpcodes`, `sbcOpcodes`, `compareOpcodes`: the table's `ADC`, `SBC` and compare opcodes

## Main results

* `addOverflow_iff`, `subOverflow_iff`: the code's overflow tests are signed overflow
* `adcBinary_spec`, `sbcBinary_spec`: the binary arithmetic routines
* `adc_sbc_binary_step`: a step of an `ADC` or `SBC` opcode in binary mode
* `Instruction.execute_compare`, `sbcBinary_no_borrow`: the flags of a compare and of a subtract
  with no borrow in
* `compare_flags_match_sbc`: compares and `SBC` agree on `C`, `Z` and `N`
-/

namespace Mos6502

/-! ## The arithmetic of the two routines -/

/-- **`ADC`'s overflow test is signed overflow**: `~(A ^ M) & (A ^ R) & 0x80` is set exactly
when the signed sum leaves `[-128, 127]`. -/
theorem addOverflow_iff (a b : Byte) {c : Nat} (hc : c ≤ 1) :
    (~~~(a ^^^ b) &&& (a ^^^ BitVec.ofNat 8 (a.toNat + b.toNat + c)) &&& 0x80#8 != 0#8) = true ↔
      (a.toInt + b.toInt + c < -128 ∨ 127 < a.toInt + b.toInt + c) := by
  have ha := a.isLt; have hb := b.isLt
  simp only [and_0x80_ne_zero, BitVec.getLsbD_and, BitVec.getLsbD_not, BitVec.getLsbD_xor]
  simp only [getLsbD_seven, BitVec.toNat_ofNat, toInt_byte]
  by_cases h₁ : 128 ≤ a.toNat <;> by_cases h₂ : 128 ≤ b.toNat <;>
    by_cases h₃ : 128 ≤ (a.toNat + b.toNat + c) % 2 ^ 8 <;> simp [h₁, h₂, h₃] <;> omega

/-- `SBC`'s result byte `(uint8_t)(diff & 0xFF)` is the difference modulo 256. -/
theorem sbcResult_toNat (d : Int) :
    ((((BitVec.ofInt 16 d) &&& 0xFF#16).setWidth 8).toNat : Int) = d % 256 := by
  simp only [BitVec.toNat_setWidth, BitVec.toNat_and, BitVec.toNat_ofInt]
  rw [show (0xFF#16).toNat = 2 ^ 8 - 1 from rfl, Nat.and_pow_two_sub_one_eq_mod]
  omega

/-- `SBC`'s carry `diff < 0x100` is "no borrow" for a difference of two bytes and a borrow. -/
theorem sbcCarry_eq {d : Int} (h₁ : -256 ≤ d) (h₂ : d < 256) :
    decide (BitVec.ofInt 16 d < 0x100#16) = decide (0 ≤ d) := by
  simp only [BitVec.lt_def, BitVec.toNat_ofInt, decide_eq_decide,
    show (0x100#16).toNat = 256 from rfl]
  omega

/-- **`SBC`'s overflow test is signed overflow**: `(A ^ M) & (A ^ R) & 0x80` is set exactly when
the signed difference leaves `[-128, 127]`. -/
theorem subOverflow_iff (a b : Byte) {c : Nat} (hc : c ≤ 1) :
    ((a ^^^ b) &&& (a ^^^ ((BitVec.ofInt 16 ((a.toNat : Int) - b.toNat - c)) &&& 0xFF#16).setWidth 8)
      &&& 0x80#8 != 0#8) = true ↔
      (a.toInt - b.toInt - c < -128 ∨ 127 < a.toInt - b.toInt - c) := by
  have ha := a.isLt; have hb := b.isLt
  generalize hr : ((BitVec.ofInt 16 ((a.toNat : Int) - b.toNat - c)) &&& 0xFF#16).setWidth 8 = r
  have hrv := sbcResult_toNat ((a.toNat : Int) - b.toNat - c)
  rw [hr] at hrv
  simp only [and_0x80_ne_zero, BitVec.getLsbD_and, BitVec.getLsbD_xor]
  simp only [getLsbD_seven, toInt_byte]
  by_cases h₁ : 128 ≤ a.toNat <;> by_cases h₂ : 128 ≤ b.toNat <;> by_cases h₃ : 128 ≤ r.toNat <;>
    simp [h₁, h₂, h₃] <;> omega

/-! ## A binary add with carry -/

/-- `c'` is `c` after adding `operand` and the carry to `A`, the signed value of the addition
being `signedSum`: the result and the carry out are the exact sum, `V` is signed overflow, `Z`
and `N` describe the result, and `X`, `Y`, `SP`, `D`, `I` and memory are as they were. -/
structure AddsWithCarry (c c' : Cpu) (operand : Nat) (signedSum : Int) : Prop where
  sum : c'.A.toNat + 256 * (c'.getFlag .carry).toNat =
    c.A.toNat + operand + (c.getFlag .carry).toNat
  overflow : c'.getFlag .overflow = true ↔ (signedSum < -128 ∨ 127 < signedSum)
  zero : c'.getFlag .zero = true ↔ c'.A = 0
  negative : c'.getFlag .negative = c'.A.getLsbD 7
  X : c'.X = c.X
  Y : c'.Y = c.Y
  SP : c'.SP = c.SP
  decimal : c'.getFlag .decimal = c.getFlag .decimal
  interrupt : c'.getFlag .interrupt = c.getFlag .interrupt
  mem : c'.mem = c.mem

/-- `AddsWithCarry` reads only the registers, `P` and memory: it carries over to states that
agree with the two on everything but the cycle counter, `PC` and the input side. -/
theorem AddsWithCarry.congr {s s' c c' : Cpu} {n : Nat} {z : Int} (h : AddsWithCarry s s' n z)
    (hs : { s.toCpuCore with cycleCount := 0 } = { c.toCpuCore with cycleCount := 0 })
    (hs' : { s'.toCpuCore with cycleCount := 0 } = { c'.toCpuCore with cycleCount := 0 }) :
    AddsWithCarry c c' n z := by
  simp only [CpuCore.mk.injEq] at hs hs'
  obtain ⟨h₁, h₂, h₃, h₄, h₅, h₆, -⟩ := hs
  obtain ⟨h₁', h₂', h₃', h₄', h₅', h₆', -⟩ := hs'
  obtain ⟨hsum, hov, hz, hn, hX, hY, hSP, hd, hi, hm⟩ := h
  simp only [Cpu.getFlag] at *
  constructor <;> simp only [Cpu.getFlag, ← h₁, ← h₂, ← h₃, ← h₄, ← h₅, ← h₆, ← h₁', ← h₂', ← h₃',
    ← h₄', ← h₅', ← h₆'] <;> assumption

section Routines

attribute [local simp] Cpu.updateZeroAndNegativeFlags Cpu.setFlag Cpu.getFlag StatusFlag.bit
  getLsbD_setBit

/-- **The binary branch of `instr_adc`** adds with carry. -/
theorem adcBinary_spec (v : Byte) (s : Cpu) :
    AddsWithCarry s (adcBinary v s) v.toNat (s.A.toInt + v.toInt + (s.getFlag .carry).toNat) := by
  have hA := s.A.isLt; have hv := v.isLt; have hC := Bool.toNat_le (s.getFlag .carry)
  have hV := addOverflow_iff s.A v hC
  simp only [Cpu.getFlag, StatusFlag.bit] at *
  constructor <;> simp [adcBinary] at hV ⊢
  case sum =>
    by_cases h : 255 < s.A.toNat + v.toNat + (s.P.getLsbD 0).toNat <;> simp [h] <;> omega
  case overflow => exact hV

/-- **The binary branch of `instr_sbc`** adds the complement of the operand with carry, the
borrow being `1 - C`. -/
theorem sbcBinary_spec (v : Byte) (s : Cpu) :
    AddsWithCarry s (sbcBinary v (if s.getFlag .carry then 0 else 1) s) (255 - v.toNat)
      (s.A.toInt - v.toInt - (1 - (s.getFlag .carry).toNat)) := by
  have hA := s.A.isLt; have hv := v.isLt; have hC := Bool.toNat_le (s.getFlag .carry)
  have hb : ((if s.getFlag .carry then (0 : Byte) else 1).toNat : Int) =
      1 - ((s.getFlag .carry).toNat : Int) := by
    cases s.getFlag .carry <;> rfl
  have hV := subOverflow_iff s.A v (c := 1 - (s.getFlag .carry).toNat) (by omega)
  rw [Nat.cast_sub hC, Nat.cast_one] at hV
  have hr := sbcResult_toNat ((s.A.toNat : Int) - v.toNat - (1 - (s.getFlag .carry).toNat))
  have hc := sbcCarry_eq (d := (s.A.toNat : Int) - v.toNat - (1 - (s.getFlag .carry).toNat))
    (by omega) (by omega)
  simp only [sbcBinary, hb]
  generalize ((BitVec.ofInt 16 ((s.A.toNat : Int) - v.toNat - (1 - (s.getFlag .carry).toNat)))
    &&& 0xFF#16).setWidth 8 = r at hV hr ⊢
  generalize decide (BitVec.ofInt 16 ((s.A.toNat : Int) - v.toNat -
    (1 - (s.getFlag .carry).toNat)) < 0x100#16) = cy at hc ⊢
  simp only [Cpu.getFlag, StatusFlag.bit] at *
  constructor <;> simp at hV ⊢
  case sum => cases cy <;> simp at hc ⊢ <;> omega
  case overflow => exact hV

end Routines

/-! ## A step -/

/-- The `ADC` opcodes of the table: immediate, zero page, zero page X, absolute, absolute X,
absolute Y, (indirect, X) and (indirect), Y. -/
def adcOpcodes : List Byte := [0x69, 0x65, 0x75, 0x6D, 0x7D, 0x79, 0x61, 0x71]

/-- The `SBC` opcodes of the table, `0xEB` (an alias of `SBC #imm`) included. -/
def sbcOpcodes : List Byte := [0xE9, 0xEB, 0xE5, 0xF5, 0xED, 0xFD, 0xF9, 0xE1, 0xF1]

theorem opcodeTable_adcOpcodes : ∀ op ∈ adcOpcodes, (opcodeTable op).execute = some .adc := by
  simp only [adcOpcodes, List.forall_mem_cons]
  exact ⟨rfl, rfl, rfl, rfl, rfl, rfl, rfl, rfl, nofun⟩

theorem opcodeTable_sbcOpcodes : ∀ op ∈ sbcOpcodes, (opcodeTable op).execute = some .sbc := by
  simp only [sbcOpcodes, List.forall_mem_cons]
  exact ⟨rfl, rfl, rfl, rfl, rfl, rfl, rfl, rfl, rfl, nofun⟩

/-- With no latch, an `ADC` opcode at `PC`, `D` clear and an operand other than the serial input
port, a step is the binary add on the state the addressing mode leaves, and the page-crossing
cycle. -/
theorem cpuExecuteInstruction_adc {c : Cpu} (hn : c.NMIPending = false)
    (hi : c.IRQPending = false) (hop : (cpuRead c c.PC).1 ∈ adcOpcodes)
    (hd : c.getFlag .decimal = false) (hea : (stepOperand c).1.address ≠ inputAddr) :
    (cpuExecuteInstruction c).2 = addPageCrossedCycle (stepOperand c).1
      (adcBinary (c.mem (stepOperand c).1.address) (stepOperand c).2) := by
  rw [cpuExecuteInstruction_of_execute hn hi (opcodeTable_adcOpcodes _ hop)]
  unfold stepOperand at hea ⊢
  simp only [Cpu.getFlag] at hd
  simp only [Instruction.execute, instrAdc]
  rw [cpuRead_of_ne hea]
  simp [Cpu.getFlag, hd]

/-- The same for an `SBC` opcode: the binary subtract with the borrow `1 - C`. -/
theorem cpuExecuteInstruction_sbc {c : Cpu} (hn : c.NMIPending = false)
    (hi : c.IRQPending = false) (hop : (cpuRead c c.PC).1 ∈ sbcOpcodes)
    (hd : c.getFlag .decimal = false) (hea : (stepOperand c).1.address ≠ inputAddr) :
    (cpuExecuteInstruction c).2 = addPageCrossedCycle (stepOperand c).1
      (sbcBinary (c.mem (stepOperand c).1.address)
        (if (stepOperand c).2.getFlag .carry then 0 else 1) (stepOperand c).2) := by
  rw [cpuExecuteInstruction_of_execute hn hi (opcodeTable_sbcOpcodes _ hop)]
  unfold stepOperand at hea ⊢
  simp only [Cpu.getFlag] at hd
  simp only [Instruction.execute, instrSbc]
  rw [cpuRead_of_ne hea]
  simp [Cpu.getFlag, hd]

/-- **Binary `ADC` and `SBC`.** A step that runs an `ADC` opcode with `D` clear, with no interrupt
latched and an operand other than the serial input port, adds the operand `M` with carry:
`A' + 256 * C' = A + M + C`, `V'` is the signed overflow of `A + M + C`, `Z'` and `N'` describe
`A'`, and `X`, `Y`, `SP`, `D`, `I` and memory are unchanged. An `SBC` opcode does the same with
`255 - M` for `M`, its signed value being `A - M - (1 - C)`. -/
theorem adc_sbc_binary_step (c : Cpu) (hn : c.NMIPending = false) (hi : c.IRQPending = false)
    (hd : c.getFlag .decimal = false) (hea : (stepOperand c).1.address ≠ inputAddr) :
    let c' := (cpuExecuteInstruction c).2
    let M := c.mem (stepOperand c).1.address
    let C := (c.getFlag .carry).toNat
    ((cpuRead c c.PC).1 ∈ adcOpcodes → AddsWithCarry c c' M.toNat (c.A.toInt + M.toInt + C)) ∧
    ((cpuRead c c.PC).1 ∈ sbcOpcodes →
      AddsWithCarry c c' (255 - M.toNat) (c.A.toInt - M.toInt - (1 - C))) := by
  have hcore : { (stepOperand c).2.toCpuCore with cycleCount := 0 } =
      { c.toCpuCore with cycleCount := 0 } := by
    rw [stepOperand_toCpuCore]
  have hA : (stepOperand c).2.A = c.A := by simp [stepOperand_toCpuCore]
  have hflag : ∀ f, (stepOperand c).2.getFlag f = c.getFlag f := fun f => by
    simp [Cpu.getFlag, stepOperand_toCpuCore]
  refine ⟨fun hop => ?_, fun hop => ?_⟩
  · have h := adcBinary_spec (c.mem (stepOperand c).1.address) (stepOperand c).2
    rw [hA, hflag] at h
    exact h.congr hcore (by rw [cpuExecuteInstruction_adc hn hi hop hd hea]; simp)
  · have h := sbcBinary_spec (c.mem (stepOperand c).1.address) (stepOperand c).2
    rw [hA, hflag] at h
    exact h.congr hcore (by rw [cpuExecuteInstruction_sbc hn hi hop hd hea]; simp [hflag])

/-- A machine as `cpu_init` leaves it, with `ADC #$05` at `0x0000`, takes such a step. -/
theorem adc_immediate_after_init :
    let c := Cpu.initial .ram fun a => if a = 0 then 0x69 else 0x05
    (c.NMIPending = false ∧ c.IRQPending = false ∧ c.getFlag .decimal = false ∧
      (stepOperand c).1.address ≠ inputAddr) ∧
    let c' := (cpuExecuteInstruction c).2
    let M := c.mem (stepOperand c).1.address
    let C := (c.getFlag .carry).toNat
    ((cpuRead c c.PC).1 ∈ adcOpcodes → AddsWithCarry c c' M.toNat (c.A.toInt + M.toInt + C)) ∧
    ((cpuRead c c.PC).1 ∈ sbcOpcodes →
      AddsWithCarry c c' (255 - M.toNat) (c.A.toInt - M.toInt - (1 - C))) :=
  ⟨⟨rfl, rfl, by decide, by decide⟩, adc_sbc_binary_step _ rfl rfl (by decide) (by decide)⟩

/-! ## Compares -/

/-- The register a compare routine compares: `A` for `instr_cmp`, `X` and `Y` for `instr_cpx` and
`instr_cpy`. -/
def Instruction.compareRegister : Instruction → Option Register
  | .cmp => some .a
  | .cpx => some .x
  | .cpy => some .y
  | _ => none

/-- The compare opcodes of the table, in all their modes, with the register each compares. -/
def compareOpcodes : List (Byte × Register) :=
  [(0xC9, .a), (0xC5, .a), (0xD5, .a), (0xCD, .a), (0xDD, .a), (0xD9, .a), (0xC1, .a), (0xD1, .a),
   (0xE0, .x), (0xE4, .x), (0xEC, .x), (0xC0, .y), (0xC4, .y), (0xCC, .y)]

theorem opcodeTable_compareOpcodes : ∀ e ∈ compareOpcodes,
    (opcodeTable e.1).execute.bind Instruction.compareRegister = some e.2 := by
  simp only [compareOpcodes, List.forall_mem_cons]
  exact ⟨rfl, rfl, rfl, rfl, rfl, rfl, rfl, rfl, rfl, rfl, rfl, rfl, rfl, rfl, nofun⟩

/-- **A compare routine** sets `C` to `reg ≥ M` and `Z` and `N` from `reg - M`, and leaves `A`,
`X`, `Y`, `V` and memory. -/
theorem Instruction.execute_compare {i : Instruction} {r : Register}
    (h : i.compareRegister = some r) (m : Option AddrMode) (c : Cpu) :
    let v := (cpuRead (callMode m c).2 (callMode m c).1.address).1
    let c' := i.execute m c
    (c'.getFlag .carry = decide (v ≤ c.reg r) ∧ c'.getFlag .zero = (c.reg r - v == 0) ∧
      c'.getFlag .negative = (c.reg r - v).getLsbD 7) ∧
    c'.getFlag .overflow = c.getFlag .overflow ∧ c'.A = c.A ∧ c'.X = c.X ∧ c'.Y = c.Y ∧
      c'.mem = c.mem := by
  cases i <;> simp only [compareRegister, reduceCtorEq, Option.some.injEq] at h <;> subst h <;>
    simp [execute, instrCmp, instrCpx, instrCpy, instrCompare, Cpu.reg, Cpu.getFlag,
      Cpu.updateZeroAndNegativeFlags, Cpu.setFlag, getLsbD_setBit, StatusFlag.bit]

/-- `SBC` with no borrow in: the result is `A - M` and the carry out is `M ≤ A`, with `Z` and
`N` describing `A - M`. -/
theorem sbcBinary_no_borrow (v : Byte) (t : Cpu) :
    let t' := sbcBinary v 0 t
    t'.A = t.A - v ∧ t'.getFlag .carry = decide (v ≤ t.A) ∧ t'.getFlag .zero = (t.A - v == 0) ∧
      t'.getFlag .negative = (t.A - v).getLsbD 7 := by
  have ha := t.A.isLt; have hv := v.isLt
  have h0 : ((0 : Byte).toNat : Int) = 0 := rfl
  have hr : ((BitVec.ofInt 16 ((t.A.toNat : Int) - v.toNat)) &&& 0xFF#16).setWidth 8 = t.A - v := by
    have h := sbcResult_toNat ((t.A.toNat : Int) - v.toNat)
    apply BitVec.eq_of_toNat_eq
    rw [BitVec.toNat_sub]
    omega
  have hc := sbcCarry_eq (d := (t.A.toNat : Int) - v.toNat) (by omega) (by omega)
  have hle : v ≤ t.A ↔ v.toNat ≤ t.A.toNat := BitVec.le_def
  simp only [sbcBinary, h0, sub_zero, hr, hc]
  simp [Cpu.updateZeroAndNegativeFlags, Cpu.setFlag, Cpu.getFlag, getLsbD_setBit, StatusFlag.bit,
    hle]

@[simp] theorem getFlag_addPageCrossedCycle (ea : EffectiveAddress) (c : Cpu) (f : StatusFlag) :
    (addPageCrossedCycle ea c).getFlag f = c.getFlag f := by
  simp [Cpu.getFlag]

@[simp] theorem A_addPageCrossedCycle (ea : EffectiveAddress) (c : Cpu) :
    (addPageCrossedCycle ea c).A = c.A := by
  unfold addPageCrossedCycle; split <;> rfl

@[simp] theorem P_addPageCrossedCycle (ea : EffectiveAddress) (c : Cpu) :
    (addPageCrossedCycle ea c).P = c.P := by
  unfold addPageCrossedCycle; split <;> rfl

/-- The routine reads its operand with the step's entry `A` and `P`. -/
theorem stepOperand_read_A_P (c : Cpu) :
    (cpuRead (stepOperand c).2 (stepOperand c).1.address).2.A = c.A ∧
      (cpuRead (stepOperand c).2 (stepOperand c).1.address).2.P = c.P := by
  have h := (cpuRead_toCpuCore (stepOperand c).2 (stepOperand c).1.address).trans
    (stepOperand_toCpuCore c)
  have hA := congrArg CpuCore.A h
  have hP := congrArg CpuCore.P h
  exact ⟨hA, hP⟩

/-- With no latch, an `SBC` opcode at `PC` and `D` clear, a step is the binary subtract of the
byte the routine reads, on the state after the read, and the page-crossing cycle. -/
theorem cpuExecuteInstruction_sbc_read {c : Cpu} (hn : c.NMIPending = false)
    (hi : c.IRQPending = false) (hop : (cpuRead c c.PC).1 ∈ sbcOpcodes)
    (hd : c.getFlag .decimal = false) :
    let r := cpuRead (stepOperand c).2 (stepOperand c).1.address
    (cpuExecuteInstruction c).2 = addPageCrossedCycle (stepOperand c).1
      (sbcBinary r.1 (if r.2.getFlag .carry then 0 else 1) r.2) := by
  rw [cpuExecuteInstruction_of_execute hn hi (opcodeTable_sbcOpcodes _ hop)]
  simp only [Cpu.getFlag] at hd
  simp [Instruction.execute, instrSbc, stepOperand, Cpu.getFlag, hd]

/-- **Compares agree with `SBC`.** A step of a compare opcode with no interrupt latched, and a
step of an `SBC` opcode with no interrupt latched, `D` clear, `A` the compared register, `C` set
and the same operand byte, leave the same `C`, `Z` and `N`. The compare leaves `A`, `X`, `Y`, `V`
and memory as they were. -/
theorem compare_flags_match_sbc (c s : Cpu) {op : Byte} {r : Register}
    (hcmp : (op, r) ∈ compareOpcodes) (hn : c.NMIPending = false) (hi : c.IRQPending = false)
    (hop : (cpuRead c c.PC).1 = op) (hsn : s.NMIPending = false) (hsi : s.IRQPending = false)
    (hsop : (cpuRead s s.PC).1 ∈ sbcOpcodes) (hsd : s.getFlag .decimal = false)
    (hsA : s.A = c.reg r) (hsC : s.getFlag .carry = true)
    (hM : stepOperandValue s = stepOperandValue c) :
    let c' := (cpuExecuteInstruction c).2
    let s' := (cpuExecuteInstruction s).2
    (c'.getFlag .carry = s'.getFlag .carry ∧ c'.getFlag .zero = s'.getFlag .zero ∧
      c'.getFlag .negative = s'.getFlag .negative) ∧
    c'.A = c.A ∧ c'.X = c.X ∧ c'.Y = c.Y ∧ c'.getFlag .overflow = c.getFlag .overflow ∧
      c'.mem = c.mem := by
  obtain ⟨i, hi', hr⟩ := Option.bind_eq_some.mp (opcodeTable_compareOpcodes _ hcmp)
  dsimp only at hi' hr
  rw [← hop] at hi'
  -- the compare step
  have hstep : (cpuExecuteInstruction c).2 = i.execute (opcodeTable (cpuRead c c.PC).1).addrMode
      (fetchByte (clockWaitNextCycle c)).2 := by
    rw [cpuExecuteInstruction_of_execute hn hi hi']
  have hreg : (fetchByte (clockWaitNextCycle c)).2.reg r = c.reg r := by
    cases r <;> simp [Cpu.reg]
  obtain ⟨⟨hC, hZ, hN⟩, hV, hA, hX, hY, hmem⟩ := Instruction.execute_compare hr
    (opcodeTable (cpuRead c c.PC).1).addrMode (fetchByte (clockWaitNextCycle c)).2
  have hv : (cpuRead (callMode (opcodeTable (cpuRead c c.PC).1).addrMode
      (fetchByte (clockWaitNextCycle c)).2).2 (callMode (opcodeTable (cpuRead c c.PC).1).addrMode
      (fetchByte (clockWaitNextCycle c)).2).1.address).1 = stepOperandValue s := hM.symm
  rw [← hstep, hreg, hv] at hC hZ hN
  rw [← hstep] at hV hA hX hY hmem
  -- the `SBC` step: no borrow in, `A` the compared register
  obtain ⟨hsA', hsP'⟩ := stepOperand_read_A_P s
  have htC : (cpuRead (stepOperand s).2 (stepOperand s).1.address).2.getFlag .carry = true := by
    rw [Cpu.getFlag, hsP']; exact hsC
  have htA := hsA'.trans hsA
  obtain ⟨-, hC', hZ', hN'⟩ := sbcBinary_no_borrow (stepOperandValue s)
    (cpuRead (stepOperand s).2 (stepOperand s).1.address).2
  rw [htA] at hC' hZ' hN'
  have hS : (cpuExecuteInstruction s).2 = addPageCrossedCycle (stepOperand s).1
      (sbcBinary (stepOperandValue s) 0 (cpuRead (stepOperand s).2 (stepOperand s).1.address).2) := by
    rw [cpuExecuteInstruction_sbc_read hsn hsi hsop hsd]
    simp only [htC, if_true]
    rfl
  have hflag : ∀ f, (cpuExecuteInstruction s).2.getFlag f =
      (sbcBinary (stepOperandValue s) 0 (cpuRead (stepOperand s).2 (stepOperand s).1.address).2).getFlag f :=
    fun f => by rw [hS, getFlag_addPageCrossedCycle]
  have h₀ : (fetchByte (clockWaitNextCycle c)).2.A = c.A ∧ (fetchByte (clockWaitNextCycle c)).2.X = c.X ∧
      (fetchByte (clockWaitNextCycle c)).2.Y = c.Y ∧
      (fetchByte (clockWaitNextCycle c)).2.getFlag .overflow = c.getFlag .overflow ∧
      (fetchByte (clockWaitNextCycle c)).2.mem = c.mem := by
    simp [Cpu.getFlag]
  exact ⟨⟨hC.trans (hC'.symm.trans (hflag _).symm), hZ.trans (hZ'.symm.trans (hflag _).symm),
    hN.trans (hN'.symm.trans (hflag _).symm)⟩, hA.trans h₀.1, hX.trans h₀.2.1, hY.trans h₀.2.2.1,
    hV.trans h₀.2.2.2.1, hmem.trans h₀.2.2.2.2⟩

/-- `CMP #$05` and `SBC #$05` with `C` set, each at `0x0000` after `cpu_init`, agree so. -/
theorem cmp_sbc_immediate_after_init :
    let c := Cpu.initial .ram fun a => if a = 0 then 0xC9 else 0x05
    let s := { Cpu.initial .ram (fun a => if a = 0 then 0xE9 else 0x05) with P := 0x35 }
    (((0xC9 : Byte), Register.a) ∈ compareOpcodes ∧ c.NMIPending = false ∧
      c.IRQPending = false ∧ (cpuRead c c.PC).1 = 0xC9 ∧ s.NMIPending = false ∧
      s.IRQPending = false ∧ (cpuRead s s.PC).1 ∈ sbcOpcodes ∧ s.getFlag .decimal = false ∧
      s.A = c.reg .a ∧ s.getFlag .carry = true ∧ stepOperandValue s = stepOperandValue c) ∧
    let c' := (cpuExecuteInstruction c).2
    let s' := (cpuExecuteInstruction s).2
    (c'.getFlag .carry = s'.getFlag .carry ∧ c'.getFlag .zero = s'.getFlag .zero ∧
      c'.getFlag .negative = s'.getFlag .negative) ∧
    c'.A = c.A ∧ c'.X = c.X ∧ c'.Y = c.Y ∧ c'.getFlag .overflow = c.getFlag .overflow ∧
      c'.mem = c.mem :=
  ⟨⟨by decide, rfl, rfl, rfl, rfl, rfl, by decide, by decide, rfl, by decide, by decide⟩,
    @compare_flags_match_sbc _ _ 0xC9 .a (by decide) rfl rfl rfl rfl rfl (by decide) (by decide)
      rfl (by decide) (by decide)⟩

end Mos6502
