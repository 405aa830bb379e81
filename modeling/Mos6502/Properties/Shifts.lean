import Mos6502.Properties.Arithmetic

/-!
# Shifts and rotates

`instr_asl`, `instr_lsr`, `instr_rol`, `instr_ror` and their accumulator forms shift one byte
through the carry: the bit shifted out goes to `C`, and a rotate shifts the old `C` in at the
other end. On numbers this is a law on the carry and the operand (`Shift.law`), and the `uint8_t`
expressions of the code compute it for every carry and byte (`Shift.op_law`). A step of any of
the twenty shift opcodes sets `C`, the result, `Z` and `N` as the law says, writes the result back
with one `cpu_write` in the memory forms and with none in the accumulator forms, and keeps `X`,
`Y`, `SP` and the other flags (`shift_rotate_law`).

A rotate right undoes a rotate left, the carry included (`Shift.law_ror_law_rol`), so `ROL` then
`ROR` of `A`, or of a byte of memory, gives back the byte and the carry. Not at the serial output
port `0xD012`: there `cpu_write` sends the byte to the output queue and stores nothing, so the
`ROR` reads the byte the `ROL` read, not the one it wrote (`rol_ror_output_port`).

## Main definitions

* `Shift`, `Shift.op`, `Shift.law`: the four shifts, the code's step and the law on numbers
* `shiftAccumulatorOpcodes`, `shiftMemoryOpcodes`: the twenty opcodes
* `ShiftsWithCarry`: a machine after the shift of one byte

## Main results

* `Shift.op_law`: the code's step is the law
* `Shift.law_ror_law_rol`: on numbers, ROR undoes ROL
* `cpuExecuteInstruction_shiftAccumulator`, `cpuExecuteInstruction_shiftMemory`: a step of a
  shift opcode
* `shift_rotate_law`: the law of every shift step, and ROL then ROR restoring the byte and the
  carry at `A` and at every address but the two serial ports
-/

namespace Mos6502

/-! ## The law -/

/-- The shifts and rotates. -/
inductive Shift
  | asl | lsr | rol | ror
  deriving DecidableEq, Repr

namespace Shift

/-- The step of `instr_asl`, `instr_lsr`, `instr_rol`, `instr_ror` and their accumulator forms. -/
def op : Shift → Bool → Byte → Bool × Byte
  | asl => aslOp | lsr => lsrOp | rol => rolOp | ror => rorOp

/-- The routine of the memory form. -/
def memoryInstruction : Shift → Instruction
  | asl => .asl | lsr => .lsr | rol => .rol | ror => .ror

/-- The routine of the accumulator form. -/
def accumulatorInstruction : Shift → Instruction
  | asl => .aslAccumulator | lsr => .lsrAccumulator | rol => .rolAccumulator
  | ror => .rorAccumulator

/-- The law the specification states, on numbers: from the carry and the operand, the carry out
(the bit shifted out) and the result (with the old carry shifted in at the other end by a
rotate). -/
def law : Shift → Bool → Nat → Bool × Nat
  | asl, _, v => (v.testBit 7, 2 * v % 256)
  | lsr, _, v => (v.testBit 0, v / 2)
  | rol, c, v => (v.testBit 7, (2 * v + c.toNat) % 256)
  | ror, c, v => (v.testBit 0, v / 2 + 128 * c.toNat)

end Shift

/-! ## The code's step is the law -/

/-- Bit 0 of a byte, as the C test `(v & 0x01) != 0` reads it. -/
theorem and_0x01_ne_zero (v : Byte) : (v &&& 0x01#8 != 0#8) = v.getLsbD 0 := by
  have h : (v &&& 0x01#8).toNat = v.toNat % 2 := by
    rw [BitVec.toNat_and]
    exact Nat.and_one_is_mod _
  rw [← BitVec.testBit_toNat, Nat.testBit_zero, Bool.eq_iff_iff, bne_iff_ne, ne_eq,
    BitVec.toNat_eq, h, decide_eq_true_iff]
  simp only [BitVec.toNat_ofNat, Nat.zero_mod]
  omega

theorem toNat_shiftLeft_one (v : Byte) : (v <<< 1).toNat = 2 * v.toNat % 256 := by
  rw [BitVec.toNat_shiftLeft, Nat.shiftLeft_eq]
  omega

theorem toNat_ushiftRight_one (v : Byte) : (v >>> 1).toNat = v.toNat / 2 := by
  rw [BitVec.toNat_ushiftRight, Nat.shiftRight_eq_div_pow]

/-- `(value << 1) | carry_in`: bit 0 of the shifted byte is clear, so the `|` adds. -/
theorem shiftLeft_one_or (v : Byte) (carry : Bool) :
    (v <<< 1) ||| (if carry then 1#8 else 0#8) = (v <<< 1) + (if carry then 1#8 else 0#8) := by
  refine (BitVec.add_eq_or_of_and_eq_zero _ _ ?_).symm
  cases carry
  · simp
  · ext i
    simp [BitVec.getLsbD_shiftLeft]
    omega

/-- `(value >> 1) | (carry_in << 7)`: bit 7 of the shifted byte is clear, so the `|` adds. -/
theorem ushiftRight_one_or (v : Byte) (carry : Bool) :
    (v >>> 1) ||| (if carry then 0x80#8 else 0#8) =
      (v >>> 1) + (if carry then 0x80#8 else 0#8) := by
  refine (BitVec.add_eq_or_of_and_eq_zero _ _ ?_).symm
  cases carry
  · simp
  · ext i
    have hi := i.isLt
    generalize (i : Nat) = j at *
    interval_cases j <;> simp

/-- **The code's step is the law**, for every shift, carry and byte. -/
theorem Shift.op_law (s : Shift) (carry : Bool) (v : Byte) :
    ((s.op carry v).1, (s.op carry v).2.toNat) = s.law carry v.toNat := by
  have hv := v.isLt
  cases s <;> simp only [Shift.op, Shift.law, aslOp, lsrOp, rolOp, rorOp, and_0x80_ne_zero,
    and_0x01_ne_zero, BitVec.testBit_toNat, toNat_shiftLeft_one, toNat_ushiftRight_one,
    shiftLeft_one_or, ushiftRight_one_or, BitVec.toNat_add, Prod.mk.injEq, true_and]
  all_goals cases carry <;> simp <;> omega

/-- `ROR` of `0x01` with `C` set: the bit shifted out sets `C`, the old `C` enters at bit 7. -/
example : Shift.ror.op true 0x01#8 = (true, 0x80#8) := by decide

/-- Bit 7 of a number below 256 is set exactly from 128 on. -/
theorem testBit_seven_of_lt {v : Nat} (hv : v < 256) : v.testBit 7 = decide (128 ≤ v) := by
  rw [Nat.testBit_to_div_mod, decide_eq_decide]
  omega

/-- **ROR undoes ROL**, the carry included: on the carry and a byte, they rotate the nine bits
one place each way. -/
theorem Shift.law_ror_law_rol (carry : Bool) {v : Nat} (hv : v < 256) :
    ror.law (rol.law carry v).1 (rol.law carry v).2 = (carry, v) := by
  simp only [law, testBit_seven_of_lt hv, Nat.testBit_zero, Prod.mk.injEq]
  by_cases h : 128 ≤ v <;> cases carry <;> simp [h] <;> omega

/-! ## The twenty opcodes -/

/-- The accumulator forms in the table: `0x0A`, `0x4A`, `0x2A`, `0x6A`. -/
def shiftAccumulatorOpcodes : List (Byte × Shift) :=
  [(0x0A, .asl), (0x4A, .lsr), (0x2A, .rol), (0x6A, .ror)]

/-- The memory forms in the table: zero page, zero page X, absolute and absolute X of each. -/
def shiftMemoryOpcodes : List (Byte × Shift) :=
  [(0x06, .asl), (0x16, .asl), (0x0E, .asl), (0x1E, .asl),
   (0x46, .lsr), (0x56, .lsr), (0x4E, .lsr), (0x5E, .lsr),
   (0x26, .rol), (0x36, .rol), (0x2E, .rol), (0x3E, .rol),
   (0x66, .ror), (0x76, .ror), (0x6E, .ror), (0x7E, .ror)]

theorem opcodeTable_shiftAccumulatorOpcodes : ∀ e ∈ shiftAccumulatorOpcodes,
    (opcodeTable e.1).execute = some e.2.accumulatorInstruction := by
  simp only [shiftAccumulatorOpcodes, List.forall_mem_cons]
  exact ⟨rfl, rfl, rfl, rfl, nofun⟩

theorem opcodeTable_shiftMemoryOpcodes : ∀ e ∈ shiftMemoryOpcodes,
    (opcodeTable e.1).execute = some e.2.memoryInstruction := by
  simp only [shiftMemoryOpcodes, List.forall_mem_cons]
  exact ⟨rfl, rfl, rfl, rfl, rfl, rfl, rfl, rfl, rfl, rfl, rfl, rfl, rfl, rfl, rfl, rfl, nofun⟩

/-! ## A shift of one byte -/

/-- `c'` is `c` after the shift `s` of the byte `v` into `v'`: the carry and `v'` are the law's,
`Z` and `N` describe `v'`, and `X`, `Y`, `SP` and the flags other than `C`, `Z` and `N` are as
they were. -/
structure ShiftsWithCarry (s : Shift) (c c' : Cpu) (v v' : Byte) : Prop where
  law : (c'.getFlag .carry, v'.toNat) = s.law (c.getFlag .carry) v.toNat
  zero : c'.getFlag .zero = (v' == 0)
  negative : c'.getFlag .negative = v'.getLsbD 7
  X : c'.X = c.X
  Y : c'.Y = c.Y
  SP : c'.SP = c.SP
  flags : ∀ f, f ≠ .carry → f ≠ .zero → f ≠ .negative → c'.getFlag f = c.getFlag f

/-- `ShiftsWithCarry` reads only the registers and `P`: it carries over to states that agree with
the two everywhere but in the cycle counter, `PC` and the input side. -/
theorem ShiftsWithCarry.congr {s : Shift} {c c' d d' : Cpu} {v v' : Byte}
    (h : ShiftsWithCarry s c c' v v')
    (hc : { c.toCpuCore with cycleCount := 0 } = { d.toCpuCore with cycleCount := 0 })
    (hc' : { c'.toCpuCore with cycleCount := 0 } = { d'.toCpuCore with cycleCount := 0 }) :
    ShiftsWithCarry s d d' v v' := by
  simp only [CpuCore.mk.injEq] at hc hc'
  obtain ⟨-, hX, hY, hSP, hP, -⟩ := hc
  obtain ⟨-, hX', hY', hSP', hP', -⟩ := hc'
  obtain ⟨hl, hz, hn, hx, hy, hsp, hf⟩ := h
  simp only [Cpu.getFlag] at *
  constructor <;> simp only [Cpu.getFlag, ← hX, ← hY, ← hSP, ← hP, ← hX', ← hY', ← hSP', ← hP'] <;>
    assumption

/-- What every shift routine ends with: `C` from the step, then `Z` and `N` from its result, on a
state whose `X`, `Y`, `SP` and other flags are those of `c`. -/
theorem ShiftsWithCarry.of_update {s : Shift} {c w : Cpu} (v : Byte)
    (hX : w.X = c.X) (hY : w.Y = c.Y) (hSP : w.SP = c.SP)
    (hP : w.P = (c.setFlag .carry (s.op (c.getFlag .carry) v).1).P) :
    ShiftsWithCarry s c (w.updateZeroAndNegativeFlags (s.op (c.getFlag .carry) v).2) v
      (s.op (c.getFlag .carry) v).2 := by
  have hw : ∀ f, w.getFlag f = (c.setFlag .carry (s.op (c.getFlag .carry) v).1).getFlag f :=
    fun f => by simp only [Cpu.getFlag, hP]
  refine ⟨?_, ?_, ?_, hX, hY, hSP, fun f h₁ h₂ h₃ => ?_⟩
  · simpa [Cpu.getFlag_updateZeroAndNegativeFlags, hw] using s.op_law (c.getFlag .carry) v
  · simp [Cpu.getFlag_updateZeroAndNegativeFlags]
  · simp [Cpu.getFlag_updateZeroAndNegativeFlags]
  · simp [Cpu.getFlag_updateZeroAndNegativeFlags, hw, h₁, h₂, h₃, Ne.symm h₁]

/-! ## The routines -/

/-- **The accumulator form** shifts `A` and writes nothing on the bus. -/
theorem Shift.execute_accumulatorInstruction (s : Shift) (m : Option AddrMode) (t : Cpu) :
    ShiftsWithCarry s t (s.accumulatorInstruction.execute m t) t.A
      (s.accumulatorInstruction.execute m t).A ∧
    AfterWrites t (s.accumulatorInstruction.execute m t) [] := by
  have he : s.accumulatorInstruction.execute m t = instrShiftAccumulator s.op m t := by
    cases s <;> rfl
  rw [he]
  exact ⟨.of_update _ rfl rfl rfl rfl, .of_eq rfl rfl rfl rfl⟩

/-- The write-back of a memory shift at the address `a`: `C` from the step, the result written
with `cpu_write`, then `Z` and `N`. -/
theorem Shift.writeBack_spec (s : Shift) (u : Cpu) (a : Word) :
    let r := s.op (u.getFlag .carry) (u.mem a)
    let x := (cpuWrite (u.setFlag .carry r.1) a r.2).updateZeroAndNegativeFlags r.2
    ShiftsWithCarry s u x (u.mem a) r.2 ∧ x.A = u.A ∧ AfterWrites u x [(a, r.2)] := by
  intro r x
  have hw := cpuWrite_eq (u.setFlag .carry r.1) a r.2
  have h := cpuWrite_afterWrites (u.setFlag .carry r.1) a r.2
  have hA : x.A = u.A := by
    show ((cpuWrite (u.setFlag .carry r.1) a r.2).updateZeroAndNegativeFlags r.2).A = u.A
    rw [hw]; rfl
  refine ⟨.of_update _ ?_ ?_ ?_ ?_, hA, ⟨h.1, h.2, h.3, h.4⟩⟩ <;> rw [hw] <;> rfl

/-- The memory form, at an effective address other than the serial input port, is the
write-back on the state the addressing mode leaves; `instr_asl` also counts its page-crossing
cycle. -/
theorem Shift.execute_memoryInstruction_core (s : Shift) (m : Option AddrMode) (t : Cpu)
    (ha : (callMode m t).1.address ≠ inputAddr) :
    let u := (callMode m t).2
    let a := (callMode m t).1.address
    let r := s.op (u.getFlag .carry) (u.mem a)
    { (s.memoryInstruction.execute m t).toCpuCore with cycleCount := 0 } =
      { ((cpuWrite (u.setFlag .carry r.1) a r.2).updateZeroAndNegativeFlags r.2).toCpuCore with
        cycleCount := 0 } := by
  cases s <;> simp only [memoryInstruction, op, Instruction.execute, instrAsl, instrLsr, instrRol,
    instrRor, instrShiftMemory, cpuRead_of_ne ha, addPageCrossedCycle_eq]

/-- **The memory form** shifts the byte at the effective address `ea` of its mode, other than
the serial input port, and writes the result back there with one `cpu_write`. -/
theorem Shift.execute_memoryInstruction (s : Shift) (m : Option AddrMode) (t : Cpu)
    (ea : EffectiveAddress × Cpu) (hea : callMode m t = ea) (ha : ea.1.address ≠ inputAddr) :
    let t' := s.memoryInstruction.execute m t
    let v' := (s.op (ea.2.getFlag .carry) (ea.2.mem ea.1.address)).2
    ShiftsWithCarry s ea.2 t' (ea.2.mem ea.1.address) v' ∧ t'.A = ea.2.A ∧
      AfterWrites ea.2 t' [(ea.1.address, v')] := by
  subst hea
  have hcore := s.execute_memoryInstruction_core m t ha
  obtain ⟨h₁, h₂, h₃⟩ := s.writeBack_spec (callMode m t).2 (callMode m t).1.address
  exact ⟨h₁.congr rfl hcore.symm, (congrArg CpuCore.A hcore).trans h₂, h₃.congr rfl hcore.symm⟩

/-- ROL then ROR of one byte give back the byte and the carry. -/
theorem ShiftsWithCarry.rol_ror {c₀ c₁ c₂ : Cpu} {v v₁ v₂ : Byte}
    (h₁ : ShiftsWithCarry .rol c₀ c₁ v v₁) (h₂ : ShiftsWithCarry .ror c₁ c₂ v₁ v₂) :
    v₂ = v ∧ c₂.getFlag .carry = c₀.getFlag .carry := by
  have h := (h₂.law.trans (congrArg (fun p => Shift.ror.law p.1 p.2) h₁.law)).trans
    (Shift.law_ror_law_rol _ v.isLt)
  obtain ⟨hC₂, hv₂⟩ := Prod.mk.inj h
  exact ⟨BitVec.eq_of_toNat_eq hv₂, hC₂⟩

/-! ## A step -/

/-- **A step of an accumulator shift**, with no interrupt latched, shifts `A` and writes nothing
on the bus. -/
theorem cpuExecuteInstruction_shiftAccumulator {c : Cpu} {s : Shift} (hn : c.NMIPending = false)
    (hi : c.IRQPending = false) (hop : ((cpuRead c c.PC).1, s) ∈ shiftAccumulatorOpcodes) :
    let c' := (cpuExecuteInstruction c).2
    ShiftsWithCarry s c c' c.A c'.A ∧ AfterWrites c c' [] := by
  have hcore : { (fetchByte (clockWaitNextCycle c)).2.toCpuCore with cycleCount := 0 } =
      { c.toCpuCore with cycleCount := 0 } := by
    simp
  have hA : (fetchByte (clockWaitNextCycle c)).2.A = c.A := by simp
  have h := s.execute_accumulatorInstruction (opcodeTable (cpuRead c c.PC).1).addrMode
    (fetchByte (clockWaitNextCycle c)).2
  rw [hA] at h
  rw [cpuExecuteInstruction_of_execute hn hi
    (opcodeTable_shiftAccumulatorOpcodes ((cpuRead c c.PC).1, s) hop)]
  exact ⟨h.1.congr hcore rfl, h.2.congr hcore rfl⟩

/-- **A step of a memory shift**, with no interrupt latched and an effective address other than
the serial input port, shifts the byte there and writes the result back with one `cpu_write`. -/
theorem cpuExecuteInstruction_shiftMemory {c : Cpu} {s : Shift} (hn : c.NMIPending = false)
    (hi : c.IRQPending = false) (hop : ((cpuRead c c.PC).1, s) ∈ shiftMemoryOpcodes)
    (ha : (stepOperand c).1.address ≠ inputAddr) :
    let c' := (cpuExecuteInstruction c).2
    let a := (stepOperand c).1.address
    let v' := (s.op (c.getFlag .carry) (c.mem a)).2
    ShiftsWithCarry s c c' (c.mem a) v' ∧ c'.A = c.A ∧ AfterWrites c c' [(a, v')] := by
  have hcore := stepOperand_toCpuCore c
  have hcore₀ : { (stepOperand c).2.toCpuCore with cycleCount := 0 } =
      { c.toCpuCore with cycleCount := 0 } := by
    rw [hcore]
  have hmem : (stepOperand c).2.mem = c.mem := by rw [hcore]
  have hA : (stepOperand c).2.A = c.A := by rw [hcore]
  have hC : (stepOperand c).2.getFlag .carry = c.getFlag .carry := by
    simp only [Cpu.getFlag]
    rw [congrArg CpuCore.P hcore]
  obtain ⟨h₁, h₂, h₃⟩ := s.execute_memoryInstruction (opcodeTable (cpuRead c c.PC).1).addrMode
    (fetchByte (clockWaitNextCycle c)).2 (stepOperand c) rfl ha
  rw [hmem, hC] at h₁ h₃
  rw [cpuExecuteInstruction_of_execute hn hi
    (opcodeTable_shiftMemoryOpcodes ((cpuRead c c.PC).1, s) hop)]
  exact ⟨h₁.congr hcore₀ rfl, h₂.trans hA, h₃.congr hcore₀ rfl⟩

/-! ## ROL then ROR -/

section RoundTrip

variable {c : Cpu} (hn : c.NMIPending = false) (hi : c.IRQPending = false)
include hn hi

/-- `ROL A` then `ROR A` give back `A` and the carry. -/
theorem rol_ror_accumulator (hop₁ : ((cpuRead c c.PC).1, Shift.rol) ∈ shiftAccumulatorOpcodes)
    (hop₂ : ((cpuRead (cpuExecuteInstruction c).2 (cpuExecuteInstruction c).2.PC).1, Shift.ror) ∈
      shiftAccumulatorOpcodes) :
    let c₂ := (cpuExecuteInstruction (cpuExecuteInstruction c).2).2
    c₂.A = c.A ∧ c₂.getFlag .carry = c.getFlag .carry :=
  (cpuExecuteInstruction_shiftAccumulator hn hi hop₁).1.rol_ror
    (cpuExecuteInstruction_shiftAccumulator (cpuExecuteInstruction_no_latch hi).1
      (cpuExecuteInstruction_no_latch hi).2 hop₂).1

/-- `ROL` then `ROR` of one address, neither serial port, give back the byte there and the
carry. -/
theorem rol_ror_memory (hop₁ : ((cpuRead c c.PC).1, Shift.rol) ∈ shiftMemoryOpcodes)
    (hop₂ : ((cpuRead (cpuExecuteInstruction c).2 (cpuExecuteInstruction c).2.PC).1, Shift.ror) ∈
      shiftMemoryOpcodes)
    (ha : (stepOperand (cpuExecuteInstruction c).2).1.address = (stepOperand c).1.address)
    (hin : (stepOperand c).1.address ≠ inputAddr) (hout : (stepOperand c).1.address ≠ outputAddr) :
    let c₂ := (cpuExecuteInstruction (cpuExecuteInstruction c).2).2
    c₂.mem (stepOperand c).1.address = c.mem (stepOperand c).1.address ∧
      c₂.getFlag .carry = c.getFlag .carry := by
  obtain ⟨hn₁, hi₁⟩ := cpuExecuteInstruction_no_latch hi
  have hin₁ : (stepOperand (cpuExecuteInstruction c).2).1.address ≠ inputAddr := by
    rw [ha]; exact hin
  obtain ⟨h₁, -, hw₁⟩ := cpuExecuteInstruction_shiftMemory hn hi hop₁ hin
  obtain ⟨h₂, -, hw₂⟩ := cpuExecuteInstruction_shiftMemory hn₁ hi₁ hop₂ hin₁
  rw [ha] at h₂ hw₂
  rw [hw₁.mem_of_write hout] at h₂ hw₂
  obtain ⟨hv, hC⟩ := h₁.rol_ror h₂
  exact ⟨(hw₂.mem_of_write hout).trans hv, hC⟩

end RoundTrip

/-! ## The law of a shift step -/

/-- **Shifts and rotates.** With no interrupt latched, a step of any of the twenty shift opcodes
shifts its operand as the law says: in the accumulator forms `A`, with no bus write; in the
memory forms the byte at the effective address, when that is not the serial input port, written
back there with one `cpu_write`, `A` unchanged. `Z` and `N` describe the result, and `X`, `Y`,
`SP` and the other flags are unchanged. `ROL` then `ROR` of `A` give back `A` and the carry, and
`ROL` then `ROR` of one address give back the byte there and the carry, at every address but the
two serial ports. -/
theorem shift_rotate_law (c : Cpu) (hn : c.NMIPending = false) (hi : c.IRQPending = false)
    (s : Shift) :
    let c₁ := (cpuExecuteInstruction c).2
    let c₂ := (cpuExecuteInstruction c₁).2
    let a := (stepOperand c).1.address
    (((cpuRead c c.PC).1, s) ∈ shiftAccumulatorOpcodes →
      ShiftsWithCarry s c c₁ c.A c₁.A ∧ AfterWrites c c₁ []) ∧
    (((cpuRead c c.PC).1, s) ∈ shiftMemoryOpcodes → a ≠ inputAddr →
      ∃ v', ShiftsWithCarry s c c₁ (c.mem a) v' ∧ c₁.A = c.A ∧ AfterWrites c c₁ [(a, v')]) ∧
    (((cpuRead c c.PC).1, Shift.rol) ∈ shiftAccumulatorOpcodes →
      ((cpuRead c₁ c₁.PC).1, Shift.ror) ∈ shiftAccumulatorOpcodes →
      c₂.A = c.A ∧ c₂.getFlag .carry = c.getFlag .carry) ∧
    (((cpuRead c c.PC).1, Shift.rol) ∈ shiftMemoryOpcodes →
      ((cpuRead c₁ c₁.PC).1, Shift.ror) ∈ shiftMemoryOpcodes →
      (stepOperand c₁).1.address = a → a ≠ inputAddr → a ≠ outputAddr →
      c₂.mem a = c.mem a ∧ c₂.getFlag .carry = c.getFlag .carry) :=
  ⟨cpuExecuteInstruction_shiftAccumulator hn hi,
    fun hop ha => ⟨_, cpuExecuteInstruction_shiftMemory hn hi hop ha⟩,
    rol_ror_accumulator hn hi, rol_ror_memory hn hi⟩

/-- From `cpu_init` with `C` set: `ROL $80` then `ROR $80` with `0x81` at `0x0080`, and `ROL A` then
`ROR A` with `A = 0x81`. -/
theorem rol_ror_after_init :
    (let c := { Cpu.initial .ram fun a => if a = 0 then 0x26 else if a = 2 then 0x66
        else if a = 1 ∨ a = 3 then 0x80 else 0x81 with P := 0x35 }
      let c₁ := (cpuExecuteInstruction c).2
      (c.NMIPending = false ∧ c.IRQPending = false ∧
        ((cpuRead c c.PC).1, Shift.rol) ∈ shiftMemoryOpcodes ∧
        ((cpuRead c₁ c₁.PC).1, Shift.ror) ∈ shiftMemoryOpcodes ∧
        (stepOperand c₁).1.address = (stepOperand c).1.address ∧
        (stepOperand c).1.address ≠ inputAddr ∧ (stepOperand c).1.address ≠ outputAddr) ∧
      let c₂ := (cpuExecuteInstruction c₁).2
      let a := (stepOperand c).1.address
      (((cpuRead c c.PC).1, Shift.rol) ∈ shiftAccumulatorOpcodes →
        ShiftsWithCarry .rol c c₁ c.A c₁.A ∧ AfterWrites c c₁ []) ∧
      (((cpuRead c c.PC).1, Shift.rol) ∈ shiftMemoryOpcodes → a ≠ inputAddr →
        ∃ v', ShiftsWithCarry .rol c c₁ (c.mem a) v' ∧ c₁.A = c.A ∧ AfterWrites c c₁ [(a, v')]) ∧
      (((cpuRead c c.PC).1, Shift.rol) ∈ shiftAccumulatorOpcodes →
        ((cpuRead c₁ c₁.PC).1, Shift.ror) ∈ shiftAccumulatorOpcodes →
        c₂.A = c.A ∧ c₂.getFlag .carry = c.getFlag .carry) ∧
      (((cpuRead c c.PC).1, Shift.rol) ∈ shiftMemoryOpcodes →
        ((cpuRead c₁ c₁.PC).1, Shift.ror) ∈ shiftMemoryOpcodes →
        (stepOperand c₁).1.address = a → a ≠ inputAddr → a ≠ outputAddr →
        c₂.mem a = c.mem a ∧ c₂.getFlag .carry = c.getFlag .carry)) ∧
    (let c := { Cpu.initial .ram fun a => if a = 0 then 0x2A else 0x6A with A := 0x81, P := 0x35 }
      let c₁ := (cpuExecuteInstruction c).2
      let c₂ := (cpuExecuteInstruction c₁).2
      (c.NMIPending = false ∧ c.IRQPending = false ∧
        ((cpuRead c c.PC).1, Shift.rol) ∈ shiftAccumulatorOpcodes ∧
        ((cpuRead c₁ c₁.PC).1, Shift.ror) ∈ shiftAccumulatorOpcodes) ∧
      (ShiftsWithCarry .rol c c₁ c.A c₁.A ∧ AfterWrites c c₁ []) ∧
      c₂.A = c.A ∧ c₂.getFlag .carry = c.getFlag .carry) :=
  ⟨⟨⟨rfl, rfl, by decide, by decide, by decide, by decide, by decide⟩,
      shift_rotate_law _ rfl rfl .rol⟩,
    ⟨⟨rfl, rfl, by decide, by decide⟩, (shift_rotate_law _ rfl rfl .rol).1 (by decide),
      (shift_rotate_law _ rfl rfl .rol).2.2.1 (by decide) (by decide)⟩⟩

/-- **Not at the output port.** `ROL $D012` then `ROR $D012` with `C` set and `0x00` stored at
`0xD012`: the `ROL` sends `0x01` to the output queue and stores nothing, so the `ROR` reads
`0x00` again and clears `C`. An effective address other than the input port is not enough for
the round trip. -/
theorem rol_ror_output_port :
    ¬ ∀ c : Cpu, c.NMIPending = false → c.IRQPending = false →
      let c₁ := (cpuExecuteInstruction c).2
      let c₂ := (cpuExecuteInstruction c₁).2
      let a := (stepOperand c).1.address
      ((cpuRead c c.PC).1, Shift.rol) ∈ shiftMemoryOpcodes →
      ((cpuRead c₁ c₁.PC).1, Shift.ror) ∈ shiftMemoryOpcodes →
      (stepOperand c₁).1.address = a → a ≠ inputAddr →
      c₂.mem a = c.mem a ∧ c₂.getFlag .carry = c.getFlag .carry := fun h =>
  absurd (h { Cpu.initial .ram fun a => if a = 0 then 0x2E else if a = 3 then 0x6E
      else if a = 1 ∨ a = 4 then 0x12 else if a = 2 ∨ a = 5 then 0xD0 else 0 with P := 0x35 }
    rfl rfl (by decide) (by decide) (by decide) (by decide)).2 (by decide)

end Mos6502
