import Mos6502.Cpu.Effects

/-!
# Branches and undefined opcodes

Two ways a step moves `PC` without touching anything else a program sees.

A branch reads its offset byte after the opcode through `addr_relative`. It adds the offset, sign
extended, to the `PC` after the operand, and `instr_branch` commits that target only when the
branch's flag has the value that takes it. So for every `PC`, wraps past `0xFFFF` included, and
every offset, the step ends at `PC + 2` or at `PC + 2 + offset`, with registers, flags and memory
as they were (`branch_step`).

An opcode whose table entry has no routine is reported as `CPU_ERROR_INVALID_OPCODE` after the
fetch. The step has then counted its cycle and moved `PC` past the opcode, and done nothing else
(`invalid_opcode_step`).

## Main definitions

* `branchOpcodes`: the eight branch opcodes, with the flag each tests and the value that takes it

## Main results

* `branch_step`: a step of a branch
* `invalid_opcode_step`: a step of an undefined opcode
-/

namespace Mos6502

/-! ## Branches -/

/-- The eight branch opcodes of the 6502, with the flag each tests and the value that takes it:
`BPL`, `BMI`, `BVC`, `BVS`, `BCC`, `BCS`, `BNE`, `BEQ`. -/
def branchOpcodes : List (Byte × StatusFlag × Bool) :=
  [(0x10, .negative, false), (0x30, .negative, true), (0x50, .overflow, false),
   (0x70, .overflow, true), (0x90, .carry, false), (0xB0, .carry, true), (0xD0, .zero, false),
   (0xF0, .zero, true)]

/-- The table gives each branch opcode the relative mode and a routine that tests its flag. -/
theorem opcodeTable_branchOpcodes : ∀ e ∈ branchOpcodes,
    (opcodeTable e.1).addrMode = some .relative ∧
      (opcodeTable e.1).execute.bind Instruction.branchCondition = some e.2 := by
  simp only [branchOpcodes, List.forall_mem_cons]
  refine ⟨?_, ?_, ?_, ?_, ?_, ?_, ?_, ?_, nofun⟩ <;> exact ⟨rfl, rfl⟩

/-- The routine of a branch is `instr_branch` on its flag. -/
theorem Instruction.execute_of_branchCondition {i : Instruction} {f : StatusFlag} {v : Bool}
    (h : i.branchCondition = some (f, v)) : i.execute = instrBranch f v := by
  cases i <;> simp only [branchCondition, reduceCtorEq, Option.some.injEq, Prod.mk.injEq] at h <;>
    obtain ⟨rfl, rfl⟩ := h <;> rfl

/-- A branch routine in the relative mode: the target is the `PC` after the offset byte plus the
offset, sign extended, and it is committed when the flag has the value that takes it. -/
theorem instrBranch_relative (f : StatusFlag) (v : Bool) (c : Cpu) :
    let r := cpuRead c c.PC
    let target := c.PC + 1 + r.1.signExtend 16
    (instrBranch f v (some .relative) c).toCpuCore =
        { r.2.toCpuCore with cycleCount := (instrBranch f v (some .relative) c).cycleCount } ∧
      (instrBranch f v (some .relative) c).PC =
        if c.getFlag f = v then target else c.PC + 1 := by
  simp only [instrBranch, callMode, AddrMode.run, addrRelative, fetchByte, Cpu.getFlag]
  by_cases hf : c.P.getLsbD f.bit = v <;> simp [Cpu.addCycles, hf]

/-- **A step of a branch.** With no interrupt latched, a branch opcode at `PC` ends the step at
`PC + 2 + offset`, the offset byte sign extended, when the branch's flag has the value that takes
it, and at `PC + 2` otherwise; `A`, `X`, `Y`, `SP`, `P` and memory are unchanged. -/
theorem branch_step (c : Cpu) (hn : c.NMIPending = false) (hi : c.IRQPending = false)
    {op : Byte} {f : StatusFlag} {v : Bool} (hb : (op, f, v) ∈ branchOpcodes)
    (hop : (cpuRead c c.PC).1 = op) :
    let c' := (cpuExecuteInstruction c).2
    let offset := (cpuRead (cpuRead c c.PC).2 (c.PC + 1)).1
    c'.PC = (if c.getFlag f = v then c.PC + 2 + offset.signExtend 16 else c.PC + 2) ∧
      c'.A = c.A ∧ c'.X = c.X ∧ c'.Y = c.Y ∧ c'.SP = c.SP ∧ c'.P = c.P ∧ c'.mem = c.mem := by
  obtain ⟨hm, hx⟩ := opcodeTable_branchOpcodes _ hb
  rw [← hop] at hm hx
  obtain ⟨i, hi', hcond⟩ := Option.bind_eq_some.mp hx
  rw [cpuExecuteInstruction_of_execute hn hi hi', hm, Instruction.execute_of_branchCondition hcond]
  obtain ⟨hcore, hpc⟩ := instrBranch_relative f v (fetchByte (clockWaitNextCycle c)).2
  have hA := congrArg CpuCore.A hcore
  have hX := congrArg CpuCore.X hcore
  have hY := congrArg CpuCore.Y hcore
  have hSP := congrArg CpuCore.SP hcore
  have hP := congrArg CpuCore.P hcore
  have hmem := congrArg CpuCore.mem hcore
  simp only [cpuRead_toCpuCore, fetchByte_toCpuCore] at hA hX hY hSP hP hmem
  refine ⟨?_, hA, hX, hY, hSP, hP, hmem⟩
  rw [hpc]
  simp [Cpu.getFlag, fetchByte, cpuRead_fst, cpuRead_snd, BitVec.add_assoc]

/-- A `BNE` at `0x0000` after `cpu_init`, where `Z` is clear, is such a step. -/
theorem bne_after_init :
    let c := Cpu.initial .ram fun a => if a = 0 then 0xD0 else 0xFE
    let c' := (cpuExecuteInstruction c).2
    let offset := (cpuRead (cpuRead c c.PC).2 (c.PC + 1)).1
    (c.NMIPending = false ∧ c.IRQPending = false ∧
      ((0xD0 : Byte), StatusFlag.zero, false) ∈ branchOpcodes ∧ (cpuRead c c.PC).1 = 0xD0) ∧
      c'.PC = (if c.getFlag .zero = false then c.PC + 2 + offset.signExtend 16 else c.PC + 2) ∧
      c'.A = c.A ∧ c'.X = c.X ∧ c'.Y = c.Y ∧ c'.SP = c.SP ∧ c'.P = c.P ∧ c'.mem = c.mem :=
  ⟨⟨rfl, rfl, by decide, rfl⟩, branch_step _ rfl rfl (by decide) rfl⟩

/-! ## Undefined opcodes -/

/-- **A step of an undefined opcode.** With no interrupt latched and `PC` not the serial input
port, an opcode whose table entry has no routine is reported as `CPU_ERROR_INVALID_OPCODE`, and
the step only moves `PC` past it and counts its cycle. -/
theorem invalid_opcode_step (c : Cpu) (hn : c.NMIPending = false) (hi : c.IRQPending = false)
    (hpc : c.PC ≠ inputAddr) (hop : (opcodeTable (c.mem c.PC)).execute = none) :
    cpuExecuteInstruction c =
      (.errorInvalidOpcode, { c with PC := c.PC + 1, cycleCount := c.cycleCount + 1 }) := by
  have hf : fetchByte (clockWaitNextCycle c) =
      (c.mem c.PC, { c with PC := c.PC + 1, cycleCount := c.cycleCount + 1 }) := by
    simp only [fetchByte, clockWaitNextCycle, Cpu.addCycles]
    rw [cpuRead_of_ne hpc]
  rw [cpuExecuteInstruction_of_no_latch hn hi, fetchAndExecute]
  simp only [hf, hop]

/-- On memory filled with the undefined opcode `0x02`, the first step after `cpu_init` is such a
step. -/
theorem invalid_opcode_after_init :
    let c := Cpu.initial .ram fun _ => 0x02
    (c.NMIPending = false ∧ c.IRQPending = false ∧ c.PC ≠ inputAddr ∧
      (opcodeTable (c.mem c.PC)).execute = none) ∧
      cpuExecuteInstruction c =
        (.errorInvalidOpcode, { c with PC := c.PC + 1, cycleCount := c.cycleCount + 1 }) :=
  ⟨⟨rfl, rfl, by decide, by decide⟩, invalid_opcode_step _ rfl rfl (by decide) (by decide)⟩

end Mos6502
