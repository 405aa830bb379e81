import Mos6502.Cpu.Effects

/-!
# Cycle accounting

The opcode table gives each entry a cycle count, but `cpu_execute_instruction` never adds it:
the counter grows by the one cycle `clock_wait_next_cycle` counts at the top of the step and by
whatever the routine itself adds (`cpuExecuteInstruction_cycleCount`). So a step of `NOP`, whose
entry says two cycles, counts one, and the page-crossing cycle that `instr_asl` adds is charged to
a read-modify-write, which a 6502 never charges one.

The counter does not only grow. `cpu_set_clock_frequency` resets the clock to apply the new
frequency, and the reset zeroes the counter, so the `uint64_t` difference that `emulator_loop`
takes between two performance samples wraps when a frequency change falls between them
(`set_frequency_resets_cycles`).

## Main results

* `step_cycles_ignore_table`: a `NOP` counts one cycle, and an `ASL abs,X` that crosses a page
  counts two, whatever their table entries say
* `set_frequency_resets_cycles`: a frequency change sends the counter back to zero
-/

namespace Mos6502

@[simp] theorem Instruction.extraCycles_nop (ea : EffectiveAddress) (c : Cpu) :
    Instruction.nop.extraCycles ea c = 0 := rfl

@[simp] theorem Instruction.extraCycles_asl (ea : EffectiveAddress) (c : Cpu) :
    Instruction.asl.extraCycles ea c = if ea.pageCrossed then 1 else 0 := rfl

/-- **A step does not count the table's cycles.** With no interrupt latched, a `NOP` at `PC`
adds one cycle to the counter while its table entry gives two, and an `ASL abs,X` whose address
crosses a page adds two, a page-crossing cycle included, while its entry gives seven. -/
theorem step_cycles_ignore_table (c : Cpu) (hn : c.NMIPending = false)
    (hi : c.IRQPending = false) :
    ((cpuRead c c.PC).1 = 0xEA →
      (cpuExecuteInstruction c).2.cycleCount = c.cycleCount + 1 ∧ (opcodeTable 0xEA).cycles = 2) ∧
    ((cpuRead c c.PC).1 = 0x1E → (stepOperand c).1.pageCrossed = true →
      (cpuExecuteInstruction c).2.cycleCount = c.cycleCount + 2 ∧
        (opcodeTable 0x1E).cycles = 7) := by
  refine ⟨fun hop => ⟨?_, by decide⟩, fun hop hx => ⟨?_, by decide⟩⟩
  · rw [cpuExecuteInstruction_cycleCount hn hi (show _ = some .nop by rw [hop]; decide)]
    simp
  · rw [cpuExecuteInstruction_cycleCount hn hi (show _ = some .asl by rw [hop]; decide)]
    simp [hx, BitVec.add_assoc]

/-- The first step of a machine as `cpu_init` leaves it, on memory filled with `NOP`, counts one
cycle. -/
theorem nop_after_init_counts_one :
    let c := Cpu.initial .ram fun _ => 0xEA
    (c.NMIPending = false ∧ c.IRQPending = false) ∧
      (cpuExecuteInstruction c).2.cycleCount = 1 ∧ (opcodeTable 0xEA).cycles = 2 :=
  ⟨⟨rfl, rfl⟩, (step_cycles_ignore_table _ rfl rfl).1 rfl⟩

/-- **A frequency change sends the counter back.** Setting a positive frequency zeroes the cycle
counter, so a counter that had counted any cycle decreases, and the `uint64_t` difference
`cycle_count - last_cycle_count` taken against it wraps to `2^64 - last_cycle_count`. -/
theorem set_frequency_resets_cycles (c : Cpu) (frequency : ℚ) (hf : 0 < frequency)
    (hc : c.cycleCount ≠ 0) :
    (cpuSetClockFrequency c frequency).cycleCount < c.cycleCount ∧
      ((cpuSetClockFrequency c frequency).cycleCount - c.cycleCount).toNat =
        2 ^ 64 - c.cycleCount.toNat := by
  have h0 : (cpuSetClockFrequency c frequency).cycleCount = 0 := by
    rw [cpuSetClockFrequency, if_neg (not_le.mpr hf)]
    rfl
  rw [h0]
  constructor <;> bv_omega

/-- One step after `cpu_init` and then a change to 1 MHz take the counter from 1 back to 0. -/
theorem set_frequency_after_step :
    let c := (cpuExecuteInstruction (Cpu.initial .ram fun _ => 0xEA)).2
    ((0 : ℚ) < 1000000 ∧ c.cycleCount ≠ 0) ∧
      (cpuSetClockFrequency c 1000000).cycleCount < c.cycleCount ∧
      ((cpuSetClockFrequency c 1000000).cycleCount - c.cycleCount).toNat =
        2 ^ 64 - c.cycleCount.toNat :=
  ⟨⟨by decide, by decide⟩, set_frequency_resets_cycles _ _ (by decide) (by decide)⟩

end Mos6502
