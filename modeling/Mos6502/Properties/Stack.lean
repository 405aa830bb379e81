import Mos6502.Properties.Interrupts

/-!
# Returns through the stack

`push_byte` writes at `0x0100 + SP` and then decrements `SP`, `pull_byte` increments `SP` and then
reads there, both wrapping within page 1, and words go high byte first and come back low byte
first. So a pull undoes the push before it for every `SP`, and the three pairs of a 6502
program that save and restore through the stack round-trip: `PHA` and `PLA` restore `A`, `PHP`
and `PLP` restore `P` with `B` clear and `U` set, and `RTS` returns past the `JSR` that called
it (`stack_round_trips`). Each is stated for two steps in a row, with the second opcode as the
CPU fetches it after the first step, so it covers every `SP`, every `PC` and every placement of
the code.

The status byte is another matter. `instr_brk` sets `B` in `P` itself before it pushes
`P | 0x10`, so `BRK` changes `B` (`brk_sets_break_flag`), and `instr_rti` restores the pulled byte
as it is, with no `& ~0x10` or `| 0x20`. Hence `BRK` followed by `RTI` returns with `B` set
(`brk_rti_sets_break_flag`), and an `RTI` can pull a byte with `U` clear: the first step of a
machine as `cpu_init` leaves it, with an `RTI` at `0x0000` and `0x00` on the stack, clears `U`
(`rti_after_init_clears_unused`).

## Main results

* `stack_round_trips`: `PHA`/`PLA`, `PHP`/`PLP` and `JSR`/`RTS`
* `brk_sets_break_flag`: `BRK` sets `B` and `I` in `P`
* `brk_rti_sets_break_flag`: `BRK` then `RTI` returns with `P | 0x10`
* `rti_after_init_clears_unused`: an `RTI` can leave `U` clear
-/

namespace Mos6502

section Steps

attribute [local simp] Instruction.execute Cpu.updateZeroAndNegativeFlags Cpu.setFlag Cpu.getFlag
  StatusFlag.bit getLsbD_setBit pushByte_eq pullByte_eq pushWord_eq

/-- **Round trips through the stack.** With no interrupt latched, for every `SP` and `PC`:
`PHA` followed by `PLA` restores `A` and `SP`, sets `Z` and `N` from `A` and keeps the other
flags; `PHP` followed by `PLP` restores `SP` and leaves `P` with `B` clear and `U` set; and `JSR`
followed by `RTS` resumes three bytes past the `JSR` with `SP` restored. -/
theorem stack_round_trips (c : Cpu) (hn : c.NMIPending = false) (hi : c.IRQPending = false) :
    let c₁ := (cpuExecuteInstruction c).2
    let c₂ := (cpuExecuteInstruction c₁).2
    ((cpuRead c c.PC).1 = 0x48 → (cpuRead c₁ c₁.PC).1 = 0x68 →
      c₂.A = c.A ∧ c₂.SP = c.SP ∧ c₂.getFlag .zero = (c.A == 0) ∧
        c₂.getFlag .negative = c.A.getLsbD 7 ∧
        ∀ f, f ≠ .zero → f ≠ .negative → c₂.getFlag f = c.getFlag f) ∧
    ((cpuRead c c.PC).1 = 0x08 → (cpuRead c₁ c₁.PC).1 = 0x28 →
      c₂.SP = c.SP ∧ c₂.P = (c.P &&& ~~~0x10#8) ||| 0x20#8) ∧
    ((cpuRead c c.PC).1 = 0x20 → (cpuRead c₁ c₁.PC).1 = 0x60 →
      c₂.PC = c.PC + 3 ∧ c₂.SP = c.SP) := by
  obtain ⟨hn₁, hi₁⟩ := cpuExecuteInstruction_no_latch hi
  refine ⟨fun h₁ h₂ => ?_, fun h₁ h₂ => ?_, fun h₁ h₂ => ?_⟩
  · rw [cpuExecuteInstruction_of_execute hn₁ hi₁ (show _ = some .pla by rw [h₂]; decide),
      cpuExecuteInstruction_of_execute hn hi (show _ = some .pha by rw [h₁]; decide)]
    simp [instrPha, instrPla]
    intro f hz hneg
    cases f <;> simp_all
  · rw [cpuExecuteInstruction_of_execute hn₁ hi₁ (show _ = some .plp by rw [h₂]; decide),
      cpuExecuteInstruction_of_execute hn hi (show _ = some .php by rw [h₁]; decide)]
    simp [instrPhp, instrPlp, or_0x30_and_0xEF_or_0x20]
  · have hm : (opcodeTable 0x20).addrMode = some .absolute := by decide
    rw [cpuExecuteInstruction_of_execute hn₁ hi₁ (show _ = some .rts by rw [h₂]; decide),
      cpuExecuteInstruction_of_execute hn hi (show _ = some .jsr by rw [h₁]; decide)]
    have e₁ : c.SP - 2#8 + 1#8 = c.SP - 1#8 := by bv_omega
    have e₂ : c.SP - 1#8 + 1#8 = c.SP := by bv_omega
    have hne := (stackAddr_sub_one_ne c.SP).symm
    simp only [BitVec.ofNat_eq_ofNat] at hne
    simp only [h₁, hm]
    simp [instrJsr, instrRts, callMode, AddrMode.run, addrAbsolute, pullWord, e₁, e₂,
      Function.update_noteq hne, toWord_split]
    rw [e₂, Function.update_noteq hne, Function.update_same, toWord_split]
    bv_omega

/-- Machines as `cpu_init` leaves them run each pair from `0x0000`: `PHA` and `PLA`, `PHP` and
`PLP`, and `JSR $0010` with `RTS` at `0x0010`. -/
theorem stack_round_trips_after_init :
    (let c := Cpu.initial .ram fun a => if a = 0 then 0x48 else 0x68
      let c₁ := (cpuExecuteInstruction c).2
      let c₂ := (cpuExecuteInstruction c₁).2
      (c.NMIPending = false ∧ c.IRQPending = false ∧ (cpuRead c c.PC).1 = 0x48 ∧
        (cpuRead c₁ c₁.PC).1 = 0x68) ∧
      c₂.A = c.A ∧ c₂.SP = c.SP ∧ c₂.getFlag .zero = (c.A == 0) ∧
        c₂.getFlag .negative = c.A.getLsbD 7 ∧
        ∀ f, f ≠ .zero → f ≠ .negative → c₂.getFlag f = c.getFlag f) ∧
    (let c := Cpu.initial .ram fun a => if a = 0 then 0x08 else 0x28
      let c₁ := (cpuExecuteInstruction c).2
      let c₂ := (cpuExecuteInstruction c₁).2
      (c.NMIPending = false ∧ c.IRQPending = false ∧ (cpuRead c c.PC).1 = 0x08 ∧
        (cpuRead c₁ c₁.PC).1 = 0x28) ∧
      c₂.SP = c.SP ∧ c₂.P = (c.P &&& ~~~0x10#8) ||| 0x20#8) ∧
    (let c := Cpu.initial .ram fun a => if a = 0 then 0x20 else if a = 1 then 0x10
      else if a = 2 then 0x00 else 0x60
      let c₁ := (cpuExecuteInstruction c).2
      let c₂ := (cpuExecuteInstruction c₁).2
      (c.NMIPending = false ∧ c.IRQPending = false ∧ (cpuRead c c.PC).1 = 0x20 ∧
        (cpuRead c₁ c₁.PC).1 = 0x60) ∧
      c₂.PC = c.PC + 3 ∧ c₂.SP = c.SP) :=
  ⟨⟨⟨rfl, rfl, by decide, by decide⟩, (stack_round_trips _ rfl rfl).1 (by decide) (by decide)⟩,
    ⟨⟨rfl, rfl, by decide, by decide⟩, (stack_round_trips _ rfl rfl).2.1 (by decide) (by decide)⟩,
    ⟨⟨rfl, rfl, by decide, by decide⟩, (stack_round_trips _ rfl rfl).2.2 (by decide) (by decide)⟩⟩


/-- **`BRK`**: with no latch and `BRK` fetched, a step pushes `PC + 2` and `P | 0x10`, sets `B`
and `I` in `P`, and jumps through `0xFFFE`. -/
theorem cpuExecuteInstruction_brk {c : Cpu} (hn : c.NMIPending = false) (hi : c.IRQPending = false)
    (hop : (cpuRead c c.PC).1 = 0x00) :
    let c' := (cpuExecuteInstruction c).2
    c'.P = setBit (setBit c.P 4 true) 2 true ∧ c'.SP = c.SP - 3 ∧
      c'.mem = Function.update (Function.update (Function.update c.mem (stackAddr c.SP)
        (((c.PC + 2) >>> 8).setWidth 8)) (stackAddr (c.SP - 1)) ((c.PC + 2).setWidth 8))
        (stackAddr (c.SP - 2)) (c.P ||| 0x10#8) ∧
      c'.PC = toWord (c.mem 0xFFFE) (c.mem 0xFFFF) := by
  rw [cpuExecuteInstruction_of_execute hn hi (show _ = some .brk by rw [hop]; decide)]
  dsimp only [Instruction.execute, instrBrk]
  rw [readVector_of_ne (by decide) (by decide)]
  simp [update_stackAddr_of_le, setBit_four_or_0x10, BitVec.add_assoc, sub_sub]

/-- **`RTI`**: with no latch and `RTI` fetched, a step pulls `P` as it is and then `PC`. -/
theorem cpuExecuteInstruction_rti {c : Cpu} (hn : c.NMIPending = false) (hi : c.IRQPending = false)
    (hop : (cpuRead c c.PC).1 = 0x40) :
    let c' := (cpuExecuteInstruction c).2
    c'.P = c.mem (stackAddr (c.SP + 1)) ∧ c'.SP = c.SP + 3 ∧
      c'.PC = toWord (c.mem (stackAddr (c.SP + 2))) (c.mem (stackAddr (c.SP + 3))) := by
  rw [cpuExecuteInstruction_of_execute hn hi (show _ = some .rti by rw [hop]; decide)]
  simp [instrRti, pullWord, BitVec.add_assoc]

end Steps

/-! ## The status byte through `BRK` and `RTI` -/

/-- **`BRK` sets `B` in `P`.** With no latch and `BRK` fetched, a step leaves `P | 0x14`: `I` and
also `B` set. -/
theorem brk_sets_break_flag (c : Cpu) (hn : c.NMIPending = false) (hi : c.IRQPending = false)
    (hop : (cpuRead c c.PC).1 = 0x00) : (cpuExecuteInstruction c).2.P = c.P ||| 0x14#8 := by
  rw [(cpuExecuteInstruction_brk hn hi hop).1, setBit_four_setBit_two]

/-- From `P = 0x24`, with `B` clear, a `BRK` leaves `0x34`. -/
theorem brk_from_0x24 :
    let c := { Cpu.initial .ram fun _ => 0x00 with P := 0x24 }
    (c.NMIPending = false ∧ c.IRQPending = false ∧ (cpuRead c c.PC).1 = 0x00) ∧
      (cpuExecuteInstruction c).2.P = c.P ||| 0x14#8 :=
  ⟨⟨rfl, rfl, rfl⟩, brk_sets_break_flag _ rfl rfl rfl⟩

/-- **`BRK` then `RTI` returns with `B` set.** With no latch, `BRK` fetched, and `RTI` fetched at
the vector, the two steps return to `PC + 2` with `SP` restored and `P | 0x10`, which is never
`P` with `B` clear and `U` set. -/
theorem brk_rti_sets_break_flag (c : Cpu) (hn : c.NMIPending = false) (hi : c.IRQPending = false)
    (hbrk : (cpuRead c c.PC).1 = 0x00)
    (hrti : (cpuRead (cpuExecuteInstruction c).2 (cpuExecuteInstruction c).2.PC).1 = 0x40) :
    let c₂ := (cpuExecuteInstruction (cpuExecuteInstruction c).2).2
    c₂.PC = c.PC + 2 ∧ c₂.SP = c.SP ∧ c₂.P = c.P ||| 0x10#8 ∧
      c₂.P ≠ (c.P &&& ~~~0x10#8) ||| 0x20#8 := by
  obtain ⟨hn₁, hi₁⟩ := cpuExecuteInstruction_no_latch hi
  obtain ⟨-, hSP, hmem, -⟩ := cpuExecuteInstruction_brk hn hi hbrk
  obtain ⟨hP₂, hSP₂, hPC₂⟩ := cpuExecuteInstruction_rti hn₁ hi₁ hrti
  have e₃ : c.SP - 3#8 + 3#8 = c.SP := by bv_omega
  have e₂ : c.SP - 3#8 + 2#8 = c.SP - 1#8 := by bv_omega
  have e₁ : c.SP - 3#8 + 1#8 = c.SP - 2#8 := by bv_omega
  have h₁ : stackAddr c.SP ≠ stackAddr (c.SP - 2) := stackAddr_ne_of_ne (by bv_omega)
  have h₂ : stackAddr c.SP ≠ stackAddr (c.SP - 1) := stackAddr_ne_of_ne (by bv_omega)
  have h₃ : stackAddr (c.SP - 1) ≠ stackAddr (c.SP - 2) := stackAddr_ne_of_ne (by bv_omega)
  simp only [BitVec.ofNat_eq_ofNat] at h₁ h₂ h₃
  have hP : (cpuExecuteInstruction (cpuExecuteInstruction c).2).2.P = c.P ||| 0x10#8 := by
    simp [hP₂, hSP, hmem, e₁]
  have hSP' : (cpuExecuteInstruction (cpuExecuteInstruction c).2).2.SP = c.SP := by
    rw [hSP₂, hSP]; exact e₃
  refine ⟨?_, hSP', hP, by rw [hP]; exact or_0x10_ne _ _⟩
  simp [hPC₂, hSP, hmem, e₂, e₃, Function.update_noteq, h₁, h₂, h₃, h₁.symm, h₂.symm, h₃.symm,
    toWord_split]

/-- A machine as `cpu_init` leaves it, with `BRK` at `0x0000`, the IRQ vector at `0x0200` and
`RTI` there, makes the round trip with `P = 0x34`. -/
theorem brk_rti_after_init :
    let c := Cpu.initial .ram fun a => if a = 0x0200 then 0x40 else if a = 0xFFFF then 0x02 else 0
    (c.NMIPending = false ∧ c.IRQPending = false ∧ (cpuRead c c.PC).1 = 0x00 ∧
      (cpuRead (cpuExecuteInstruction c).2 (cpuExecuteInstruction c).2.PC).1 = 0x40) ∧
    let c₂ := (cpuExecuteInstruction (cpuExecuteInstruction c).2).2
    c₂.PC = c.PC + 2 ∧ c₂.SP = c.SP ∧ c₂.P = c.P ||| 0x10#8 ∧
      c₂.P ≠ (c.P &&& ~~~0x10#8) ||| 0x20#8 :=
  ⟨⟨rfl, rfl, rfl, by decide⟩, brk_rti_sets_break_flag _ rfl rfl rfl (by decide)⟩

/-- **An `RTI` can clear `U`.** On a machine as `cpu_init` leaves it, with an `RTI` at `0x0000`
and `0x00` at `0x01FE`, where `SP = 0xFD` makes the `RTI` pull `P`, the first step clears `U`. -/
theorem rti_after_init_clears_unused (d : Device) (mem : Word → Byte) (h₀ : mem 0x0000 = 0x40)
    (h₁ : mem 0x01FE = 0x00) :
    (cpuExecuteInstruction (Cpu.initial d mem)).2.getFlag .unused = false := by
  obtain ⟨hP, -, -⟩ := cpuExecuteInstruction_rti (c := Cpu.initial d mem) rfl rfl
    (show (cpuRead _ 0).1 = _ by rw [cpuRead_of_ne (by decide)]; exact h₀)
  rw [Cpu.getFlag, hP]
  exact (congrArg (BitVec.getLsbD · 5) h₁).trans rfl

/-- Plain memory holding an `RTI` at `0x0000` and zeros elsewhere is such a machine. -/
theorem rti_after_init_on_zeros :
    let mem : Word → Byte := fun a => if a = 0 then 0x40 else 0x00
    (mem 0x0000 = 0x40 ∧ mem 0x01FE = 0x00) ∧
      (cpuExecuteInstruction (Cpu.initial .ram mem)).2.getFlag .unused = false :=
  ⟨⟨rfl, rfl⟩, rti_after_init_clears_unused _ _ rfl rfl⟩

end Mos6502
