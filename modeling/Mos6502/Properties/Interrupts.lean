import Mos6502.Cpu.Effects

/-!
# Interrupt handling

At the top of every step `cpu_execute_instruction` samples the latches: `handle_nmi` is the NMI
latch, and `handle_irq` is the IRQ latch with `I` clear. Each handled latch is cleared, and if
either is handled the service pushes `PC` (high byte first) and then `P`, sets `I` to
`handle_irq`, and loads `PC` from the NMI vector when an NMI is handled and from the IRQ vector
otherwise.

`handleInterrupts_eq` says this once: the latches after the handling are the NMI latch cleared
and the IRQ latch kept only while `I` masks it, and the service runs when either was handled;
`serviceInterrupt_eq` gives the service in closed form. Two things follow that differ from a
6502. `handle_irq` does not look at the NMI latch, so a step entered with both latches set and
`I` clear vectors through `0xFFFA` and clears the IRQ latch too: that IRQ is never vectored
(`nmi_with_irq_clears_both`). And the service pushes `P` as it is, with whatever `B` and `U`
hold, and leaves `I` clear after an NMI alone (`service_pushes_status_as_is`).

## Main results

* `handleInterrupts_eq`, `serviceInterrupt_eq`: the interrupt handling of a step
* `nmi_with_irq_clears_both`: an IRQ latched together with an NMI is cleared without service
* `service_pushes_status_as_is`: what the service pushes, and the `I` it leaves
-/

namespace Mos6502

/-! ## The handling in closed form -/

/-- The latches after the handling: the NMI latch is cleared, and the IRQ latch is kept only
while `I` masks it; the service runs when either was handled. -/
theorem handleInterrupts_eq (c : Cpu) :
    handleInterrupts c =
      let irq := c.IRQPending && !c.getFlag .interrupt
      let c' := { c with NMIPending := false, IRQPending := c.IRQPending && c.getFlag .interrupt }
      if c.NMIPending || irq then serviceInterrupt c.NMIPending irq c' else c' := by
  rcases c with ⟨⟨A, X, Y, SP, P, mem, d, cy, oq, irq, nmi, wl⟩, pc, iq, il⟩
  cases irq <;> cases nmi <;> cases hI : P.getLsbD StatusFlag.interrupt.bit <;>
    simp_all [handleInterrupts, Cpu.getFlag]

section Service

variable (nmi irq : Bool) (c : Cpu)

/-- The two pushes of the service: `PC` high, `PC` low, then `P`, as it is. -/
theorem service_pushes :
    pushByte (pushWord c c.PC) c.P =
      { c with SP := c.SP - 3,
               mem := Function.update (Function.update (Function.update c.mem (stackAddr c.SP)
                 ((c.PC >>> 8).setWidth 8)) (stackAddr (c.SP - 1)) (c.PC.setWidth 8))
                 (stackAddr (c.SP - 2)) c.P,
               writeLog := c.writeLog ++ [(stackAddr c.SP, (c.PC >>> 8).setWidth 8),
                 (stackAddr (c.SP - 1), c.PC.setWidth 8), (stackAddr (c.SP - 2), c.P)] } := by
  simp only [pushWord_eq, pushByte_eq, List.append_assoc, List.singleton_append, List.cons_append,
    List.nil_append]
  congr 2
  bv_omega

/-- **The service**: the pushes, `I` set to whether an IRQ is handled, `PC` from the NMI vector
or else from the IRQ vector, and seven cycles. -/
theorem serviceInterrupt_eq :
    serviceInterrupt nmi irq c =
      { (pushByte (pushWord c c.PC) c.P).setFlag .interrupt irq with
        PC := if nmi then toWord (c.mem 0xFFFA) (c.mem 0xFFFB)
          else if irq then toWord (c.mem 0xFFFE) (c.mem 0xFFFF) else c.PC,
        cycleCount := c.cycleCount + 7 } := by
  have hP : (pushWord c c.PC).P = c.P := by simp [pushWord_eq]
  dsimp only [serviceInterrupt]
  rw [hP]
  split_ifs
  · rw [readVector_of_ne (by decide) (by decide)]
    simp [Cpu.setFlag, Cpu.addCycles, service_pushes, update_stackAddr_of_le]
  · rw [readVector_of_ne (by decide) (by decide)]
    simp [Cpu.setFlag, Cpu.addCycles, service_pushes, update_stackAddr_of_le]
  · simp [Cpu.setFlag, Cpu.addCycles, service_pushes]

end Service

/-! ## What differs from a 6502 -/

/-- **An IRQ latched with an NMI is cleared without service.** A step entered with both latches
set and `I` clear loads `PC` from the NMI vector and leaves both latches clear, so the IRQ is never
vectored through `0xFFFE`. -/
theorem nmi_with_irq_clears_both (c : Cpu) (hn : c.NMIPending = true) (hi : c.IRQPending = true)
    (hI : c.getFlag .interrupt = false) :
    (handleInterrupts c).PC = toWord (c.mem 0xFFFA) (c.mem 0xFFFB) ∧
      (cpuExecuteInstruction c).2.NMIPending = false ∧
      (cpuExecuteInstruction c).2.IRQPending = false := by
  refine ⟨?_, cpuExecuteInstruction_NMIPending c, by simp [hI]⟩
  rw [handleInterrupts_eq]
  simp [hn, hi, hI, serviceInterrupt_eq]

/-- A machine as `cpu_init` leaves it that has run a `CLI` at `0x0000` and then had an IRQ and an
NMI injected reaches such a step. -/
theorem nmi_with_irq_after_cli :
    let c := cpuInjectNMI (cpuInjectIRQ
      (cpuExecuteInstruction (Cpu.initial .ram fun a => if a = 0 then 0x58 else 0xEA)).2)
    (c.NMIPending = true ∧ c.IRQPending = true ∧ c.getFlag .interrupt = false) ∧
      (handleInterrupts c).PC = toWord (c.mem 0xFFFA) (c.mem 0xFFFB) ∧
      (cpuExecuteInstruction c).2.NMIPending = false ∧
      (cpuExecuteInstruction c).2.IRQPending = false :=
  ⟨⟨rfl, rfl, by decide⟩, nmi_with_irq_clears_both _ rfl rfl (by decide)⟩

/-- **The service pushes `P` as it is.** A step that services an interrupt pushes `PC` high and
low and then `P` itself at `0x0100 + SP`, `SP - 1` and `SP - 2`, leaves `SP - 3`, sets `I` to
whether an IRQ is handled (so an NMI alone clears it), and loads `PC` from `0xFFFA` for an NMI
and from `0xFFFE` otherwise. -/
theorem service_pushes_status_as_is (c : Cpu)
    (h : (c.NMIPending || (c.IRQPending && !c.getFlag .interrupt)) = true) :
    let s := handleInterrupts c
    s.mem (stackAddr c.SP) = (c.PC >>> 8).setWidth 8 ∧
      s.mem (stackAddr (c.SP - 1)) = c.PC.setWidth 8 ∧ s.mem (stackAddr (c.SP - 2)) = c.P ∧
      s.SP = c.SP - 3 ∧ s.getFlag .interrupt = (c.IRQPending && !c.getFlag .interrupt) ∧
      s.PC = (if c.NMIPending then toWord (c.mem 0xFFFA) (c.mem 0xFFFB)
        else toWord (c.mem 0xFFFE) (c.mem 0xFFFF)) := by
  have h₁ : stackAddr c.SP ≠ stackAddr (c.SP - 2) := stackAddr_ne_of_ne (by bv_omega)
  have h₂ : stackAddr c.SP ≠ stackAddr (c.SP - 1) := stackAddr_ne_of_ne (by bv_omega)
  have h₃ : stackAddr (c.SP - 1) ≠ stackAddr (c.SP - 2) := stackAddr_ne_of_ne (by bv_omega)
  simp only [BitVec.ofNat_eq_ofNat] at h₁ h₂ h₃
  rw [handleInterrupts_eq]
  simp only [h, if_true, serviceInterrupt_eq, service_pushes]
  refine ⟨?_, ?_, ?_, ?_, ?_, ?_⟩ <;>
    simp [Cpu.setFlag, Cpu.getFlag, StatusFlag.bit, getLsbD_setBit, Function.update_noteq, h₁, h₂,
      h₃]
  cases hn : c.NMIPending <;> simp_all [Cpu.getFlag, StatusFlag.bit]

/-- After `cpu_init` the status is `0x34`, with `B` set: an NMI then pushes `0x34` and clears
`I`. -/
theorem nmi_after_init_pushes_0x34 :
    let c := cpuInjectNMI (Cpu.initial .ram fun _ => 0xEA)
    (c.NMIPending || (c.IRQPending && !c.getFlag .interrupt)) = true ∧
      (handleInterrupts c).mem (stackAddr c.SP) = (c.PC >>> 8).setWidth 8 ∧
      (handleInterrupts c).mem (stackAddr (c.SP - 1)) = c.PC.setWidth 8 ∧
      (handleInterrupts c).mem (stackAddr (c.SP - 2)) = c.P ∧
      (handleInterrupts c).SP = c.SP - 3 ∧
      (handleInterrupts c).getFlag .interrupt = (c.IRQPending && !c.getFlag .interrupt) ∧
      (handleInterrupts c).PC = (if c.NMIPending then toWord (c.mem 0xFFFA) (c.mem 0xFFFB)
        else toWord (c.mem 0xFFFE) (c.mem 0xFFFF)) :=
  ⟨rfl, service_pushes_status_as_is _ rfl⟩

end Mos6502
