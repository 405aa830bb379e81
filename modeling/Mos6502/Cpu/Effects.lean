import Mos6502.Cpu.Step

/-!
# What a step does to the rest of the machine

Each routine reads and writes registers and flags in its own way, but what it does to the rest of
the machine can be said once for all sixty. A routine leaves both interrupt latches alone
(`Instruction.execute_latches`). It adds to the cycle counter only the page-crossing cycle of
ten routines and the one or two cycles of a taken branch (`Instruction.execute_cycleCount`). It
writes the bus only through `cpu_write`, so memory, the output queue and the write log change
together, as the writes it logged say (`Instruction.execute_afterWrites`). It reads the serial
input only through `cpu_read`, so the bytes it takes leave the front of the input queue and
enter the input log in order (`Instruction.execute_takesInput`).

The interrupt handling at the top of a step, the cycle it counts and the opcode fetch have the
same shape, so each of these facts lifts to a whole step of `cpu_execute_instruction` and, by
induction, to a run.

## Main definitions

* `Instruction.extraCycles`: the cycles a routine adds to the counter
* `applyWrites`, `writesOutput`, `AfterWrites`: a machine after a sequence of bus writes
* `TakesInput`: a machine after reads of the serial input
* `stepOperand`, `stepOperandValue`: the effective address a step's addressing mode computes, and
  the byte read there

## Main results

* `Instruction.execute_frame`: what every routine does to the rest of the machine, by one case
  analysis over the sixty routines
* `Instruction.execute_latches`, `Instruction.execute_cycleCount`,
  `Instruction.execute_afterWrites`, `Instruction.execute_takesInput`: its four parts
* `cpuExecuteInstruction_cycleCount`: a step counts one cycle and the routine's extra cycles
* `cpuExecuteInstruction_NMIPending`, `cpuExecuteInstruction_IRQPending`: a step clears the NMI
  latch, and the IRQ latch unless `I` masks it
* `run_afterWrites`: every write of a run goes through `cpu_write`
-/

namespace Mos6502

/-! ## Closed forms of the shared steps -/

@[simp] theorem addPageCrossedCycle_eq (ea : EffectiveAddress) (c : Cpu) :
    addPageCrossedCycle ea c =
      { c with cycleCount := c.cycleCount + (if ea.pageCrossed then 1 else 0) } := by
  unfold addPageCrossedCycle Cpu.addCycles
  split <;> simp_all

@[simp] theorem Cpu.setReg_eq (c : Cpu) (r : Register) (v : Byte) :
    c.setReg r v =
      { c with A := if r = .a then v else c.A, X := if r = .x then v else c.X,
               Y := if r = .y then v else c.Y, SP := if r = .sp then v else c.SP } := by
  cases r <;> rfl

/-! ## Cycles -/

/-- The flag a branch tests and the value that takes it. -/
def Instruction.branchCondition : Instruction → Option (StatusFlag × Bool)
  | .bcc => some (.carry, false) | .bcs => some (.carry, true) | .beq => some (.zero, true)
  | .bne => some (.zero, false) | .bmi => some (.negative, true) | .bpl => some (.negative, false)
  | .bvc => some (.overflow, false) | .bvs => some (.overflow, true)
  | _ => none

/-- The routines that end with `if (ea.page_crossed) cpu->clock.cycle_count += 1;`. -/
def Instruction.chargesPageCross : Instruction → Bool
  | .adc | .and | .asl | .cmp | .eor | .lda | .ldx | .ldy | .ora | .sbc => true
  | _ => false

/-- The cycles a routine adds to the counter, for the effective address `ea` its mode computes
from the state `c` it starts in: one for a page crossing in the routines that charge it, and for
a branch one when it is taken and one more when the target is in another page. -/
def Instruction.extraCycles (i : Instruction) (ea : EffectiveAddress) (c : Cpu) : BitVec 64 :=
  let crossing : BitVec 64 := if ea.pageCrossed then 1 else 0
  match i.branchCondition with
  | some (f, v) => if c.getFlag f = v then 1 + crossing else 0
  | none => if i.chargesPageCross then crossing else 0

/-! ## Bus writes -/

/-- The bytes memory holds after the writes `ws`, in order. -/
def applyWrites (mem : Word → Byte) (ws : List (Word × Byte)) : Word → Byte :=
  ws.foldl (fun m w => storeByte m w.1 w.2) mem

/-- The output the writes `ws` enqueue, in order. -/
def writesOutput (d : Device) (ws : List (Word × Byte)) : List Byte :=
  ws.flatMap fun w => writeOutput d w.1 w.2

@[simp] theorem applyWrites_nil (mem : Word → Byte) : applyWrites mem [] = mem := rfl

@[simp] theorem applyWrites_cons (mem : Word → Byte) (w : Word × Byte) (ws : List (Word × Byte)) :
    applyWrites mem (w :: ws) = applyWrites (storeByte mem w.1 w.2) ws := rfl

theorem applyWrites_append (mem : Word → Byte) (ws vs : List (Word × Byte)) :
    applyWrites mem (ws ++ vs) = applyWrites (applyWrites mem ws) vs :=
  List.foldl_append _ _ _ _

@[simp] theorem writesOutput_nil (d : Device) : writesOutput d [] = [] := rfl

@[simp] theorem writesOutput_cons (d : Device) (w : Word × Byte) (ws : List (Word × Byte)) :
    writesOutput d (w :: ws) = writeOutput d w.1 w.2 ++ writesOutput d ws := rfl

theorem writesOutput_append (d : Device) (ws vs : List (Word × Byte)) :
    writesOutput d (ws ++ vs) = writesOutput d ws ++ writesOutput d vs :=
  List.flatMap_append _ _ _

/-- `c'` is `c` after the bus writes `ws`, in order: the write log records them, memory stores
them, the output queue receives their output, and the device stays. -/
@[mk_iff]
structure AfterWrites (c c' : Cpu) (ws : List (Word × Byte)) : Prop where
  writeLog : c'.writeLog = c.writeLog ++ ws
  mem : c'.mem = applyWrites c.mem ws
  outputQueue : c'.outputQueue = c.outputQueue.enqueueAll (writesOutput c.device ws)
  device : c'.device = c.device

namespace AfterWrites

variable {c₁ c₂ c₃ : Cpu} {ws vs : List (Word × Byte)}

/-- A change outside the bus is after no write. -/
theorem of_eq (hl : c₂.writeLog = c₁.writeLog) (hm : c₂.mem = c₁.mem)
    (ho : c₂.outputQueue = c₁.outputQueue) (hd : c₂.device = c₁.device) : AfterWrites c₁ c₂ [] :=
  ⟨by simp [hl], hm, ho, hd⟩

theorem trans (h₁ : AfterWrites c₁ c₂ ws) (h₂ : AfterWrites c₂ c₃ vs) :
    AfterWrites c₁ c₃ (ws ++ vs) where
  writeLog := by rw [h₂.writeLog, h₁.writeLog, List.append_assoc]
  mem := by rw [h₂.mem, h₁.mem, applyWrites_append]
  outputQueue := by rw [h₂.outputQueue, h₁.outputQueue, h₁.device, writesOutput_append,
    ByteQueue.enqueueAll_append]
  device := h₂.device.trans h₁.device

/-- `AfterWrites` reads only memory, the output queue, the device and the write log: it carries
over to states that agree with the two everywhere but in the cycle counter, `PC` and the input
side. -/
theorem congr {d₁ d₂ : Cpu} (h : AfterWrites c₁ c₂ ws)
    (hc₁ : { c₁.toCpuCore with cycleCount := 0 } = { d₁.toCpuCore with cycleCount := 0 })
    (hc₂ : { c₂.toCpuCore with cycleCount := 0 } = { d₂.toCpuCore with cycleCount := 0 }) :
    AfterWrites d₁ d₂ ws := by
  simp only [CpuCore.mk.injEq] at hc₁ hc₂
  obtain ⟨-, -, -, -, -, hm, hd, -, ho, -, -, hl⟩ := hc₁
  obtain ⟨-, -, -, -, -, hm', hd', -, ho', -, -, hl'⟩ := hc₂
  obtain ⟨h₁, h₂, h₃, h₄⟩ := h
  exact ⟨hl' ▸ hl ▸ h₁, hm' ▸ hm ▸ h₂, ho' ▸ ho ▸ hd ▸ h₃, hd' ▸ hd ▸ h₄⟩

/-- After the one write `(a, v)` of an address other than the output port, memory holds `v`
there. -/
theorem mem_of_write {a : Word} {v : Byte} (h : AfterWrites c₁ c₂ [(a, v)])
    (ha : a ≠ outputAddr) : c₂.mem a = v := by
  rw [h.mem]
  simp [storeByte, ha]

end AfterWrites

/-- A write is after itself. -/
theorem cpuWrite_afterWrites (c : Cpu) (a : Word) (b : Byte) :
    AfterWrites c (cpuWrite c a b) [(a, b)] := by
  rw [cpuWrite_eq]
  exact ⟨rfl, rfl, by simp [writesOutput], rfl⟩

/-! ## Serial input -/

/-- `c'` is `c` after reads that took the bytes `ws` off the front of the input queue and into
the input log. -/
structure TakesInput (c c' : Cpu) (ws : List Byte) : Prop where
  inputLog : c'.inputLog = c.inputLog ++ ws
  inputQueue : c.inputQueue.toList = ws ++ c'.inputQueue.toList

namespace TakesInput

variable {c₁ c₂ c₃ : Cpu} {ws vs : List Byte}

theorem of_eq (hl : c₂.inputLog = c₁.inputLog) (hq : c₂.inputQueue = c₁.inputQueue) :
    TakesInput c₁ c₂ [] :=
  ⟨by simp [hl], by simp [hq]⟩

theorem trans (h₁ : TakesInput c₁ c₂ ws) (h₂ : TakesInput c₂ c₃ vs) : TakesInput c₁ c₃ (ws ++ vs) :=
  ⟨by rw [h₂.inputLog, h₁.inputLog, List.append_assoc],
   by rw [h₁.inputQueue, h₂.inputQueue, List.append_assoc]⟩

/-- Reads took bytes off the front of the queue if the log followed by the queue is unchanged
and the log did not shrink. -/
theorem of_append_eq (h : c₂.inputLog ++ c₂.inputQueue.toList = c₁.inputLog ++ c₁.inputQueue.toList)
    (hl : c₁.inputLog.length ≤ c₂.inputLog.length) :
    TakesInput c₁ c₂ (c₂.inputLog.drop c₁.inputLog.length) := by
  have hpre : c₁.inputLog <+: c₂.inputLog ++ c₂.inputQueue.toList := by
    rw [h]; exact List.prefix_append _ _
  obtain ⟨ws, hws⟩ := List.prefix_of_prefix_length_le hpre (List.prefix_append _ _) hl
  rw [← hws, List.append_assoc, List.append_cancel_left_eq] at h
  constructor <;> rw [← hws] <;> simp [h]

end TakesInput

/-- A read moves what it takes from the front of the input queue to the end of the input log. -/
@[simp] theorem cpuRead_inputLog_append (c : Cpu) (a : Word) :
    (cpuRead c a).2.inputLog ++ (cpuRead c a).2.inputQueue.toList =
      c.inputLog ++ c.inputQueue.toList := by
  rw [cpuRead_snd]
  split <;> simp [ByteQueue.dequeue_toList]

/-- The bytes a read of `a` takes off the input queue: the front byte for a read of the input
port when there is one, nothing otherwise. -/
def inputTaken (c : Cpu) (a : Word) : List Byte :=
  if a = inputAddr then c.inputQueue.dequeue.1.toList else []

@[simp] theorem length_cpuRead_inputLog (c : Cpu) (a : Word) :
    (cpuRead c a).2.inputLog.length = c.inputLog.length + (inputTaken c a).length := by
  rw [cpuRead_snd, inputTaken]
  split <;> simp

/-- A read takes `inputTaken` off the front of the input queue. -/
theorem cpuRead_takesInput (c : Cpu) (a : Word) : TakesInput c (cpuRead c a).2 (inputTaken c a) := by
  rw [cpuRead_snd, inputTaken]
  split <;> exact ⟨by simp, by simp [ByteQueue.dequeue_toList]⟩

theorem fetchByte_takesInput (c : Cpu) :
    TakesInput c (fetchByte c).2 ((fetchByte c).2.inputLog.drop c.inputLog.length) :=
  .of_append_eq (by simp [fetchByte]) (by simp [fetchByte])

section AddrModes

attribute [local simp] callMode AddrMode.run addrImmediate addrZeroPage addrZeroPageX
  addrZeroPageY addrAbsolute addrAbsoluteX addrAbsoluteY addrIndirect addrIndirectX addrIndirectY
  addrRelative fetchWord fetchByte

@[simp] theorem callMode_inputLog_append (m : Option AddrMode) (c : Cpu) :
    (callMode m c).2.inputLog ++ (callMode m c).2.inputQueue.toList =
      c.inputLog ++ c.inputQueue.toList := by
  rcases m with _ | m
  · rfl
  · cases m <;> simp

theorem length_callMode_inputLog (m : Option AddrMode) (c : Cpu) :
    c.inputLog.length ≤ (callMode m c).2.inputLog.length := by
  rcases m with _ | m
  · exact le_rfl
  · cases m <;> simp [Nat.add_assoc]

end AddrModes

/-! ## The routines -/

section Routines

attribute [local simp] instrAdc instrAnd instrAsl instrAslAccumulator instrBcc instrBcs instrBeq
  instrBit instrBmi instrBne instrBpl instrBrk instrBvc instrBvs instrClc instrCld instrCli
  instrClv instrCmp instrCpx instrCpy instrDec instrDex instrDey instrEor instrInc instrInx
  instrIny instrJmp instrJsr instrLda instrLdx instrLdy instrLsr instrLsrAccumulator instrNop
  instrOra instrPha instrPhp instrPla instrPlp instrRol instrRolAccumulator instrRor
  instrRorAccumulator instrRti instrRts instrSbc instrSec instrSed instrSei instrSta instrStx
  instrSty instrTax instrTay instrTsx instrTxa instrTxs instrTya instrLoad instrStore
  instrTransfer instrStepRegister instrLogical instrCompare instrStepMemory instrShiftMemory
  instrShiftAccumulator instrBranch instrSetFlag adcBinary adcDecimal sbcBinary
  Cpu.updateZeroAndNegativeFlags Cpu.setFlag Cpu.addCycles cpuWrite_eq pushByte_eq pullByte_eq
  pushWord_eq pullWord readVector

variable (i : Instruction) (m : Option AddrMode) (c : Cpu)

/-- **What a routine does to the rest of the machine**, in one case analysis over the sixty
routines: the latches stay, the cycle counter gains `extraCycles`, memory, the output queue and
the write log change together as the logged writes say, and the serial input moves from the
front of the queue to the end of the log. -/
theorem Instruction.execute_frame :
    ((i.execute m c).IRQPending = c.IRQPending ∧ (i.execute m c).NMIPending = c.NMIPending) ∧
    (i.execute m c).cycleCount = c.cycleCount + i.extraCycles (callMode m c).1 c ∧
    ((i.execute m c).writeLog = c.writeLog ++ (i.execute m c).writeLog.drop c.writeLog.length ∧
      (i.execute m c).mem = applyWrites c.mem ((i.execute m c).writeLog.drop c.writeLog.length) ∧
      (i.execute m c).outputQueue = c.outputQueue.enqueueAll
        (writesOutput c.device ((i.execute m c).writeLog.drop c.writeLog.length)) ∧
      (i.execute m c).device = c.device) ∧
    ((i.execute m c).inputLog ++ (i.execute m c).inputQueue.toList =
        c.inputLog ++ c.inputQueue.toList ∧
      c.inputLog.length ≤ (i.execute m c).inputLog.length) := by
  cases i <;> dsimp only [Instruction.execute, extraCycles, branchCondition, chargesPageCross] <;>
    simp [apply_ite Cpu.toCpuCore, apply_ite CpuCore.IRQPending, apply_ite CpuCore.NMIPending,
      apply_ite CpuCore.cycleCount, Cpu.getFlag, BitVec.add_assoc, add_ite,
      apply_ite CpuCore.writeLog, apply_ite CpuCore.mem, apply_ite CpuCore.outputQueue,
      apply_ite CpuCore.device, storeByte, writeOutput_stackAddr, stackAddr_ne_outputAddr,
      apply_ite Cpu.inputLog, apply_ite Cpu.inputQueue] <;>
    (have hle := length_callMode_inputLog m c; omega)

/-- **No routine touches a latch.** -/
theorem Instruction.execute_latches :
    (i.execute m c).IRQPending = c.IRQPending ∧ (i.execute m c).NMIPending = c.NMIPending :=
  (i.execute_frame m c).1

/-- **The cycles of a routine** are its `extraCycles`. -/
theorem Instruction.execute_cycleCount :
    (i.execute m c).cycleCount = c.cycleCount + i.extraCycles (callMode m c).1 c :=
  (i.execute_frame m c).2.1

/-- **A routine's bus effect is its writes**: memory, the output queue and the write log change
as the writes it logged say. -/
theorem Instruction.execute_afterWrites :
    AfterWrites c (i.execute m c) ((i.execute m c).writeLog.drop c.writeLog.length) :=
  (afterWrites_iff _ _ _).2 (i.execute_frame m c).2.2.1

/-- **A routine's serial input comes off the front of the queue.** -/
theorem Instruction.execute_takesInput :
    TakesInput c (i.execute m c) ((i.execute m c).inputLog.drop c.inputLog.length) :=
  .of_append_eq (i.execute_frame m c).2.2.2.1 (i.execute_frame m c).2.2.2.2

end Routines

@[simp] theorem Instruction.execute_IRQPending (i : Instruction) (m : Option AddrMode) (c : Cpu) :
    (i.execute m c).IRQPending = c.IRQPending := (i.execute_latches m c).1

@[simp] theorem Instruction.execute_NMIPending (i : Instruction) (m : Option AddrMode) (c : Cpu) :
    (i.execute m c).NMIPending = c.NMIPending := (i.execute_latches m c).2

/-! ## A step -/

section Interrupts

attribute [local simp] serviceInterrupt Cpu.setFlag Cpu.addCycles pushByte_eq pushWord_eq
  readVector cpuRead_snd inputAddr

variable (c : Cpu)

theorem handleInterrupts_latches :
    (handleInterrupts c).NMIPending = false ∧
      (handleInterrupts c).IRQPending = (c.IRQPending && c.getFlag .interrupt) := by
  cases hn : c.NMIPending <;> cases hi : c.IRQPending <;> cases hf : c.getFlag .interrupt <;>
    simp [handleInterrupts, hn, hi, hf]

theorem handleInterrupts_afterWrites :
    AfterWrites c (handleInterrupts c) ((handleInterrupts c).writeLog.drop c.writeLog.length) := by
  rw [afterWrites_iff, handleInterrupts]
  split_ifs <;> simp [apply_ite Cpu.toCpuCore, apply_ite CpuCore.writeLog, apply_ite CpuCore.mem,
    apply_ite CpuCore.outputQueue, apply_ite CpuCore.device, storeByte, writeOutput_stackAddr,
    stackAddr_ne_outputAddr, *]

/-- The interrupt handling reads only the vectors, never the serial input. -/
theorem handleInterrupts_takesInput : TakesInput c (handleInterrupts c) [] := by
  apply TakesInput.of_eq <;> rw [handleInterrupts] <;> split_ifs <;>
    simp [apply_ite Cpu.inputLog, apply_ite Cpu.inputQueue, *]

end Interrupts

/-- The state a step hands to the fetch: after the interrupt handling and the cycle. -/
theorem cpuExecuteInstruction_eq (c : Cpu) :
    cpuExecuteInstruction c = fetchAndExecute (clockWaitNextCycle (handleInterrupts c)) := rfl

@[simp] theorem clockWaitNextCycle_eq (c : Cpu) :
    clockWaitNextCycle c = { c with cycleCount := c.cycleCount + 1 } := rfl

/-- **A step clears the NMI latch.** -/
@[simp] theorem cpuExecuteInstruction_NMIPending (c : Cpu) :
    (cpuExecuteInstruction c).2.NMIPending = false := by
  rcases fetchAndExecute_cases (clockWaitNextCycle (handleInterrupts c)) with ⟨i, -, h⟩ | h <;>
    rw [cpuExecuteInstruction_eq, h] <;> simp [(handleInterrupts_latches c).1]

/-- **A step clears the IRQ latch unless `I` masks it.** -/
@[simp] theorem cpuExecuteInstruction_IRQPending (c : Cpu) :
    (cpuExecuteInstruction c).2.IRQPending = (c.IRQPending && c.getFlag .interrupt) := by
  rcases fetchAndExecute_cases (clockWaitNextCycle (handleInterrupts c)) with ⟨i, -, h⟩ | h <;>
    rw [cpuExecuteInstruction_eq, h] <;> simp [(handleInterrupts_latches c).2]

/-- A step leaves no latch set when it starts with no IRQ latched. -/
theorem cpuExecuteInstruction_no_latch {c : Cpu} (hi : c.IRQPending = false) :
    (cpuExecuteInstruction c).2.NMIPending = false ∧
      (cpuExecuteInstruction c).2.IRQPending = false := by
  rw [cpuExecuteInstruction_NMIPending, cpuExecuteInstruction_IRQPending, hi, Bool.false_and]
  exact ⟨rfl, rfl⟩

/-- A step's bus effect is a sequence of writes. -/
theorem cpuExecuteInstruction_afterWrites (c : Cpu) :
    ∃ ws, AfterWrites c (cpuExecuteInstruction c).2 ws := by
  have hpre := (handleInterrupts_afterWrites c).trans
    (show AfterWrites _ (fetchByte (clockWaitNextCycle (handleInterrupts c))).2 [] from
      .of_eq (by simp) (by simp) (by simp) (by simp))
  rcases fetchAndExecute_cases (clockWaitNextCycle (handleInterrupts c)) with ⟨i, -, h⟩ | h <;>
    rw [cpuExecuteInstruction_eq, h]
  · exact ⟨_, hpre.trans (Instruction.execute_afterWrites _ _ _)⟩
  · exact ⟨_, hpre⟩

/-- A step's serial input comes off the front of the queue. -/
theorem cpuExecuteInstruction_takesInput (c : Cpu) :
    ∃ ws, TakesInput c (cpuExecuteInstruction c).2 ws := by
  have hpre := ((handleInterrupts_takesInput c).trans
    (show TakesInput _ (clockWaitNextCycle (handleInterrupts c)) [] from .of_eq rfl rfl)).trans
    (fetchByte_takesInput _)
  rcases fetchAndExecute_cases (clockWaitNextCycle (handleInterrupts c)) with ⟨i, -, h⟩ | h <;>
    rw [cpuExecuteInstruction_eq, h]
  · exact ⟨_, hpre.trans (Instruction.execute_takesInput _ _ _)⟩
  · exact ⟨_, hpre⟩

/-- The effective address and the state after it that the addressing mode of the opcode at `PC`
computes in a step with no interrupt to service: the mode runs after the cycle and the fetch. -/
def stepOperand (c : Cpu) : EffectiveAddress × Cpu :=
  callMode (opcodeTable (cpuRead c c.PC).1).addrMode (fetchByte (clockWaitNextCycle c)).2

/-- The byte the routine of such a step reads at its effective address, through `cpu_read`. -/
def stepOperandValue (c : Cpu) : Byte := (cpuRead (stepOperand c).2 (stepOperand c).1.address).1

/-- The routine reads its operand in a state that differs from the step's entry state only in the
cycle counter, `PC` and the input side. -/
theorem stepOperand_toCpuCore (c : Cpu) :
    (stepOperand c).2.toCpuCore = { c.toCpuCore with cycleCount := c.cycleCount + 1 } := by
  simp [stepOperand]

theorem Instruction.extraCycles_of_P_eq (i : Instruction) (ea : EffectiveAddress) {c c' : Cpu}
    (h : c'.P = c.P) : i.extraCycles ea c' = i.extraCycles ea c := by
  simp only [extraCycles, Cpu.getFlag, h]

/-- **The cycles of a step** with no latch and a routine for the opcode at `PC`: the one cycle
`clock_wait_next_cycle` counts and the routine's extra cycles. -/
theorem cpuExecuteInstruction_cycleCount {c : Cpu} {i : Instruction} (hn : c.NMIPending = false)
    (hi : c.IRQPending = false) (hop : (opcodeTable (cpuRead c c.PC).1).execute = some i) :
    (cpuExecuteInstruction c).2.cycleCount =
      c.cycleCount + 1 + i.extraCycles (stepOperand c).1 c := by
  have hP : (fetchByte (clockWaitNextCycle c)).2.P = c.P := by simp
  rw [cpuExecuteInstruction_of_execute hn hi hop, Instruction.execute_cycleCount,
    i.extraCycles_of_P_eq _ hP]
  simp [stepOperand]

/-! ## A run -/

/-- **A run's bus effect is a sequence of writes.** -/
theorem run_afterWrites (n : Nat) (c : Cpu) : ∃ ws, AfterWrites c (run n c) ws := by
  induction n generalizing c with
  | zero => exact ⟨[], .of_eq rfl rfl rfl rfl⟩
  | succ n ih =>
    obtain ⟨ws, hws⟩ := cpuExecuteInstruction_afterWrites c
    obtain ⟨vs, hvs⟩ := ih (cpuExecuteInstruction c).2
    exact ⟨ws ++ vs, hws.trans hvs⟩

end Mos6502
