import Mos6502.Cpu.OpcodeTable

/-!
# One step of the CPU

`cpu_execute_instruction` first samples the interrupt latches: an NMI is handled whenever it is
latched, an IRQ when it is latched and `I` is clear, each handled latch is cleared, and if either
is handled the service pushes `PC` and `P`, sets `I` to whether an IRQ is handled, and loads `PC`
from the NMI vector if an NMI is handled and from the IRQ vector otherwise. Then
`clock_wait_next_cycle` paces the step and counts one cycle, the opcode is fetched at `PC`, and
the table's routine runs with the table's addressing mode; an opcode with no routine is reported
as `CPU_ERROR_INVALID_OPCODE`. The pause wait, the debug print and the breakpoint message change
nothing modelled here.

`cpu_init`, `cpu_reset`, `cpu_inject_IRQ`, `cpu_inject_NMI`, `cpu_set_clock_frequency` and
`cpu_load_program` are the other operations on the state; `run` is a run of steps.

## Main definitions

* `handleInterrupts`, `serviceInterrupt`: the interrupt handling at the top of a step
* `clockWaitNextCycle`, `fetchAndExecute`: the rest of the step
* `cpuExecuteInstruction`, `cpuInit`, `cpuReset`, `cpuInjectIRQ`, `cpuInjectNMI`, `run`
* `clockReset`, `cpuSetClockFrequency`, `loadBytes`, `cpuLoadProgram`
* `Cpu.initial`: a machine as `cpu_init` leaves it

## Main results

* `cpuExecuteInstruction_of_no_latch`, `cpuExecuteInstruction_of_execute`: with no latch set a
  step is the fetch and the routine
-/

namespace Mos6502

/-- `clock_wait_next_cycle`: sleep until the cycle's wall-clock time (not modelled), then count
the cycle. -/
def clockWaitNextCycle (c : Cpu) : Cpu := c.addCycles 1

/-- The service of a handled interrupt: push `PC`, then `P` as it is, set `I` to whether an IRQ
is handled (`handle_irq ? true : false`), load `PC` from `0xFFFA` for an NMI and from `0xFFFE`
for an IRQ, and count 7 cycles. -/
def serviceInterrupt (handleNmi handleIrq : Bool) (c : Cpu) : Cpu :=
  let c := pushWord c c.PC
  let c := pushByte c c.P
  let c := c.setFlag .interrupt handleIrq
  let c :=
    if handleNmi then
      let v := readVector c 0xFFFA
      { v.2 with PC := v.1 }
    else if handleIrq then
      let v := readVector c 0xFFFE
      { v.2 with PC := v.1 }
    else c
  c.addCycles 7

/-- The interrupt handling of `cpu_execute_instruction`, under `interrupt_mutex` and after it. -/
def handleInterrupts (c : Cpu) : Cpu :=
  let handleNmi := c.NMIPending
  let handleIrq := c.IRQPending && !c.getFlag .interrupt
  let c := if handleNmi then { c with NMIPending := false } else c
  let c := if handleIrq then { c with IRQPending := false } else c
  if handleNmi || handleIrq then serviceInterrupt handleNmi handleIrq c else c

/-- Fetch the opcode at `PC`, look it up, and run its routine with its addressing mode. -/
def fetchAndExecute (c : Cpu) : CpuStatus × Cpu :=
  let opcode := fetchByte c
  let op := opcodeTable opcode.1
  match op.execute with
  | some i => (.success, i.execute op.addrMode opcode.2)
  | none => (.errorInvalidOpcode, opcode.2)

/-- `cpu_execute_instruction`. -/
def cpuExecuteInstruction (c : Cpu) : CpuStatus × Cpu :=
  fetchAndExecute (clockWaitNextCycle (handleInterrupts c))

/-- `cpu_init` on a `cpu_6502_t` whose other contents are arbitrary: the registers with
`P = 0x34`, the cycle counter, the queue indices and the latches are set; the memory device and
the bytes of the queues are left as they are. The ghost logs start empty. -/
def cpuInit (c : Cpu) : Cpu :=
  { c with A := 0x00, X := 0x00, Y := 0x00, PC := 0x0000, SP := 0xFD, P := 0x34,
           cycleCount := 0,
           inputQueue := ⟨queueInit c.inputQueue.toQueue, Queue.valid_queueInit _⟩,
           outputQueue := ⟨queueInit c.outputQueue.toQueue, Queue.valid_queueInit _⟩,
           IRQPending := false, NMIPending := false, inputLog := [], writeLog := [] }

/-- A machine as `cpu_init` leaves it, on a bus of the device `d` holding `mem`, with empty
queues. -/
def Cpu.initial (d : Device) (mem : Word → Byte) : Cpu :=
  cpuInit { A := 0, X := 0, Y := 0, SP := 0, P := 0, mem := mem, device := d, cycleCount := 0,
            outputQueue := .init fun _ => 0, IRQPending := false, NMIPending := false,
            writeLog := [], PC := 0, inputQueue := .init fun _ => 0, inputLog := [] }

/-- `cpu_reset`: registers as `cpu_init` sets them, `PC` from the reset vector, the cycle counter
and the latches cleared. -/
def cpuReset (c : Cpu) : Cpu :=
  let c := { c with A := 0x00, X := 0x00, Y := 0x00, SP := 0xFD, P := 0x34 }
  let low := cpuRead c 0xFFFC
  let high := cpuRead low.2 0xFFFD
  { high.2 with PC := toWord low.1 high.1, cycleCount := 0, IRQPending := false,
                NMIPending := false }

/-- `cpu_inject_IRQ`. -/
def cpuInjectIRQ (c : Cpu) : Cpu := { c with IRQPending := true }

/-- `cpu_inject_NMI`. -/
def cpuInjectNMI (c : Cpu) : Cpu := { c with NMIPending := true }

/-- `clock_reset` on a clock that `clock_init` set up: the cycle counter is zeroed (the elapsed
time and the reference time it also resets are not modelled). -/
def clockReset (c : Cpu) : Cpu := { c with cycleCount := 0 }

/-- `cpu_set_clock_frequency`: a frequency that is not positive is ignored; otherwise the frequency
and the cycle duration are stored (not modelled) and the clock is reset. The `double` is modelled
as a rational, since only its sign is read here. -/
def cpuSetClockFrequency (c : Cpu) (frequency : ℚ) : Cpu :=
  if frequency ≤ 0 then c else clockReset c

/-- The loop of `cpu_load_program`: `cpu_write(cpu, addr + (uint16_t)i, buffer[i])` for each byte
in turn, the address wrapping modulo `0x10000`. -/
def loadBytes (c : Cpu) (addr : Word) : List Byte → Cpu
  | [] => c
  | b :: bs => loadBytes (cpuWrite c addr b) (addr + 1) bs

/-- `cpu_load_program` on a file whose contents are `file` (`none` when `fopen` fails), with
`malloc` and `fread` succeeding. An empty file is refused; otherwise every byte is written from
`addr` on and then the reset vector is set to `addr`. -/
def cpuLoadProgram (c : Cpu) (file : Option (List Byte)) (addr : Word) : CpuStatus × Cpu :=
  match file with
  | none => (.errorFileNotFound, c)
  | some [] => (.errorReadFailed, c)
  | some buffer =>
    let c := loadBytes c addr buffer
    let c := cpuWrite c 0xFFFC (addr.setWidth 8)
    let c := cpuWrite c 0xFFFD ((addr >>> 8).setWidth 8)
    (.success, c)

/-- `n` steps of `cpu_execute_instruction`, whatever their status. -/
def run : Nat → Cpu → Cpu
  | 0, c => c
  | n + 1, c => run n (cpuExecuteInstruction c).2

/-- What a fetch-and-execute leaves: a routine run on the state after the fetch, or, for an
opcode with no routine, that state itself. -/
theorem fetchAndExecute_cases (c : Cpu) :
    (∃ i, (opcodeTable (fetchByte c).1).execute = some i ∧
      (fetchAndExecute c).2 = i.execute (opcodeTable (fetchByte c).1).addrMode (fetchByte c).2) ∨
    (fetchAndExecute c).2 = (fetchByte c).2 := by
  unfold fetchAndExecute
  cases h : (opcodeTable (fetchByte c).1).execute with
  | some i => exact .inl ⟨i, rfl, by simp only [h]⟩
  | none => exact .inr (by simp only [h])

theorem handleInterrupts_of_no_latch {c : Cpu} (hn : c.NMIPending = false)
    (hi : c.IRQPending = false) : handleInterrupts c = c := by
  simp [handleInterrupts, hn, hi]

/-- With no latch set, a step counts its cycle, fetches and executes. -/
theorem cpuExecuteInstruction_of_no_latch {c : Cpu} (hn : c.NMIPending = false)
    (hi : c.IRQPending = false) :
    cpuExecuteInstruction c = fetchAndExecute (clockWaitNextCycle c) := by
  rw [cpuExecuteInstruction, handleInterrupts_of_no_latch hn hi]

/-- With no latch set and a routine for the opcode at `PC`, a step runs that routine on the
state after the cycle and the fetch. -/
theorem cpuExecuteInstruction_of_execute {c : Cpu} {i : Instruction} (hn : c.NMIPending = false)
    (hi : c.IRQPending = false) (hop : (opcodeTable (cpuRead c c.PC).1).execute = some i) :
    cpuExecuteInstruction c =
      (.success, i.execute (opcodeTable (cpuRead c c.PC).1).addrMode
        (fetchByte (clockWaitNextCycle c)).2) := by
  have hfetch : (fetchByte (clockWaitNextCycle c)).1 = (cpuRead c c.PC).1 := by
    simp only [fetchByte_fst, cpuRead_fst]; rfl
  rw [cpuExecuteInstruction_of_no_latch hn hi, fetchAndExecute]
  simp only [hfetch, hop]

end Mos6502
