import Mos6502.Cpu.Effects

/-!
# The host threads and the serial input

`main.c` runs three threads on one `cpu_6502_t`. When Enter is pressed, the serial-input thread
enqueues the bytes of the lines typed on the input queue. The emulation thread runs
`cpu_execute_instruction`. Every 100 ms the render thread calls `print_cpu_state`, which shows
five stack bytes, the two serial ports and the next opcode. It reads each of them through
`cpu_read`, and a read of `INPUT_ADDR` through `cpu_read` dequeues a byte, whoever makes it.

`Host` is the shared state with two ghost records: `enqueued`, the bytes the producer enqueued
successfully, and `obtained`, the bytes the guest took by its reads of `0xD011` during steps.
`hostStep` is one action of a thread, and `hostRun` an interleaving of them. `Host.Consistent`
says that no byte is lost: what the guest obtained, followed by what the queue holds, is what was
enqueued. It holds from the start (`Host.initial_consistent`), and enqueues and steps keep it, in
every interleaving (`hostRun_consistent`). A refresh keeps it only while the queue is empty. With
a byte queued, the render thread's read of `INPUT_ADDR` takes it, and no guest read ever sees it
(`refresh_drops_input`).

## Main definitions

* `cpuReadAll`, `printCpuState`: the render thread's reads
* `enterKeyBytes`: what the serial-input thread enqueues for the lines typed
* `Host`, `HostEvent`, `hostStep`, `hostRun`: the threads' actions on the shared state
* `Host.Consistent`: no byte of serial input is lost

## Main results

* `printCpuState_takesInput`: a refresh takes the front byte of the input queue
* `hostStep_consistent`, `hostRun_consistent`: enqueues and steps lose no byte
* `refresh_drops_input`: a refresh with a byte queued loses it
-/

namespace Mos6502

/-! ## The render thread -/

/-- The reads of `addrs` through `cpu_read`, one after another: the bytes they return and the
state after them. -/
def cpuReadAll (c : Cpu) : List Word → List Byte × Cpu
  | [] => ([], c)
  | a :: as =>
    let r := cpuRead c a
    let rs := cpuReadAll r.2 as
    (r.1 :: rs.1, rs.2)

/-- `INSTRUCTION_HISTORY_SIZE`: how many stack bytes and past `PC`s the display shows. -/
def instructionHistorySize : Nat := 5

/-- `print_cpu_state`: the bytes it shows through `cpu_read`, in the order it reads them, and the
state after the reads. These are the stack bytes at `0x0100 + ((SP + i + 1) & 0xFF)` for
`i < INSTRUCTION_HISTORY_SIZE`, then the input port, the output port, and the opcode at `PC`. The
registers, flags and history it also prints are read directly and change nothing. -/
def printCpuState (c : Cpu) : List Byte × Cpu :=
  let stack := cpuReadAll c ((List.range instructionHistorySize).map fun i =>
    stackAddr (c.SP + BitVec.ofNat 8 i + 1))
  let inputPort := cpuRead stack.2 inputAddr
  let outputPort := cpuRead inputPort.2 outputAddr
  let opcode := cpuRead outputPort.2 outputPort.2.PC
  (stack.1 ++ [inputPort.1, outputPort.1, opcode.1], opcode.2)

/-- Reads of addresses other than the input port change nothing. -/
theorem cpuReadAll_of_ne {as : List Word} (h : ∀ a ∈ as, a ≠ inputAddr) (c : Cpu) :
    (cpuReadAll c as).2 = c := by
  induction as generalizing c with
  | nil => rfl
  | cons a as ih =>
    simp only [cpuReadAll, cpuRead_of_ne (h a (List.mem_cons_self _ _))]
    exact ih (fun b hb => h b (List.mem_cons_of_mem _ hb)) c

/-- **A refresh takes the front byte of the input queue**, and one more byte when `PC` is the
input port. -/
theorem printCpuState_takesInput (c : Cpu) :
    TakesInput c (printCpuState c).2 (inputTaken c inputAddr ++ inputTaken (cpuRead c inputAddr).2 c.PC) := by
  have hstack : (cpuReadAll c ((List.range instructionHistorySize).map fun i =>
      stackAddr (c.SP + BitVec.ofNat 8 i + 1))).2 = c :=
    cpuReadAll_of_ne (by simp [stackAddr_ne_inputAddr]) c
  have hout : cpuRead (cpuRead c inputAddr).2 outputAddr = (_, (cpuRead c inputAddr).2) :=
    cpuRead_of_ne (by decide)
  simp only [printCpuState, hstack, hout, cpuRead_PC]
  exact (cpuRead_takesInput c inputAddr).trans (cpuRead_takesInput _ c.PC)

/-! ## The serial-input thread -/

/-- What the serial-input thread enqueues when Enter is pressed on the lines typed: each line,
a newline between two lines, and `\r\n` at the end. -/
def enterKeyBytes (lines : List (List Byte)) : List Byte :=
  [0x0A].intercalate lines ++ [0x0D, 0x0A]

/-! ## The threads together -/

/-- The emulator as the three threads share it, with two ghost records: `enqueued`, the bytes the
serial-input thread enqueued successfully, in order, and `obtained`, the bytes the guest took by
its reads of `INPUT_ADDR` during steps, in order. -/
structure Host where
  cpu : Cpu
  enqueued : List Byte
  obtained : List Byte

/-- One action of a thread on the shared state. -/
inductive HostEvent
  /-- The serial-input thread's `queue_enqueue(&cpu->input_queue, b)`. -/
  | enqueue (b : Byte)
  /-- The emulation thread's `cpu_execute_instruction`. -/
  | step
  /-- The render thread's `print_cpu_state`. -/
  | refresh
  deriving DecidableEq, Repr

/-- The events of an Enter key press on the lines typed. -/
def enterKey (lines : List (List Byte)) : List HostEvent := (enterKeyBytes lines).map .enqueue

/-- One action. Each runs under its own lock in `main.c`, so an interleaving of the threads is a
sequence of actions. -/
def hostStep (h : Host) : HostEvent → Host
  | .enqueue b =>
    let r := h.cpu.inputQueue.enqueue b
    { h with cpu := { h.cpu with inputQueue := r.2 },
             enqueued := if r.1 then h.enqueued ++ [b] else h.enqueued }
  | .step =>
    let c := (cpuExecuteInstruction h.cpu).2
    { h with cpu := c, obtained := h.obtained ++ c.inputLog.drop h.cpu.inputLog.length }
  | .refresh => { h with cpu := (printCpuState h.cpu).2 }

/-- An interleaving of the threads' actions. -/
def hostRun (h : Host) (es : List HostEvent) : Host := es.foldl hostStep h

@[simp] theorem hostRun_nil (h : Host) : hostRun h [] = h := rfl

@[simp] theorem hostRun_cons (h : Host) (e : HostEvent) (es : List HostEvent) :
    hostRun h (e :: es) = hostRun (hostStep h e) es := rfl

/-- The threads start on the machine `cpu_init` leaves, before any byte is typed. -/
def Host.initial (c : Cpu) : Host := ⟨cpuInit c, [], []⟩

/-- No byte of serial input is lost: the bytes the guest obtained, followed by those still
queued, are the bytes enqueued, in order. -/
def Host.Consistent (h : Host) : Prop := h.obtained ++ h.cpu.inputQueue.toList = h.enqueued

instance (h : Host) : Decidable h.Consistent := inferInstanceAs (Decidable (_ = _))

theorem Host.initial_consistent (c : Cpu) : (Host.initial c).Consistent := rfl

/-- A step's bytes of serial input are those its guest reads obtained. -/
theorem step_obtains (c : Cpu) : TakesInput c (cpuExecuteInstruction c).2
    ((cpuExecuteInstruction c).2.inputLog.drop c.inputLog.length) := by
  obtain ⟨ws, hws⟩ := cpuExecuteInstruction_takesInput c
  rwa [hws.inputLog, List.drop_left]

/-- **Enqueues, steps and refreshes of an empty queue lose no byte.** -/
theorem hostStep_consistent {h : Host} (hc : h.Consistent) (e : HostEvent)
    (hr : e = .refresh → h.cpu.inputQueue.toList = []) : (hostStep h e).Consistent := by
  unfold Host.Consistent at hc ⊢
  cases e with
  | enqueue b =>
    simp only [hostStep, ByteQueue.toList_enqueue, ByteQueue.enqueue_fst, ← hc]
    by_cases hl : h.cpu.inputQueue.toList.length < queueSize <;> simp [hl]
  | step =>
    simp only [hostStep, ← hc, (step_obtains h.cpu).inputQueue, List.append_assoc]
  | refresh =>
    have hq := (printCpuState_takesInput h.cpu).inputQueue
    rw [hr rfl, eq_comm, List.append_eq_nil] at hq
    simp only [hostStep, hq.2, ← hc, hr rfl]

/-- **Interleavings of enqueues and steps lose no byte.** -/
theorem hostRun_consistent (es : List HostEvent) (hr : HostEvent.refresh ∉ es) {h : Host}
    (hc : h.Consistent) : (hostRun h es).Consistent := by
  induction es generalizing h with
  | nil => exact hc
  | cons e es ih =>
    rw [List.mem_cons, not_or] at hr
    exact ih hr.2 (hostStep_consistent hc e fun he => absurd he.symm hr.1)

/-- Typing `A` and Enter on the machine `cpu_init` leaves, and then a step, loses no byte. -/
theorem enter_then_step_consistent :
    let h := Host.initial (Cpu.initial .monitoredRam fun _ => 0xEA)
    let es := enterKey [[0x41]] ++ [.step]
    (HostEvent.refresh ∉ es ∧ h.Consistent) ∧ (hostRun h es).Consistent :=
  ⟨⟨by decide, Host.initial_consistent _⟩, hostRun_consistent _ (by decide) (Host.initial_consistent _)⟩

/-- **A refresh loses a queued byte.** From a state where no byte is lost, a refresh with the
input queue nonempty takes its front byte: no guest read obtains it, and the byte is lost. -/
theorem refresh_drops_input (h : Host) (hc : h.Consistent)
    (hne : h.cpu.inputQueue.toList ≠ []) : ¬ (hostStep h .refresh).Consistent := by
  obtain ⟨b, rest, hq⟩ := List.exists_cons_of_ne_nil hne
  have hq' := (printCpuState_takesInput h.cpu).inputQueue
  rw [inputTaken, if_pos rfl, (ByteQueue.dequeue_cons hq).1, hq] at hq'
  intro hc'
  simp only [Host.Consistent, hostStep] at hc hc'
  have := congrArg List.length (hc.trans hc'.symm)
  rw [hq, hq'] at this
  simp only [List.length_append, Option.toList_some, List.length_singleton] at this
  omega

/-- With the input queue as `cpu_init` leaves it, typing `A` and Enter and then one refresh loses
the `A`. -/
theorem refresh_after_enter_drops_input :
    let h := hostRun (Host.initial (Cpu.initial .monitoredRam fun _ => 0xEA)) (enterKey [[0x41]])
    (h.Consistent ∧ h.cpu.inputQueue.toList ≠ []) ∧ ¬ (hostStep h .refresh).Consistent :=
  ⟨⟨by decide, by decide⟩, refresh_drops_input _ (by decide) (by decide)⟩

end Mos6502
