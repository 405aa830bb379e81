import Mos6502.Queue.Ring

/-!
# The CPU state and its bus

`cpu_6502_t` holds the registers, the clock's cycle counter, the two I/O queues and the interrupt
latches; the bytes themselves live in the memory device that `main.c` (monitored RAM) or the
tests (plain RAM) connect on `0x0000-0xFFFF`. Every memory access of the CPU goes through
`cpu_read` and `cpu_write`, which intercept the serial ports: a read of `INPUT_ADDR` dequeues a
byte of serial input (`0x00` when there is none), a write of `OUTPUT_ADDR` enqueues a byte of
serial output, and every other access reaches the device. The monitored RAM stores every byte it
is written and also enqueues output for the three addresses it watches.

Two fields are ghost state, written by `cpu_read` and `cpu_write` and read by nothing the CPU
does: `inputLog`, the bytes serial-input reads have taken from the input queue, and `writeLog`,
every `cpu_write` in order. They let the later modules say what a run read and wrote.

Each access gets one spec lemma (`cpuRead_fst`, `cpuRead_snd`, `cpuWrite_eq`, ...) giving the
whole resulting state as a record update of the old one, so that later proofs never unfold an
access.

## Main definitions

* `Cpu`: the emulator state; `getFlag`, `setFlag`, `updateZeroAndNegativeFlags`
* `cpuRead`, `cpuWrite`: the CPU's bus accesses, with `monitoredRamWrite`, `monitoredOutput`
* `fetchByte`, `fetchWord`, `pushByte`, `pullByte`, `pushWord`, `pullWord`

## Main results

* `getFlag_setFlag`: `set_flag` changes its flag and no other
* `pullWord_pushWord`: a pushed word is pulled back, `SP` restored
-/

namespace Mos6502

/-- `status_flag_t`: the bits of `P`. -/
inductive StatusFlag
  | carry | zero | interrupt | decimal | brk | unused | overflow | negative
  deriving DecidableEq, Repr

/-- The bit of `P` that holds the flag. -/
def StatusFlag.bit : StatusFlag → Nat
  | .carry => 0 | .zero => 1 | .interrupt => 2 | .decimal => 3
  | .brk => 4 | .unused => 5 | .overflow => 6 | .negative => 7

theorem StatusFlag.bit_lt (f : StatusFlag) : f.bit < 8 := by cases f <;> decide

theorem StatusFlag.bit_inj {f g : StatusFlag} : f.bit = g.bit ↔ f = g := by
  cases f <;> cases g <;> decide

/-- The device the bus maps on `0x0000-0xFFFF`: the plain RAM of `memory.c` (the tests' bus) or
the monitored RAM of `monitored.c` (`main.c`'s bus). -/
inductive Device
  | ram | monitoredRam
  deriving DecidableEq, Repr

/-- `cpu_status_t`. -/
inductive CpuStatus
  | success | errorInvalidArgument | errorMemoryOverflow | errorInvalidOpcode
  | errorFileNotFound | errorReadFailed
  deriving DecidableEq, Repr

/-- The part of `cpu_6502_t` that no read changes: every register but `PC` (`reg.*` flattened),
`mem` the bytes of the device on the bus, `cycleCount` the clock's `uint64_t cycle_count`, the
output queue, the interrupt latches, and the ghost `writeLog`. -/
structure CpuCore where
  A : Byte
  X : Byte
  Y : Byte
  SP : Byte
  P : Byte
  mem : Word → Byte
  device : Device
  cycleCount : BitVec 64
  outputQueue : ByteQueue
  IRQPending : Bool
  NMIPending : Bool
  writeLog : List (Word × Byte)

/-- `cpu_6502_t`: the core, `PC`, the input queue and the ghost `inputLog`. `PC` and the input
side are kept apart from the core because they are all an operand fetch can change. The pause
flag, the debug flag, the mutexes and the performance figures change nothing modelled here and
are left out. -/
structure Cpu extends CpuCore where
  PC : Word
  inputQueue : ByteQueue
  inputLog : List Byte

namespace Cpu

/-- Modelled from the spec: `get_flag`, declared in a header missing from src/, reads the flag's
bit of `P` (the code uses it both as a truth value and as the number 0 or 1). -/
def getFlag (c : Cpu) (f : StatusFlag) : Bool := c.P.getLsbD f.bit

/-- Modelled from the spec: `set_flag`, declared in a header missing from src/, sets the flag's
bit of `P` to `v`. -/
def setFlag (c : Cpu) (f : StatusFlag) (v : Bool) : Cpu := { c with P := setBit c.P f.bit v }

/-- Modelled from the spec: `update_zero_and_negative_flags` sets `Z = (v == 0)` and
`N = (v & 0x80) != 0`. -/
def updateZeroAndNegativeFlags (c : Cpu) (v : Byte) : Cpu :=
  (c.setFlag .zero (v == 0)).setFlag .negative (v &&& 0x80#8 != 0#8)

/-- `cpu->clock.cycle_count += n`. -/
def addCycles (c : Cpu) (n : BitVec 64) : Cpu := { c with cycleCount := c.cycleCount + n }

@[simp] theorem getFlag_setFlag (c : Cpu) (f g : StatusFlag) (v : Bool) :
    (c.setFlag f v).getFlag g = if f = g then v else c.getFlag g := by
  simp only [getFlag, setFlag, getLsbD_setBit _ f.bit_lt, StatusFlag.bit_inj]

theorem getFlag_updateZeroAndNegativeFlags (c : Cpu) (v : Byte) (g : StatusFlag) :
    (c.updateZeroAndNegativeFlags v).getFlag g =
      if g = .negative then v.getLsbD 7
      else if g = .zero then v == 0 else c.getFlag g := by
  cases g <;> simp [updateZeroAndNegativeFlags]

end Cpu

/-- `INPUT_ADDR`: the serial input port. -/
def inputAddr : Word := 0xD011

/-- `OUTPUT_ADDR`: the serial output port. -/
def outputAddr : Word := 0xD012

/-- `MONITORED_ADDR_OUTPUT_CHAR` (the `0x6000` of the later `monitored.h`). -/
def monitoredAddrOutputChar : Word := 0x6000

/-- `MONITORED_ADDR_TEST_STATUS`. -/
def monitoredAddrTestStatus : Word := 0x6001

/-- `MONITORED_ADDR_ADDITIONAL_STATUS` (`0x6002` in the `monitored.h` that goes with this
`monitored.c`). -/
def monitoredAddrAdditionalStatus : Word := 0x6002

/-- The bytes of an ASCII string, as `(uint8_t)message[i]` takes them. -/
def asciiBytes (s : String) : List Byte := s.toList.map fun ch => BitVec.ofNat 8 ch.toNat

/-- An upper-case hexadecimal digit, as `%X` prints it. -/
def hexDigit (n : Nat) : Char := if n < 10 then Char.ofNat (48 + n) else Char.ofNat (55 + n)

/-- `snprintf(formatted_message, 100, "ADDITIONAL TEST FAILED: CODE 0x%02X\n", data)`. -/
def additionalFailedMessage (data : Byte) : String :=
  "ADDITIONAL TEST FAILED: CODE 0x" ++ String.mk [hexDigit (data.toNat / 16), hexDigit (data.toNat % 16)]
    ++ "\n"

/-- What `monitored_ram_write` enqueues on the output queue for a write of `data` at `addr`,
one `queue_enqueue` per byte. -/
def monitoredOutput (addr : Word) (data : Byte) : List Byte :=
  if addr = monitoredAddrOutputChar then [data]
  else if addr = monitoredAddrTestStatus then
    if data = 0x00 then asciiBytes "6502 FUNCTIONAL TEST PASSED\n"
    else asciiBytes "6502 FUNCTIONAL TEST FAILED\n"
  else if addr = monitoredAddrAdditionalStatus then
    if data = 0x00 then asciiBytes "ADDITIONAL TEST PASSED\n"
    else asciiBytes (additionalFailedMessage data)
  else []

/-- `monitored_ram_write`: the byte is stored (`addr & (size - 1)` is `addr` for the 64 KiB
device), then the watched addresses enqueue their output. -/
def monitoredRamWrite (c : Cpu) (addr : Word) (data : Byte) : Cpu :=
  { c with mem := Function.update c.mem addr data,
           outputQueue := c.outputQueue.enqueueAll (monitoredOutput addr data) }

/-- `ram_write` of a 64 KiB RAM: every address is in range and is stored. -/
def ramWrite (c : Cpu) (addr : Word) (data : Byte) : Cpu :=
  { c with mem := Function.update c.mem addr data }

/-- Modelled from the spec: `bus_read` (`bus.c` is missing from src/) returns the read of the
first device whose range holds the address; both devices read their stored byte
(`ram_read`, `monitored_ram_read`). -/
def busRead (c : Cpu) (addr : Word) : Byte := c.mem addr

/-- Modelled from the spec: `bus_write` (`bus.c` is missing from src/) hands the write to the
first device whose range holds the address, here the one device on `0x0000-0xFFFF`. -/
def busWrite (c : Cpu) (addr : Word) (data : Byte) : Cpu :=
  match c.device with
  | .ram => ramWrite c addr data
  | .monitoredRam => monitoredRamWrite c addr data

/-- `cpu_read`: a read of `INPUT_ADDR` dequeues serial input, `0x00` when the queue is empty
(the ghost `inputLog` records the byte taken); any other address is read on the bus. -/
def cpuRead (c : Cpu) (addr : Word) : Byte × Cpu :=
  if addr = inputAddr then
    match c.inputQueue.dequeue with
    | (some data, q) => (data, { c with inputQueue := q, inputLog := c.inputLog ++ [data] })
    | (none, q) => (0x00, { c with inputQueue := q })
  else (busRead c addr, c)

/-- `cpu_write`: a write of `OUTPUT_ADDR` enqueues serial output and stores nothing; any other
address is written on the bus. The ghost `writeLog` records the write. -/
def cpuWrite (c : Cpu) (addr : Word) (data : Byte) : Cpu :=
  let c := { c with writeLog := c.writeLog ++ [(addr, data)] }
  if addr = outputAddr then { c with outputQueue := (c.outputQueue.enqueue data).2 }
  else busWrite c addr data

/-- The bytes a write stores: all but a write of the output port. -/
def storeByte (mem : Word → Byte) (addr : Word) (data : Byte) : Word → Byte :=
  if addr = outputAddr then mem else Function.update mem addr data

/-- The output a write enqueues: the byte itself at the output port, and the monitored RAM's
output at the addresses it watches. -/
def writeOutput (device : Device) (addr : Word) (data : Byte) : List Byte :=
  if addr = outputAddr then [data]
  else match device with
    | .ram => []
    | .monitoredRam => monitoredOutput addr data

theorem cpuRead_fst (c : Cpu) (addr : Word) :
    (cpuRead c addr).1 =
      if addr = inputAddr then (c.inputQueue.dequeue.1).getD 0x00 else c.mem addr := by
  unfold cpuRead
  split
  · split <;> rename_i h <;> simp [h]
  · rfl

/-- **Spec of `cpu_read`**: only the input queue and its log can change. -/
theorem cpuRead_snd (c : Cpu) (addr : Word) :
    (cpuRead c addr).2 =
      { c with inputQueue := if addr = inputAddr then c.inputQueue.dequeue.2 else c.inputQueue,
               inputLog := if addr = inputAddr then c.inputLog ++ c.inputQueue.dequeue.1.toList
                 else c.inputLog } := by
  unfold cpuRead
  split
  · split <;> rename_i h <;> simp [h]
  · simp

@[simp] theorem cpuRead_toCpuCore (c : Cpu) (addr : Word) : (cpuRead c addr).2.toCpuCore = c.toCpuCore := by
  rw [cpuRead_snd]

@[simp] theorem cpuRead_PC (c : Cpu) (addr : Word) : (cpuRead c addr).2.PC = c.PC := by
  rw [cpuRead_snd]

theorem cpuRead_of_ne {c : Cpu} {addr : Word} (h : addr ≠ inputAddr) :
    cpuRead c addr = (c.mem addr, c) := by
  simp [cpuRead, h, busRead]

/-- **Spec of `cpu_write`**: the bytes, the output queue and the write log change, as
`storeByte` and `writeOutput` say. -/
theorem cpuWrite_eq (c : Cpu) (addr : Word) (data : Byte) :
    cpuWrite c addr data =
      { c with mem := storeByte c.mem addr data,
               outputQueue := c.outputQueue.enqueueAll (writeOutput c.device addr data),
               writeLog := c.writeLog ++ [(addr, data)] } := by
  unfold cpuWrite storeByte writeOutput
  by_cases h : addr = outputAddr
  · simp [h, ByteQueue.enqueueAll]
  · cases hd : c.device <;> simp [h, hd, busWrite, ramWrite, monitoredRamWrite, ByteQueue.enqueueAll]

/-- `fetch_byte`: read at `PC`, then step `PC`. -/
def fetchByte (c : Cpu) : Byte × Cpu :=
  let r := cpuRead c c.PC
  (r.1, { r.2 with PC := r.2.PC + 1 })

/-- `fetch_word`: the low byte at `PC`, the high byte at `PC + 1`, `PC` stepped twice. -/
def fetchWord (c : Cpu) : Word × Cpu :=
  let low := fetchByte c
  let high := fetchByte low.2
  (toWord low.1 high.1, high.2)

/-- The stack slot `0x0100 + SP`. -/
def stackAddr (sp : Byte) : Word := 0x0100 + sp.setWidth 16

/-- `push_byte`: write at `0x0100 + SP`, then decrement `SP` (wrapping in page 1). -/
def pushByte (c : Cpu) (value : Byte) : Cpu :=
  let c := cpuWrite c (stackAddr c.SP) value
  { c with SP := c.SP - 1 }

/-- `pull_byte`: increment `SP`, then read at `0x0100 + SP`. -/
def pullByte (c : Cpu) : Byte × Cpu :=
  let c := { c with SP := c.SP + 1 }
  cpuRead c (stackAddr c.SP)

/-- `push_word`: the high byte `(value >> 8) & 0xFF`, then the low byte `value & 0xFF`. -/
def pushWord (c : Cpu) (value : Word) : Cpu :=
  pushByte (pushByte c ((value >>> 8).setWidth 8)) (value.setWidth 8)

/-- `pull_word`: the low byte, then the high byte, joined as `low | (high << 8)`. -/
def pullWord (c : Cpu) : Word × Cpu :=
  let low := pullByte c
  let high := pullByte low.2
  (toWord low.1 high.1, high.2)

theorem stackAddr_ne_inputAddr (sp : Byte) : stackAddr sp ≠ inputAddr := by
  intro h
  have := congrArg BitVec.toNat h
  have := sp.isLt
  simp [stackAddr, inputAddr] at *
  omega

theorem stackAddr_ne_outputAddr (sp : Byte) : stackAddr sp ≠ outputAddr := by
  intro h
  have := congrArg BitVec.toNat h
  have := sp.isLt
  simp [stackAddr, outputAddr] at *
  omega

theorem stackAddr_inj {a b : Byte} (h : stackAddr a = stackAddr b) : a = b := by
  have hv := congrArg BitVec.toNat h
  have := a.isLt; have := b.isLt
  simp [stackAddr] at hv
  apply BitVec.eq_of_toNat_eq
  omega

theorem stackAddr_ne_of_ne {a b : Byte} (h : a ≠ b) : stackAddr a ≠ stackAddr b :=
  fun e => h (stackAddr_inj e)

/-- The stack page lies below `0x0200`. -/
theorem stackAddr_ne_of_le {a : Word} (h : 0x200 ≤ a.toNat) (sp : Byte) : stackAddr sp ≠ a := by
  intro e
  subst e
  have := sp.isLt
  simp [stackAddr] at h
  omega

/-- A write to the stack leaves the bytes above page 1 as they were. -/
theorem update_stackAddr_of_le {a : Word} (h : 0x200 ≤ a.toNat) (f : Word → Byte) (sp v : Byte) :
    Function.update f (stackAddr sp) v a = f a :=
  Function.update_noteq (stackAddr_ne_of_le h sp).symm _ _

theorem writeOutput_stackAddr (d : Device) (sp v : Byte) : writeOutput d (stackAddr sp) v = [] := by
  have := sp.isLt
  have hne : ∀ a : Word, a.toNat < 256 ∨ 512 ≤ a.toNat → stackAddr sp ≠ a := by
    intro a ha h; subst h; simp [stackAddr] at ha; omega
  cases d <;> simp [writeOutput, monitoredOutput, stackAddr_ne_outputAddr,
    hne monitoredAddrOutputChar (by decide), hne monitoredAddrTestStatus (by decide),
    hne monitoredAddrAdditionalStatus (by decide)]

@[simp] theorem fetchByte_fst (c : Cpu) : (fetchByte c).1 = (cpuRead c c.PC).1 := rfl

@[simp] theorem fetchByte_toCpuCore (c : Cpu) : (fetchByte c).2.toCpuCore = c.toCpuCore := by
  simp [fetchByte]

@[simp] theorem fetchByte_PC (c : Cpu) : (fetchByte c).2.PC = c.PC + 1 := by
  simp [fetchByte]

@[simp] theorem fetchWord_toCpuCore (c : Cpu) : (fetchWord c).2.toCpuCore = c.toCpuCore := by
  simp [fetchWord]

@[simp] theorem fetchWord_PC (c : Cpu) : (fetchWord c).2.PC = c.PC + 2 := by
  simp [fetchWord, BitVec.add_assoc]

/-- Away from the serial input port, `fetch_word` is the little-endian word at `PC`. -/
theorem fetchWord_fst_of_ne {c : Cpu} (h₀ : c.PC ≠ inputAddr) (h₁ : c.PC + 1 ≠ inputAddr) :
    (fetchWord c).1 = toWord (c.mem c.PC) (c.mem (c.PC + 1)) := by
  simp [fetchWord, cpuRead_of_ne h₀, cpuRead_of_ne (c := (fetchByte c).2) (by simpa using h₁)]

/-- **Spec of `push_byte`.** -/
theorem pushByte_eq (c : Cpu) (v : Byte) :
    pushByte c v = { c with SP := c.SP - 1, mem := Function.update c.mem (stackAddr c.SP) v,
                            writeLog := c.writeLog ++ [(stackAddr c.SP, v)] } := by
  simp [pushByte, cpuWrite_eq, writeOutput_stackAddr, storeByte, stackAddr_ne_outputAddr,
    ByteQueue.enqueueAll]

/-- **Spec of `pull_byte`.** -/
theorem pullByte_eq (c : Cpu) : pullByte c = (c.mem (stackAddr (c.SP + 1)), { c with SP := c.SP + 1 }) := by
  exact cpuRead_of_ne (stackAddr_ne_inputAddr _)

theorem pushWord_eq (c : Cpu) (v : Word) :
    pushWord c v =
      { c with SP := c.SP - 2,
               mem := Function.update (Function.update c.mem (stackAddr c.SP) ((v >>> 8).setWidth 8))
                 (stackAddr (c.SP - 1)) (v.setWidth 8),
               writeLog := c.writeLog ++ [(stackAddr c.SP, (v >>> 8).setWidth 8),
                 (stackAddr (c.SP - 1), v.setWidth 8)] } := by
  simp [pushWord, pushByte_eq, List.append_assoc]
  bv_omega

theorem stackAddr_sub_one_ne (sp : Byte) : stackAddr (sp - 1) ≠ stackAddr sp :=
  stackAddr_ne_of_ne (by bv_omega)

/-- **`pull_word` undoes `push_word`**: the word comes back and `SP` is restored. -/
theorem pullWord_pushWord (c : Cpu) (v : Word) :
    (pullWord (pushWord c v)).1 = v ∧ (pullWord (pushWord c v)).2 = { pushWord c v with SP := c.SP } := by
  have h1 : c.SP - 2 + 1 = c.SP - 1 := by bv_omega
  have h2 : c.SP - 1 + 1 = c.SP := by bv_omega
  simp only [pullWord, pullByte_eq, pushWord_eq]
  rw [h1, h2]
  simp only [Function.update_same, Function.update_noteq (stackAddr_sub_one_ne c.SP).symm,
    toWord_split, true_and]

end Mos6502
