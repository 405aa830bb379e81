import Mos6502.Cpu.Effects

/-!
# Serial output

`cpu_write` sends a write of `OUTPUT_ADDR` to the output queue and stores nothing, and hands
every other write to the monitored RAM, which stores it and enqueues output for the three
addresses it watches. Since every write of a step goes through `cpu_write` (`run_afterWrites`),
the output of a whole run is a function of its writes alone: the byte of each write to `0xD012`
or `0x6000` and the status message of each write to `0x6001` or `0x6002`, in order, for as long
as the queue has room; memory holds every other write, in order, and no write to `0xD012`
(`run_output_monitored`).

## Main definitions

* `guestWriteOutput`, `guestOutput`: the output a write, and a sequence of writes, should produce
* `storeAll`: the memory a sequence of plain stores leaves

## Main results

* `writeOutput_monitoredRam`, `applyWrites_eq_storeAll`: the bus writes of the monitored RAM
* `run_output_monitored`: the output and the memory of a run
-/

namespace Mos6502

/-- The output of one guest write of `b` at `a`: the byte itself for `0xD012` and `0x6000`, the
status message of the monitored RAM for `0x6001` and `0x6002`, and nothing for any other address. -/
def guestWriteOutput (a : Word) (b : Byte) : List Byte :=
  if a = outputAddr ∨ a = monitoredAddrOutputChar then [b]
  else if a = monitoredAddrTestStatus ∨ a = monitoredAddrAdditionalStatus then monitoredOutput a b
  else []

/-- The output of the guest writes `ws`, in order. -/
def guestOutput (ws : List (Word × Byte)) : List Byte :=
  ws.flatMap fun w => guestWriteOutput w.1 w.2

/-- The memory the plain stores `ws` leave, in order. -/
def storeAll (mem : Word → Byte) (ws : List (Word × Byte)) : Word → Byte :=
  ws.foldl (fun m w => Function.update m w.1 w.2) mem

/-- A write to the monitored RAM produces the output of a guest write. -/
theorem writeOutput_monitoredRam (a : Word) (b : Byte) :
    writeOutput .monitoredRam a b = guestWriteOutput a b := by
  unfold writeOutput guestWriteOutput monitoredOutput
  split_ifs <;> simp_all [outputAddr, monitoredAddrOutputChar, monitoredAddrTestStatus,
    monitoredAddrAdditionalStatus]

theorem writesOutput_monitoredRam (ws : List (Word × Byte)) :
    writesOutput .monitoredRam ws = guestOutput ws := by
  simp only [writesOutput, guestOutput, writeOutput_monitoredRam]

/-- Memory after the bus writes holds every write but those to `0xD012`, in order. -/
theorem applyWrites_eq_storeAll (mem : Word → Byte) (ws : List (Word × Byte)) :
    applyWrites mem ws = storeAll mem (ws.filter fun w => w.1 ≠ outputAddr) := by
  induction ws generalizing mem with
  | nil => rfl
  | cons w ws ih =>
    rw [applyWrites_cons, ih, storeByte]
    by_cases h : w.1 = outputAddr <;> simp [h, storeAll]

/-- **The output of a run.** For every run on the monitored RAM there is the sequence `ws` of its
writes, which the write log records in order; the output queue receives their `guestOutput`
while it has room, and memory stores all of them but the writes to `0xD012`. -/
theorem run_output_monitored (n : Nat) (c : Cpu) (hd : c.device = .monitoredRam) :
    ∃ ws, (run n c).writeLog = c.writeLog ++ ws ∧
      (run n c).outputQueue.toList = ByteQueue.boundedAppend c.outputQueue.toList (guestOutput ws) ∧
      (run n c).mem = storeAll c.mem (ws.filter fun w => w.1 ≠ outputAddr) := by
  obtain ⟨ws, hws⟩ := run_afterWrites n c
  refine ⟨ws, hws.writeLog, ?_, by rw [hws.mem, applyWrites_eq_storeAll]⟩
  rw [hws.outputQueue, ByteQueue.toList_enqueueAll, hd, writesOutput_monitoredRam]

/-- A machine as `cpu_init` leaves it on the monitored RAM runs so. -/
theorem run_output_after_init :
    let c := Cpu.initial .monitoredRam fun _ => 0xEA
    c.device = .monitoredRam ∧
      ∃ ws, (run 3 c).writeLog = c.writeLog ++ ws ∧
        (run 3 c).outputQueue.toList =
          ByteQueue.boundedAppend c.outputQueue.toList (guestOutput ws) ∧
        (run 3 c).mem = storeAll c.mem (ws.filter fun w => w.1 ≠ outputAddr) :=
  ⟨rfl, run_output_monitored 3 _ rfl⟩

end Mos6502
