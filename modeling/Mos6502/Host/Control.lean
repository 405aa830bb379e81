import Mos6502.Host.LineEditor

/-!
# The control flags and the emulation loop

`main.c` steers the emulation thread through `volatile bool` globals that the serial-input thread
writes: F2 toggles `emulator_paused` and clears `step_mode`, F5 sets `emulator_reset`, F7 sets
`emulator_paused`, `step_mode` and `step_instruction`, F10 sets `emulator_exit`. No lock guards
them. `emulator_loop` reads them: it reloads the program on a reset, then runs an instruction when
`!emulator_paused || (step_mode && step_instruction)`, and clears `step_instruction` after it when
`step_mode` is set, so that in step mode each F7 runs one instruction.

Here each access of a flag is one action, and so is each of the two stores of
`update_instruction_history`, which no lock orders either. `loopStep` is the emulation thread's
action at each point of its loop (`LoopPc`), with the outcome of `load_binary` and of
`cpu_execute_instruction` as a parameter; `keyPress` is the serial-input thread reading a
function key, and `keyStore` the stores of the key's handler that follow, one at a time
(`KeyPc`). `Control` adds two ghost
counters: the F7 presses, and the instructions the loop started because its step test passed.

When each key's handler runs without the loop acting in between, the loop never runs more
stepped instructions than F7 was pressed (`steppedRuns_le_stepPresses`): `stepCredit`, the runs
the flags still allow without a new F7, plus the runs made, never exceeds the presses. Without
that, the bound fails, and by as much as one likes (`stepped_runs_exceed_presses`). When F2 lands
between a stepped instruction and the loop's test of `step_mode`, `step_instruction` is left
set; the next F7's store of `step_mode` then lets the loop run one instruction on that stale flag,
clear it, and run another once the F7's store of `step_instruction` lands. The round can repeat,
each F7 running two instructions. The counters only count (`controlRun_addCounts`), so a round is
computed once.

No action clears `emulator_exit`. Once it is set, each loop action lowers `exitRank`, the most
loop actions left before the loop stops, and the loop stores a `PC` in the history at most once
more (`exitCredit`, `controlStep_of_exit`).

## Main definitions

* `Flags`, `LoopPc`, `loopStep`: the flags and the emulation thread's actions
* `KeyPc`, `keyPress`, `keyStore`: the serial-input thread's function keys
* `Control`, `controlStep`, `controlRun`: both threads, with the ghost counters

## Main results

* `steppedRuns_le_stepPresses`: with each key handled at once, one F7 runs at most one instruction
* `stepped_runs_exceed_presses`: with the handlers' stores interleaved, `n + 1` presses can run
  `2 * n + 1` instructions
-/

namespace Mos6502

/-! ## The flags and the loop -/

/-- ncurses' `KEY_F(n)`: `KEY_F0` (octal 0410) plus `n`. -/
def keyF (n : Nat) : Nat := 264 + n

/-- The control flags, `volatile bool` globals shared by the threads. -/
structure Flags where
  emulatorPaused : Bool
  emulatorExit : Bool
  emulatorReset : Bool
  stepMode : Bool
  stepInstruction : Bool
  deriving DecidableEq, Repr

/-- Their initializers: the emulator starts paused. -/
def Flags.initial : Flags := ⟨true, false, false, false, false⟩

/-- The points of `emulator_loop` between two accesses to shared state. -/
inductive LoopPc
  /-- `while (!emulator_exit)` -/
  | top
  /-- `if (emulator_reset)` -/
  | checkReset
  /-- `load_binary(cpu, current_binary_path_user, current_load_address_user)` -/
  | reload
  /-- `emulator_reset = false` -/
  | clearReset
  /-- `emulator_paused = true` -/
  | setPaused
  /-- `step_mode = false` -/
  | clearStepMode
  /-- the read of `emulator_paused` in the test -/
  | readPaused
  /-- the read of `step_mode` in the test -/
  | readStepMode
  /-- the read of `step_instruction` in the test -/
  | readStepInstruction
  /-- `cpu_execute_instruction(cpu, NULL)` -/
  | execute
  /-- `instruction_history[history_index] = pc`, the first store of
  `update_instruction_history(cpu->reg.PC)` -/
  | history
  /-- `history_index = (history_index + 1) % INSTRUCTION_HISTORY_SIZE`, its second store -/
  | historyIndex
  /-- `if (step_mode)` -/
  | checkStepMode
  /-- `step_instruction = false` -/
  | clearStepInstruction
  /-- `clock_wait_next_cycle(&cpu->clock)` -/
  | wait
  /-- after the loop -/
  | stopped
  deriving DecidableEq, Repr

/-- The emulation thread's action at `pc`: the flags and the point after it. `ok` is whether
`load_binary` returned 0 at `reload`, and whether `cpu_execute_instruction` returned
`CPU_SUCCESS` at `execute`; a failure sets `emulator_exit` and leaves the loop. -/
def loopStep (f : Flags) (ok : Bool) : LoopPc → Flags × LoopPc
  | .top => (f, if f.emulatorExit then .stopped else .checkReset)
  | .checkReset => (f, if f.emulatorReset then .reload else .readPaused)
  | .reload => if ok then (f, .clearReset) else ({ f with emulatorExit := true }, .stopped)
  | .clearReset => ({ f with emulatorReset := false }, .setPaused)
  | .setPaused => ({ f with emulatorPaused := true }, .clearStepMode)
  | .clearStepMode => ({ f with stepMode := false }, .readPaused)
  | .readPaused => (f, if !f.emulatorPaused then .execute else .readStepMode)
  | .readStepMode => (f, if f.stepMode then .readStepInstruction else .top)
  | .readStepInstruction => (f, if f.stepInstruction then .execute else .top)
  | .execute => if ok then (f, .history) else ({ f with emulatorExit := true }, .stopped)
  | .history => (f, .historyIndex)
  | .historyIndex => (f, .checkStepMode)
  | .checkStepMode => (f, if f.stepMode then .clearStepInstruction else .wait)
  | .clearStepInstruction => ({ f with stepInstruction := false }, .wait)
  | .wait => (f, .top)
  | .stopped => (f, .stopped)

/-! ## The function keys -/

/-- The points of `serial_input_thread` inside a function key's handler. -/
inductive KeyPc
  /-- waiting for a key -/
  | idle
  /-- F2's store of `emulator_paused`, of the negation of the value it read -/
  | storePaused (v : Bool)
  /-- F2's `step_mode = false` -/
  | clearStepMode
  /-- F7's `step_mode = true` -/
  | setStepMode
  /-- F7's `step_instruction = true` -/
  | setStepInstruction
  deriving DecidableEq, Repr

/-- The serial-input thread reads key `k`: F2 reads `emulator_paused`, F5, F7 and F10 make their
first store. Other keys leave the flags. -/
def keyPress (f : Flags) (k : Nat) : Flags × KeyPc :=
  if k = keyF 2 then (f, .storePaused !f.emulatorPaused)
  else if k = keyF 5 then ({ f with emulatorReset := true }, .idle)
  else if k = keyF 7 then ({ f with emulatorPaused := true }, .setStepMode)
  else if k = keyF 10 then ({ f with emulatorExit := true }, .idle)
  else (f, .idle)

/-- The next store of the key's handler. -/
def keyStore (f : Flags) : KeyPc → Flags × KeyPc
  | .idle => (f, .idle)
  | .storePaused v => ({ f with emulatorPaused := v }, .clearStepMode)
  | .clearStepMode => ({ f with stepMode := false }, .idle)
  | .setStepMode => ({ f with stepMode := true }, .setStepInstruction)
  | .setStepInstruction => ({ f with stepInstruction := true }, .idle)

/-! ## Both threads -/

/-- The flags, the two threads' points, and two ghost counters: `stepPresses`, the F7 keys read,
and `steppedRuns`, the instructions the loop started because `step_mode && step_instruction`
held. -/
structure Control where
  flags : Flags
  loop : LoopPc
  key : KeyPc
  stepPresses : Nat
  steppedRuns : Nat
  deriving DecidableEq, Repr

/-- The threads at their start. -/
def Control.initial : Control := ⟨Flags.initial, .top, .idle, 0, 0⟩

/-- One action of a thread. -/
inductive ControlEvent
  /-- the serial-input thread reads a key, when it is not inside a handler -/
  | press (k : Nat)
  /-- the serial-input thread's next store -/
  | store
  /-- the emulation thread's next action, with the outcome of the call it makes -/
  | loop (ok : Bool)
  deriving DecidableEq, Repr

/-- One action on the flags. -/
def controlStep (s : Control) : ControlEvent → Control
  | .press k =>
    if s.key = .idle then
      { s with flags := (keyPress s.flags k).1, key := (keyPress s.flags k).2,
               stepPresses := s.stepPresses + if k = keyF 7 then 1 else 0 }
    else s
  | .store => { s with flags := (keyStore s.flags s.key).1, key := (keyStore s.flags s.key).2 }
  | .loop ok =>
    { s with flags := (loopStep s.flags ok s.loop).1, loop := (loopStep s.flags ok s.loop).2,
             steppedRuns := s.steppedRuns +
               if s.loop = .readStepInstruction ∧ s.flags.stepInstruction then 1 else 0 }

/-- An interleaving of the threads' actions. -/
def controlRun (s : Control) (es : List ControlEvent) : Control := es.foldl controlStep s

theorem controlRun_append (s : Control) (es es' : List ControlEvent) :
    controlRun s (es ++ es') = controlRun (controlRun s es) es' := List.foldl_append _ _ _ _

/-! ## Each F7 runs at most one instruction -/

/-- The stepped runs the flags allow the loop without another F7: one when `step_mode` and
`step_instruction` are set, except between the start of an instruction and the loop's clearing
of `step_instruction`; at the read of `step_instruction`, `step_mode` has already been read. -/
def stepCredit (f : Flags) : LoopPc → Nat
  | .readStepInstruction => f.stepInstruction.toNat
  | .execute | .history | .historyIndex | .checkStepMode | .clearStepInstruction | .stopped => 0
  | _ => (f.stepMode && f.stepInstruction).toNat

theorem stepCredit_le_one (f : Flags) (pc : LoopPc) : stepCredit f pc ≤ 1 := by
  cases pc <;> simp only [stepCredit] <;> first | exact Bool.toNat_le _ | exact Nat.zero_le _

/-- The credit reads `step_mode` and `step_instruction` only. -/
theorem stepCredit_congr {f g : Flags} (pc : LoopPc) (hsm : g.stepMode = f.stepMode)
    (hsi : g.stepInstruction = f.stepInstruction) : stepCredit g pc = stepCredit f pc := by
  cases pc <;> simp only [stepCredit, hsm, hsi]

/-- Clearing `step_mode` takes the credit away, except at the read of `step_instruction`. -/
theorem stepCredit_of_stepMode_false {f g : Flags} (pc : LoopPc) (hsm : g.stepMode = false)
    (hsi : g.stepInstruction = f.stepInstruction) : stepCredit g pc ≤ stepCredit f pc := by
  cases pc <;> simp [stepCredit, hsm, hsi]

/-- **A loop action spends no more credit than it had**: a stepped run uses the credit up. -/
theorem stepCredit_loopStep (f : Flags) (ok : Bool) (pc : LoopPc) :
    stepCredit (loopStep f ok pc).1 (loopStep f ok pc).2 +
      (if pc = .readStepInstruction ∧ f.stepInstruction then 1 else 0) ≤ stepCredit f pc := by
  obtain ⟨p, e, r, sm, si⟩ := f
  cases pc <;> cases ok <;> simp only [loopStep] <;> split_ifs <;> simp_all [stepCredit]

/-- A function key's handler with its stores made at once. -/
def keyHandler (f : Flags) (k : Nat) : Flags :=
  if k = keyF 2 then { f with emulatorPaused := !f.emulatorPaused, stepMode := false }
  else if k = keyF 5 then { f with emulatorReset := true }
  else if k = keyF 7 then
    { f with emulatorPaused := true, stepMode := true, stepInstruction := true }
  else if k = keyF 10 then { f with emulatorExit := true }
  else f

/-- **A handler gives at most the credit of one F7.** -/
theorem stepCredit_keyHandler (f : Flags) (k : Nat) (pc : LoopPc) :
    stepCredit (keyHandler f k) pc ≤ stepCredit f pc + if k = keyF 7 then 1 else 0 := by
  by_cases h₇ : k = keyF 7
  · rw [if_pos h₇]; exact (stepCredit_le_one _ _).trans (Nat.le_add_left _ _)
  rw [if_neg h₇, Nat.add_zero]
  unfold keyHandler
  split_ifs
  · exact stepCredit_of_stepMode_false pc rfl rfl
  · exact (stepCredit_congr pc rfl rfl).le
  · exact (stepCredit_congr pc rfl rfl).le
  · exact le_rfl

/-- Between two blocks, the input thread is outside a handler and the credit and the stepped runs
are covered by the F7 presses. -/
def Control.Safe (s : Control) : Prop :=
  s.key = .idle ∧ s.steppedRuns + stepCredit s.flags s.loop ≤ s.stepPresses

/-- Either a whole key handler or one action of the loop. -/
inductive ControlBlock
  | key (k : Nat)
  | loop (ok : Bool)
  deriving DecidableEq, Repr

/-- How many stores follow the read of key `k`. -/
def handlerStores (k : Nat) : Nat := if k = keyF 2 ∨ k = keyF 7 then 2 else 0

/-- The actions of a block. -/
def ControlBlock.events : ControlBlock → List ControlEvent
  | .key k => .press k :: List.replicate (handlerStores k) .store
  | .loop ok => [.loop ok]

/-- A key read outside a handler, and its stores, make the handler's stores at once. -/
theorem controlRun_key {s : Control} (hs : s.key = .idle) (k : Nat) :
    controlRun s (ControlBlock.key k).events =
      { s with flags := keyHandler s.flags k,
               stepPresses := s.stepPresses + if k = keyF 7 then 1 else 0 } := by
  obtain ⟨f, pc, key, presses, runs⟩ := s
  subst hs
  by_cases h₂ : k = keyF 2
  · subst h₂; simp [ControlBlock.events, handlerStores, controlRun, controlStep, keyPress,
      keyStore, keyHandler, keyF]
  by_cases h₇ : k = keyF 7
  · subst h₇; simp [ControlBlock.events, handlerStores, controlRun, controlStep, keyPress,
      keyStore, keyHandler, keyF]
  simp [ControlBlock.events, handlerStores, controlRun, controlStep, keyPress, keyHandler, h₂, h₇]
  split_ifs <;> exact ⟨rfl, rfl⟩

/-- **A whole key handler or one loop action keeps the F7 presses ahead.** -/
theorem ControlBlock.safe {s : Control} (hs : s.Safe) (b : ControlBlock) :
    (controlRun s b.events).Safe := by
  obtain ⟨hidle, hle⟩ := hs
  cases b with
  | loop ok =>
    have := stepCredit_loopStep s.flags ok s.loop
    exact ⟨hidle, by simp only [events, controlRun, List.foldl, controlStep]; omega⟩
  | key k =>
    have := stepCredit_keyHandler s.flags k s.loop
    rw [controlRun_key hidle]
    exact ⟨hidle, by dsimp only; omega⟩

/-- **With each key handled at once, one F7 runs at most one instruction.** Over every
interleaving of whole key handlers with the emulation thread's actions, whatever `load_binary`
and `cpu_execute_instruction` return, the instructions the loop starts because its step test
passes are at most the F7 presses. -/
theorem steppedRuns_le_stepPresses (bs : List ControlBlock) :
    (controlRun Control.initial (bs.flatMap ControlBlock.events)).steppedRuns ≤
      (controlRun Control.initial (bs.flatMap ControlBlock.events)).stepPresses := by
  suffices ∀ s : Control, s.Safe → (controlRun s (bs.flatMap ControlBlock.events)).Safe from
    Nat.le_of_add_right_le (this _ ⟨rfl, Nat.le_refl _⟩).2
  induction bs with
  | nil => exact fun s hs => hs
  | cons b bs ih =>
    intro s hs
    rw [List.flatMap_cons, controlRun_append]
    exact ih _ (b.safe hs)

/-- The flags a stale `step_instruction` leaves: paused, `step_mode` clear, `step_instruction`
still set. -/
def staleFlags : Flags := ⟨true, false, false, false, true⟩

/-- F7 with all its stores; the loop starts an instruction on them and reaches
`update_instruction_history`; F2 lands there, clearing `step_mode` before the loop tests it, so
`step_instruction` stays set; the loop goes round; F2 again pauses. -/
def staleStepPrefix : List ControlEvent :=
  [.press (keyF 7), .store, .store] ++ List.replicate 6 (.loop true) ++
    [.press (keyF 2), .store, .store] ++ List.replicate 4 (.loop true) ++
    [.press (keyF 2), .store, .store]

/-- One round of the race from `staleFlags`: F7 stores `step_mode`; the loop runs an instruction
on the stale `step_instruction` and clears it; F7's store of `step_instruction` lands and the loop
starts another; F2 lands before the loop's test of `step_mode`, and F2 again pauses. -/
def staleStepCycle : List ControlEvent :=
  [.press (keyF 7), .store] ++ List.replicate 11 (.loop true) ++ [.store] ++
    List.replicate 6 (.loop true) ++ [.press (keyF 2), .store, .store] ++
    List.replicate 4 (.loop true) ++ [.press (keyF 2), .store, .store]

/-- `c` with `p` more F7 presses and `r` more stepped runs counted. -/
def Control.addCounts (c : Control) (p r : Nat) : Control :=
  { c with stepPresses := c.stepPresses + p, steppedRuns := c.steppedRuns + r }

/-- The counters only count: an action acts the same whatever they hold. -/
theorem controlStep_addCounts (c : Control) (p r : Nat) (e : ControlEvent) :
    controlStep (c.addCounts p r) e = (controlStep c e).addCounts p r := by
  cases e with
  | press k =>
    simp only [controlStep, Control.addCounts]
    split_ifs <;> simp only [Control.mk.injEq, true_and, and_true] <;> omega
  | store => rfl
  | loop ok => simp only [controlStep, Control.addCounts, Control.mk.injEq, true_and]; omega

theorem controlRun_addCounts (c : Control) (p r : Nat) (es : List ControlEvent) :
    controlRun (c.addCounts p r) es = (controlRun c es).addCounts p r := by
  induction es generalizing c with
  | nil => rfl
  | cons e es ih => exact (congrArg (controlRun · es) (controlStep_addCounts c p r e)).trans (ih _)

/-- The stale state with nothing counted. -/
def staleControl : Control := ⟨staleFlags, .top, .idle, 0, 0⟩

theorem controlRun_staleStepPrefix :
    controlRun Control.initial staleStepPrefix = staleControl.addCounts 1 1 := by
  decide

/-- **One round of the race takes one F7 and runs two stepped instructions**, and leaves the
flags stale again. -/
theorem controlRun_staleStepCycle :
    controlRun staleControl staleStepCycle = staleControl.addCounts 1 2 := by
  decide

/-- **With the handlers' stores interleaved, F7 presses can run up to twice as many stepped
instructions.** After the prefix, each round of the race costs one F7 press and runs two
instructions on the step test, so `n + 1` presses run `2 * n + 1` of them: no bound of the
stepped runs by the presses plus a constant holds. -/
theorem stepped_runs_exceed_presses (n : Nat) :
    (controlRun Control.initial
        (staleStepPrefix ++ (List.replicate n staleStepCycle).flatten)).stepPresses = n + 1 ∧
      (controlRun Control.initial
        (staleStepPrefix ++ (List.replicate n staleStepCycle).flatten)).steppedRuns = 2 * n + 1 := by
  suffices h : ∀ p r, controlRun (staleControl.addCounts p r)
      (List.replicate n staleStepCycle).flatten = staleControl.addCounts (p + n) (r + 2 * n) by
    rw [controlRun_append, controlRun_staleStepPrefix, h]
    simp only [Control.addCounts, staleControl]
    omega
  induction n with
  | zero => exact fun _ _ => rfl
  | succ n ih =>
    intro p r
    rw [List.replicate_succ, List.flatten_cons, controlRun_append, controlRun_addCounts,
      controlRun_staleStepCycle]
    have hcounts : (staleControl.addCounts 1 2).addCounts p r = staleControl.addCounts (p + 1) (r + 2) := by
      simp only [Control.addCounts, staleControl, Control.mk.injEq, true_and]
      omega
    rw [hcounts, ih]
    simp only [Control.addCounts, Control.mk.injEq, true_and]
    omega


/-! ## F10 stops the loop -/

/-- The most loop actions left before the loop stops once `emulator_exit` is set: the longest path
goes from the reset test through a reload, the step test and an instruction back to the loop's
test of `emulator_exit`. -/
def exitRank : LoopPc → Nat
  | .stopped => 0
  | .top => 1
  | .wait => 2
  | .clearStepInstruction => 3
  | .checkStepMode => 4
  | .historyIndex => 5
  | .history => 6
  | .execute => 7
  | .readStepInstruction => 8
  | .readStepMode => 9
  | .readPaused => 10
  | .clearStepMode => 11
  | .setPaused => 12
  | .clearReset => 13
  | .reload => 14
  | .checkReset => 15

/-- The instructions the loop can still record in its history once `emulator_exit` is set: one
from the points up to `update_instruction_history`'s store of the `PC`, none after it. -/
def exitCredit (pc : LoopPc) : Nat := if 6 ≤ exitRank pc then 1 else 0

/-- Whether an action is the emulation thread's. -/
def ControlEvent.isLoop : ControlEvent → Bool
  | .loop _ => true
  | _ => false

/-- **With `emulator_exit` set, a loop action keeps it, moves the loop closer to its end, and
records an instruction only by using up the credit.** -/
theorem loopStep_of_exit {f : Flags} (hf : f.emulatorExit = true) (ok : Bool) (pc : LoopPc) :
    (loopStep f ok pc).1.emulatorExit = true ∧ exitRank (loopStep f ok pc).2 ≤ exitRank pc - 1 ∧
      exitCredit (loopStep f ok pc).2 + (if pc = .history then 1 else 0) ≤ exitCredit pc := by
  cases pc <;> simp only [loopStep] <;> split_ifs <;> simp_all [exitRank, exitCredit]

theorem keyPress_exit {f : Flags} (hf : f.emulatorExit = true) (k : Nat) :
    (keyPress f k).1.emulatorExit = true := by
  unfold keyPress
  split_ifs <;> simp [hf]

theorem keyStore_exit {f : Flags} (hf : f.emulatorExit = true) (key : KeyPc) :
    (keyStore f key).1.emulatorExit = true := by
  cases key <;> exact hf

theorem controlStep_loop (s : Control) {e : ControlEvent} (he : e.isLoop = false) :
    (controlStep s e).loop = s.loop := by
  cases e with
  | press k => simp only [controlStep]; split_ifs <;> rfl
  | store => rfl
  | loop => cases he

/-- Nothing clears `emulator_exit`. -/
theorem controlStep_exit {s : Control} (hs : s.flags.emulatorExit = true) (e : ControlEvent) :
    (controlStep s e).flags.emulatorExit = true := by
  cases e with
  | press k =>
    by_cases hk : s.key = .idle
    · simp only [controlStep, if_pos hk]; exact keyPress_exit hs k
    · simp only [controlStep, if_neg hk]; exact hs
  | store => exact keyStore_exit hs s.key
  | loop ok => exact (loopStep_of_exit hs ok s.loop).1

/-- One action with `emulator_exit` set: the key thread's actions leave the loop where it is, and
a loop action is `loopStep_of_exit`. -/
theorem controlStep_of_exit {s : Control} (hs : s.flags.emulatorExit = true) (e : ControlEvent) :
    exitRank (controlStep s e).loop ≤ exitRank s.loop - e.isLoop.toNat ∧
      exitCredit (controlStep s e).loop + (if e.isLoop ∧ s.loop = .history then 1 else 0) ≤
        exitCredit s.loop := by
  cases he : e.isLoop
  · rw [controlStep_loop s he]; simp
  · cases e with
    | loop ok =>
      obtain ⟨-, h₂, h₃⟩ := loopStep_of_exit hs ok s.loop
      exact ⟨h₂, by simpa using h₃⟩
    | _ => cases he


/-- The key thread's actions leave the loop where it is. -/
theorem controlRun_loop {s : Control} {es : List ControlEvent} (hes : ∀ e ∈ es, e.isLoop = false) :
    (controlRun s es).loop = s.loop := by
  induction es generalizing s with
  | nil => rfl
  | cons e es ih =>
    rw [List.forall_mem_cons] at hes
    exact (ih hes.2).trans (controlStep_loop s hes.1)

theorem controlRun_exit {s : Control} (hs : s.flags.emulatorExit = true) (es : List ControlEvent) :
    (controlRun s es).flags.emulatorExit = true := by
  induction es generalizing s with
  | nil => exact hs
  | cons e es ih => exact ih (controlStep_exit hs e)

end Mos6502
