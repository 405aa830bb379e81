import Mos6502.Host.Control
import Mos6502.Host.Prompts

/-!
# The emulator's threads together

`main` sets the machine up, loads `roms/hello.bin` at `0xC000`, and starts the threads: the
emulation loop, the serial-input thread (its main loop, its function keys and its windows), the
serial-output thread, the render thread, and the two threads that inject one IRQ and one NMI.
`Emulator` is the shared state with each thread's position in its code, and `emulatorStep` one
action of one thread. The threads share the machine without a common lock: the emulation loop
takes none, the prompts and the render thread take `lock`, the queues their own mutex; each
action here is one call on the machine (a step, a `load_binary`, a `queue_enqueue`, ...) or one
access to shared data: a flag, one of the two stores of `update_instruction_history`, or one of the
render thread's reads of `history_index` and `instruction_history`.

Seven things hold over every interleaving, whatever keys are typed, whatever files the paths name
and whatever the guest runs:

* the control flags, the loop's position and the function-key handler's evolve as the control
  protocol of `Control` says (`emulatorRun_control`), so what is proved there holds here;
* serial input is never invented, duplicated or reordered: what the guest obtained, what is
  queued and what is still to be enqueued are the bytes typed at Enter, in order, less the bytes a
  full queue refused or a refresh took, which are counted (`emulatorRun_inputLedger`);
* the serial-input thread's main loop, on its own, is the line editor: its keys leave the edit
  buffer where the editor leaves it and put what the editor sends on the input queue
  (`emulatorRun_mainLoopEvents`);
* the serial-output window shows the output the guest's writes made, in order, less what a full
  queue refused or a reload cleared (`emulatorRun_outputSound`);
* every history line drawn is a `PC` the loop recorded or a zero, and a refresh the loop does not
  interleave draws the last `PC`s recorded, the latest first, or, begun between the two stores of
  `update_instruction_history`, the same lines one up with the latest last
  (`emulatorRun_history`);
* with the files unchanged, the reload of a reset never fails, since the binary it reloads is
  replaced only by one that loaded (`emulatorRun_reload_succeeds`);
* once F10's store lands, no thread clears it, at most one more instruction completes, and the
  emulation thread leaves its loop within fifteen of its actions (`emulatorRun_exit`).

## Main definitions

* `Emulator`, `Emulator.start`, `Emulator.boot`: the shared state, and `main` up to the threads
* `RenderPc`, `Emulator.render`: the render thread's position in `print_cpu_state` and its reads
* `EmulatorEvent`, `emulatorStep`, `emulatorRun`: the threads' actions
* `historyShown`: the history as `print_cpu_state` lists it

## Main results

* `emulatorRun_control`: the emulator refines the control protocol
* `emulatorRun_inputLedger`: no serial input is invented, duplicated or reordered
* `emulatorRun_mainLoopEvents`: the serial-input thread's main loop refines the line editor
* `emulatorRun_outputSound`: the output window shows the guest's output in order
* `emulatorRun_history`: what the history lines of a refresh show
* `emulatorRun_reload_succeeds`: a reset never fails to reload
* `emulatorRun_exit`: F10 stops the machine within one instruction
-/

namespace Mos6502

/-- Where the render thread is in `print_cpu_state`: about to read `history_index` for history line
`i`, about to read `instruction_history[idx]` for line `i`, or past the history lines, about to
make its reads of the machine. -/
inductive RenderPc
  | readIndex (i : Nat)
  | readEntry (i idx : Nat)
  | readPorts
  deriving DecidableEq, Repr

/-- How far the render thread is through the history lines: two reads a line. -/
def RenderPc.pos : RenderPc → Nat
  | .readIndex i => 2 * i
  | .readEntry i _ => 2 * i + 1
  | .readPorts => 2 * instructionHistorySize

/-- The emulator while its threads run: the machine and the serial-input ghosts of `Host`; the
control flags and the two threads' points in `Control`; the window the serial-input thread is in,
its edit buffer and the Enter bytes it has still to enqueue; `current_binary_path_user` and
`current_load_address_user`; `instruction_history` and `history_index`; the render thread's point
in `print_cpu_state` and the history lines it has drawn since its `werase`. Four ghosts: `typed`,
the bytes Enter presses set to enqueue, in order; `lostInput`, the typed bytes a full queue
refused or a refresh took; `recorded`, the `PC`s the loop recorded; `printed`, the bytes the
output thread printed. -/
structure Emulator where
  host : Host
  control : Control
  prompt : Option Prompt
  edit : InputBuffer
  pending : List Byte
  binaryPath : List Byte
  loadAddress : Word
  history : List Word
  historyIndex : Nat
  renderPc : RenderPc
  historyLines : List Word
  typed : List Byte
  lostInput : Nat
  recorded : List Word
  printed : List Byte

namespace Emulator

/-- The threads at their start on the machine `c`: the flags at their initializers, the serial
input thread in its main loop with an empty buffer, `roms/hello.bin` at `0xC000` as the binary a
reset reloads, the history zeroed, and the render thread at the start of `print_cpu_state`. -/
def start (c : Cpu) : Emulator where
  host := ⟨c, [], []⟩
  control := Control.initial
  prompt := none
  edit := InputBuffer.empty
  pending := []
  binaryPath := asciiBytes "roms/hello.bin"
  loadAddress := 0xC000
  history := List.replicate instructionHistorySize 0
  historyIndex := 0
  renderPc := .readIndex 0
  historyLines := []
  typed := []
  lostInput := 0
  recorded := []
  printed := []

/-- `main` up to the threads, with `file` the contents of `roms/hello.bin`: `cpu_init`, both
queues initialised, the monitored RAM on the whole bus and zeroed, and `load_binary` at
`0xC000`; `none` when that load fails and `main` exits. -/
def boot (file : Option (List Byte)) : Option Emulator :=
  let r := loadBinary (Cpu.initial .monitoredRam fun _ => 0) file 0xC000
  if r.1 = 0 then some (start r.2) else none

/-- The window a key opens from the main loop: F1 the help, F3 the load prompt, F4 the clock
prompt, F6 the `PC` prompt. -/
def openPrompt (k : Nat) : Option Prompt :=
  if k = keyF 1 then some .help
  else if k = keyF 3 then some (.loadPath [])
  else if k = keyF 4 then some (.adjustClock [])
  else if k = keyF 6 then some (.setPc [])
  else none

/-- F2, F5, F7 and F10: the keys whose handlers store to the control flags. -/
def isFlagKey (k : Nat) : Bool := k == keyF 2 || k == keyF 5 || k == keyF 7 || k == keyF 10

/-- A key in the main loop of `serial_input_thread`: a window opens, a flag handler starts, or the
edit buffer takes the key, an Enter setting its bytes to be enqueued. -/
def mainKey (s : Emulator) (k : Nat) : Emulator :=
  match openPrompt k with
  | some p => { s with prompt := some p }
  | none =>
    if isFlagKey k then { s with control := controlStep s.control (.press k) }
    else { s with edit := (s.edit.key k).1, pending := (s.edit.key k).2,
                  typed := s.typed ++ (s.edit.key k).2 }

/-- A window's request carried out, the window becoming `p`: `PC` stored; `load_binary` of the
file the path names, which on success makes the path and the address those of a reset, and on
failure shows its message; or the clock reset by `cpu_set_clock_frequency`. -/
def request (files : List Byte → Option (List Byte)) (s : Emulator) (p : Option Prompt) :
    PromptRequest → Emulator
  | .none => { s with prompt := p }
  | .setPc v => { s with host := { s.host with cpu := { s.host.cpu with PC := v } }, prompt := p }
  | .loadBinary path address =>
    let r := loadBinary s.host.cpu (files path) address
    if r.1 = 0 then
      { s with host := { s.host with cpu := r.2 }, prompt := p, binaryPath := path,
               loadAddress := address }
    else { s with host := { s.host with cpu := r.2 }, prompt := some .loadFailed }
  | .setClock => { s with host := { s.host with cpu := clockReset s.host.cpu }, prompt := p }

/-- The serial-input thread reads a key, when it waits for one: not inside a flag handler's
stores nor an Enter's enqueues. In a window the window takes it, in the main loop `mainKey`. -/
def key (files : List Byte → Option (List Byte)) (s : Emulator) (k : Nat) : Emulator :=
  if s.control.key = .idle ∧ s.pending = [] then
    match s.prompt with
    | some p => s.request files (promptKey p k).1 (promptKey p k).2
    | none => s.mainKey k
  else s

/-- The Enter branch's next `queue_enqueue`. -/
def enqueue (s : Emulator) : Emulator :=
  match s.pending with
  | [] => s
  | b :: rest =>
    { s with host := hostStep s.host (.enqueue b), pending := rest,
             lostInput := s.lostInput + if (s.host.cpu.inputQueue.enqueue b).1 then 0 else 1 }

/-- What the loop's next action reads of its call: whether `load_binary` returned 0 at
`reload`, whether `cpu_execute_instruction` returned `CPU_SUCCESS` at `execute`. -/
def loopOutcome (files : List Byte → Option (List Byte)) (s : Emulator) : Bool :=
  match s.control.loop with
  | .reload => (loadBinary s.host.cpu (files s.binaryPath) s.loadAddress).1 == 0
  | .execute => (cpuExecuteInstruction s.host.cpu).1 == .success
  | _ => true

/-- The emulation thread's next action: on the flags as `loopStep` says, and on the machine the
call at its point: `load_binary` of the current binary, `cpu_execute_instruction`,
`update_instruction_history(cpu->reg.PC)`'s store of the `PC` at `history_index` or its store of
the next index, or `clock_wait_next_cycle`. -/
def loop (files : List Byte → Option (List Byte)) (s : Emulator) : Emulator :=
  let s' := { s with control := controlStep s.control (.loop (s.loopOutcome files)) }
  match s.control.loop with
  | .reload =>
    { s' with host := { s.host with
        cpu := (loadBinary s.host.cpu (files s.binaryPath) s.loadAddress).2 } }
  | .execute => { s' with host := hostStep s.host .step }
  | .history =>
    { s' with history := s.history.set s.historyIndex s.host.cpu.PC,
              recorded := s.recorded ++ [s.host.cpu.PC] }
  | .historyIndex => { s' with historyIndex := (s.historyIndex + 1) % instructionHistorySize }
  | .wait => { s' with host := { s.host with cpu := clockWaitNextCycle s.host.cpu } }
  | _ => s'

/-- `serial_output_thread` takes a byte off the output queue and prints it. -/
def output (s : Emulator) : Emulator :=
  match s.host.cpu.outputQueue.dequeue with
  | (some b, q) =>
    { s with host := { s.host with cpu := { s.host.cpu with outputQueue := q } },
             printed := s.printed ++ [b] }
  | (none, _) => s

/-- The reads of the machine that end `print_cpu_state`, after which the render thread's next call
starts over; the bytes its read of the input port takes are lost. The stack reads, made in the
history loop in the source, read no port and change nothing, so they are made here with the
ports. -/
def refresh (s : Emulator) : Emulator :=
  { s with host := hostStep s.host .refresh,
           lostInput := s.lostInput + (s.host.cpu.inputQueue.toList.length -
             (hostStep s.host .refresh).cpu.inputQueue.toList.length),
           renderPc := .readIndex 0 }

/-- The render thread's next action in `print_cpu_state`, which runs under `lock` but which
`update_instruction_history` does not take. Line `i` of the history reads `history_index`, then the
entry `(history_index - i - 1 + INSTRUCTION_HISTORY_SIZE) % INSTRUCTION_HISTORY_SIZE` and draws it,
on a window erased before line 0; after the last line come the reads of the machine, and the
thread's next call starts over. -/
def render (s : Emulator) : Emulator :=
  match s.renderPc with
  | .readIndex i =>
    { s with renderPc := .readEntry i
               ((s.historyIndex + instructionHistorySize - i - 1) % instructionHistorySize),
             historyLines := if i = 0 then [] else s.historyLines }
  | .readEntry i idx =>
    { s with renderPc := if i + 1 < instructionHistorySize then .readIndex (i + 1) else .readPorts,
             historyLines := s.historyLines ++ [s.history.getD idx 0] }
  | .readPorts => s.refresh

/-- The render thread changes its own point and lines, the machine through its reads, and the
input it takes; nothing else. -/
theorem render_frame (s : Emulator) :
    s.render.control = s.control ∧ s.render.binaryPath = s.binaryPath ∧
      s.render.history = s.history ∧ s.render.historyIndex = s.historyIndex ∧
      s.render.recorded = s.recorded := by
  unfold render
  split <;> simp only [refresh, and_self]

end Emulator

/-- One action of a thread. -/
inductive EmulatorEvent
  /-- the serial-input thread reads a key -/
  | key (k : Nat)
  /-- its next store to a flag -/
  | store
  /-- its next `queue_enqueue` of an Enter -/
  | enqueue
  /-- the emulation thread's next action -/
  | loop
  /-- the serial-output thread prints a byte -/
  | output
  /-- the render thread's next action in `print_cpu_state` -/
  | refresh
  /-- `inject_IRQ` -/
  | irq
  /-- `inject_NMI` -/
  | nmi
  deriving DecidableEq, Repr

/-- One action, with `files` the contents of the files the paths name. -/
def emulatorStep (files : List Byte → Option (List Byte)) (s : Emulator) :
    EmulatorEvent → Emulator
  | .key k => s.key files k
  | .store => { s with control := controlStep s.control .store }
  | .enqueue => s.enqueue
  | .loop => s.loop files
  | .output => s.output
  | .refresh => s.render
  | .irq => { s with host := { s.host with cpu := cpuInjectIRQ s.host.cpu } }
  | .nmi => { s with host := { s.host with cpu := cpuInjectNMI s.host.cpu } }

/-- An interleaving of the threads' actions. -/
def emulatorRun (files : List Byte → Option (List Byte)) (s : Emulator)
    (es : List EmulatorEvent) : Emulator :=
  es.foldl (emulatorStep files) s

theorem emulatorRun_cons (files : List Byte → Option (List Byte)) (s : Emulator)
    (e : EmulatorEvent) (es : List EmulatorEvent) :
    emulatorRun files s (e :: es) = emulatorRun files (emulatorStep files s e) es := rfl

theorem emulatorRun_append (files : List Byte → Option (List Byte)) (s : Emulator)
    (es es' : List EmulatorEvent) :
    emulatorRun files s (es ++ es') = emulatorRun files (emulatorRun files s es) es' :=
  List.foldl_append _ _ _ _

/-- A property every action keeps holds after every interleaving. -/
theorem emulatorRun_induction (files : List Byte → Option (List Byte)) {P : Emulator → Prop}
    (hstep : ∀ s e, P s → P (emulatorStep files s e)) {s : Emulator} (hs : P s)
    (es : List EmulatorEvent) : P (emulatorRun files s es) := by
  induction es generalizing s with
  | nil => exact hs
  | cons e es ih => exact ih (hstep s e hs)

/-! ## The control protocol -/

/-- The control actions an emulator action makes: a flag key read in the main loop, a store, or
the loop's action with the outcome of its call. -/
def EmulatorEvent.controlEvents (files : List Byte → Option (List Byte)) (s : Emulator) :
    EmulatorEvent → List ControlEvent
  | .key k =>
    if s.control.key = .idle ∧ s.pending = [] ∧ s.prompt = none ∧ Emulator.openPrompt k = none ∧
      Emulator.isFlagKey k then [.press k] else []
  | .store => [.store]
  | .loop => [.loop (s.loopOutcome files)]
  | _ => []

theorem request_control (files : List Byte → Option (List Byte)) (s : Emulator)
    (p : Option Prompt) (r : PromptRequest) : (s.request files p r).control = s.control := by
  cases r with
  | loadBinary => simp only [Emulator.request]; split_ifs <;> rfl
  | _ => rfl

/-- **One emulator action is its control actions.** -/
theorem emulatorStep_control (files : List Byte → Option (List Byte)) (s : Emulator)
    (e : EmulatorEvent) :
    (emulatorStep files s e).control = controlRun s.control (e.controlEvents files s) := by
  cases e with
  | key k =>
    simp only [emulatorStep, Emulator.key, EmulatorEvent.controlEvents]
    by_cases hw : s.control.key = .idle ∧ s.pending = []
    · rw [if_pos hw]
      cases hp : s.prompt with
      | some p => simp [request_control, controlRun, hp]
      | none =>
        simp only [Emulator.mainKey]
        cases ho : Emulator.openPrompt k with
        | some q => simp [controlRun, ho]
        | none =>
          by_cases hf : Emulator.isFlagKey k
          · simp [controlRun, hw, hf]
          · simp [controlRun, hf]
    · rw [if_neg hw, if_neg (fun h => hw ⟨h.1, h.2.1⟩)]; rfl
  | loop =>
    simp only [emulatorStep, Emulator.loop, EmulatorEvent.controlEvents, controlRun,
      List.foldl_cons, List.foldl_nil]
    split <;> rfl
  | enqueue => simp only [emulatorStep, Emulator.enqueue]; split <;> rfl
  | output => simp only [emulatorStep, Emulator.output]; split <;> rfl
  | refresh => exact (Emulator.render_frame s).1
  | store | irq | nmi => rfl

/-- The other threads make no loop action of the protocol. -/
theorem controlEvents_isLoop (files : List Byte → Option (List Byte)) (s : Emulator)
    {e : EmulatorEvent} (he : e ≠ .loop) : ∀ x ∈ e.controlEvents files s, x.isLoop = false := by
  cases e with
  | key k =>
    simp only [EmulatorEvent.controlEvents]
    split_ifs <;> simp [ControlEvent.isLoop]
  | loop => exact absurd rfl he
  | _ => simp [EmulatorEvent.controlEvents, ControlEvent.isLoop]

/-- The other threads leave the emulation loop where it is. -/
theorem emulatorStep_loop (files : List Byte → Option (List Byte)) (s : Emulator)
    {e : EmulatorEvent} (he : e ≠ .loop) : (emulatorStep files s e).control.loop = s.control.loop := by
  rw [emulatorStep_control]
  exact controlRun_loop (controlEvents_isLoop files s he)

/-- The control actions of an interleaving. -/
def controlTrace (files : List Byte → Option (List Byte)) : Emulator → List EmulatorEvent →
    List ControlEvent
  | _, [] => []
  | s, e :: es => e.controlEvents files s ++ controlTrace files (emulatorStep files s e) es

/-- **The emulator refines the control protocol.** Over every interleaving of the threads, the
flags, the emulation loop's point, the function-key handler's point and the two counters are
those the control protocol reaches by the control actions the threads made. -/
theorem emulatorRun_control (files : List Byte → Option (List Byte)) (s : Emulator)
    (es : List EmulatorEvent) :
    (emulatorRun files s es).control = controlRun s.control (controlTrace files s es) := by
  induction es generalizing s with
  | nil => rfl
  | cons e es ih =>
    rw [emulatorRun_cons, ih, controlTrace, controlRun_append, emulatorStep_control]

/-! ## Serial input -/

theorem loadBinary_inputQueue (c : Cpu) (file : Option (List Byte)) (addr : Word) :
    (loadBinary c file addr).2.inputQueue = c.inputQueue := by
  rcases loadBinary_cases c file addr with h | ⟨_, -, -, h⟩
  · rw [h]
  · exact h.inputQueue

namespace Emulator

/-- The typed bytes still accounted for: those the guest obtained, those queued, and those still
to be enqueued. -/
def inputSide (s : Emulator) : List Byte :=
  s.host.obtained ++ s.host.cpu.inputQueue.toList ++ s.pending

/-- **The input ledger**: the bytes accounted for are the typed bytes, in order, less some, and
as many are missing as were counted lost. -/
def InputLedger (s : Emulator) : Prop :=
  s.inputSide.Sublist s.typed ∧ s.typed.length = s.inputSide.length + s.lostInput

/-- An action that takes bytes out of the account counts them lost. -/
theorem InputLedger.of_sublist {s s' : Emulator} (h : s.InputLedger)
    (hsub : s'.inputSide.Sublist s.inputSide) (htyped : s'.typed = s.typed)
    (hlost : s.inputSide.length + s.lostInput = s'.inputSide.length + s'.lostInput) :
    s'.InputLedger :=
  ⟨htyped ▸ hsub.trans h.1, by rw [htyped, h.2, hlost]⟩

/-- An action that leaves the account alone keeps the ledger. -/
theorem InputLedger.of_eq {s s' : Emulator} (h : s.InputLedger) (hside : s'.inputSide = s.inputSide)
    (htyped : s'.typed = s.typed) (hlost : s'.lostInput = s.lostInput) : s'.InputLedger :=
  h.of_sublist (hside ▸ List.Sublist.refl _) htyped (by rw [hside, hlost])

theorem request_input (files : List Byte → Option (List Byte)) (s : Emulator)
    (p : Option Prompt) (r : PromptRequest) :
    (s.request files p r).inputSide = s.inputSide ∧ (s.request files p r).typed = s.typed ∧
      (s.request files p r).lostInput = s.lostInput := by
  cases r with
  | loadBinary path address =>
    simp only [request]
    split_ifs <;> simp [inputSide, loadBinary_inputQueue]
  | _ => simp [request, inputSide, clockReset]

/-- A key keeps the ledger: an Enter adds its bytes both to what was typed and to what is still
to be enqueued. -/
theorem InputLedger.key {s : Emulator} (h : s.InputLedger) (files : List Byte → Option (List Byte))
    (k : Nat) : (s.key files k).InputLedger := by
  unfold Emulator.key
  split_ifs with hw
  · cases hp : s.prompt with
    | some p =>
      obtain ⟨h₁, h₂, h₃⟩ := request_input files s (promptKey p k).1 (promptKey p k).2
      exact h.of_eq h₁ h₂ h₃
    | none =>
      simp only [mainKey]
      split
      · exact h.of_eq rfl rfl rfl
      · split
        · exact h.of_eq rfl rfl rfl
        · refine ⟨?_, ?_⟩
          · simpa [inputSide, hw.2] using h.1.append_right (s.edit.key k).2
          · have h₂ := h.2
            simp only [inputSide, hw.2, List.append_nil, List.length_append] at h₂ ⊢
            omega
  · exact h

/-- An enqueue moves a byte to the queue, or a full queue refuses it and it is counted lost. -/
theorem InputLedger.enqueue {s : Emulator} (h : s.InputLedger) : s.enqueue.InputLedger := by
  unfold Emulator.enqueue
  split
  · exact h
  · rename_i b rest hpend
    have hq := ByteQueue.toList_enqueue s.host.cpu.inputQueue b
    have hf := ByteQueue.enqueue_fst s.host.cpu.inputQueue b
    by_cases hroom : s.host.cpu.inputQueue.toList.length < queueSize
    · apply h.of_eq
      · simp [inputSide, hostStep, hq, hroom, hpend]
      · rfl
      · simp [hf, hroom]
    · apply h.of_sublist
      · simp only [inputSide, hostStep, hq, hroom, if_false, hpend]
        exact (List.sublist_cons_self b rest).append_left _
      · rfl
      · simp [inputSide, hostStep, hq, hf, hroom, hpend]; omega

/-- The emulation thread keeps the ledger: a step moves the bytes it takes from the queue to what
the guest obtained, and its other actions leave the queue alone. -/
theorem InputLedger.loop {s : Emulator} (h : s.InputLedger) (files : List Byte → Option (List Byte)) :
    (s.loop files).InputLedger := by
  unfold Emulator.loop
  split
  · exact h.of_eq (by simp only [inputSide, loadBinary_inputQueue]) rfl rfl
  · refine h.of_eq ?_ rfl rfl
    simp only [inputSide, hostStep, (step_obtains s.host.cpu).inputQueue, List.append_assoc]
  all_goals exact h.of_eq rfl rfl rfl

/-- A refresh takes the bytes its read of the input port dequeues out of the account, and counts
them lost. -/
theorem InputLedger.refresh {s : Emulator} (h : s.InputLedger) : s.refresh.InputLedger := by
  obtain ⟨-, hq⟩ := printCpuState_takesInput s.host.cpu
  refine h.of_sublist ?_ (by simp only [Emulator.refresh]) ?_
  · simp only [inputSide, Emulator.refresh, hostStep, hq]
    exact ((List.sublist_append_right _ _).append_left _).append_right _
  · simp only [inputSide, Emulator.refresh, hostStep, hq, List.length_append]
    omega

/-- The render thread's reads of the history leave the ledger alone. -/
theorem InputLedger.render {s : Emulator} (h : s.InputLedger) : s.render.InputLedger := by
  unfold Emulator.render
  split
  · exact h.of_eq rfl rfl rfl
  · exact h.of_eq rfl rfl rfl
  · exact h.refresh

theorem InputLedger.output {s : Emulator} (h : s.InputLedger) : s.output.InputLedger := by
  unfold Emulator.output
  split
  · exact h.of_eq rfl rfl rfl
  · exact h

theorem InputLedger.emulatorStep {s : Emulator} (h : s.InputLedger)
    (files : List Byte → Option (List Byte)) (e : EmulatorEvent) :
    (emulatorStep files s e).InputLedger := by
  cases e with
  | key k => exact h.key files k
  | enqueue => exact h.enqueue
  | loop => exact h.loop files
  | output => exact h.output
  | refresh => exact h.render
  | _ => exact h.of_eq rfl rfl rfl

theorem start_inputLedger {c : Cpu} (hq : c.inputQueue.toList = []) : (start c).InputLedger := by
  simp [InputLedger, inputSide, start, hq]

end Emulator

/-- **Serial input is never invented, duplicated or reordered.** From a machine whose input queue
is empty, after any interleaving of the threads' actions, the bytes the guest obtained, then those
queued, then those an Enter has still to enqueue are the typed bytes in order less some, and as
many are missing as a full queue refused or a refresh's read of the input port took. -/
theorem emulatorRun_inputLedger (files : List Byte → Option (List Byte)) (c : Cpu)
    (hq : c.inputQueue.toList = []) (es : List EmulatorEvent) :
    (emulatorRun files (Emulator.start c) es).InputLedger :=
  emulatorRun_induction files (fun _ e h => h.emulatorStep files e) (Emulator.start_inputLedger hq) es

/-- On the machine `cpu_init` leaves, typing `A` and Enter, enqueueing and refreshing. -/
theorem typed_enqueued_refreshed_inputLedger :
    (Cpu.initial .monitoredRam fun _ => 0).inputQueue.toList = [] ∧
      (emulatorRun (fun _ => none) (Emulator.start (Cpu.initial .monitoredRam fun _ => 0))
        ([.key 65, .key 13, .enqueue, .enqueue, .enqueue] ++ List.replicate 11 .refresh)).InputLedger :=
  ⟨rfl, emulatorRun_inputLedger _ (Cpu.initial .monitoredRam fun _ => 0) rfl _⟩

/-- An Enter's bytes reach the input queue: as many enqueue actions as there are bytes pending put
them all on the queue, in order and as far as it has room, and change nothing else of the machine,
the edit buffer, the window or the flags. -/
theorem emulatorRun_enqueue_pending (files : List Byte → Option (List Byte)) (s : Emulator) :
    (emulatorRun files s (List.replicate s.pending.length .enqueue)).pending = [] ∧
      (emulatorRun files s (List.replicate s.pending.length .enqueue)).host.cpu =
        { s.host.cpu with inputQueue := s.host.cpu.inputQueue.enqueueAll s.pending } ∧
      (emulatorRun files s (List.replicate s.pending.length .enqueue)).edit = s.edit ∧
      (emulatorRun files s (List.replicate s.pending.length .enqueue)).prompt = s.prompt ∧
      (emulatorRun files s (List.replicate s.pending.length .enqueue)).control = s.control := by
  generalize hp : s.pending = bs
  induction bs generalizing s with
  | nil => exact ⟨hp, rfl, rfl, rfl, rfl⟩
  | cons b bs ih =>
    have hstep : (emulatorStep files s .enqueue).pending = bs ∧
        (emulatorStep files s .enqueue).host.cpu =
          { s.host.cpu with inputQueue := (s.host.cpu.inputQueue.enqueue b).2 } := by
      refine ⟨?_, ?_⟩ <;> simp only [emulatorStep, Emulator.enqueue, hp, hostStep]
    have hrest : (emulatorStep files s .enqueue).edit = s.edit ∧
        (emulatorStep files s .enqueue).prompt = s.prompt ∧
        (emulatorStep files s .enqueue).control = s.control := by
      simp only [emulatorStep, Emulator.enqueue, hp, and_self]
    rw [List.length_cons, List.replicate_succ, emulatorRun_cons]
    obtain ⟨h₁, h₂, h₃, h₄, h₅⟩ := ih _ hstep.1
    rw [h₂, hstep.2, h₃, h₄, h₅]
    exact ⟨h₁, rfl, hrest⟩

namespace Emulator

/-- The serial-input thread in its main loop with no other thread acting: each key, then the
`queue_enqueue`s of the bytes it sets pending, the keys going to the edit buffer `b`. -/
def mainLoopEvents (b : InputBuffer) : List Nat → List EmulatorEvent
  | [] => []
  | k :: ks => .key k :: (List.replicate (b.key k).2.length .enqueue ++ mainLoopEvents (b.key k).1 ks)

/-- A key of the main loop that opens no window and starts no flag handler goes to the edit
buffer. -/
theorem key_of_editKey (files : List Byte → Option (List Byte)) {s : Emulator}
    (hkey : s.control.key = .idle) (hpend : s.pending = []) (hprompt : s.prompt = none) {k : Nat}
    (hk : openPrompt k = none ∧ isFlagKey k = false) :
    s.key files k = { s with edit := (s.edit.key k).1, pending := (s.edit.key k).2,
                             typed := s.typed ++ (s.edit.key k).2 } := by
  simp only [Emulator.key, hkey, hpend, hprompt, and_self, if_true, mainKey, hk.1, hk.2]
  rfl

end Emulator

/-- There the guest finds `H`, `"\r\n"` on its input queue. -/
example : (emulatorRun (fun _ => none) (Emulator.start (Cpu.initial .monitoredRam fun _ => 0))
    (Emulator.mainLoopEvents InputBuffer.empty [72, 13])).host.cpu.inputQueue.toList =
      [72, 13, 10] := by
  decide


/-! ## Serial output -/

theorem cpuReadAll_toCpuCore (c : Cpu) (as : List Word) :
    (cpuReadAll c as).2.toCpuCore = c.toCpuCore := by
  induction as generalizing c with
  | nil => rfl
  | cons a as ih => exact (ih _).trans (cpuRead_toCpuCore c a)

/-- A refresh reads; it writes nothing. -/
theorem printCpuState_afterWrites (c : Cpu) : AfterWrites c (printCpuState c).2 [] := by
  have h : (printCpuState c).2.toCpuCore = c.toCpuCore := by
    simp only [printCpuState, cpuRead_toCpuCore, cpuReadAll_toCpuCore]
  exact .of_eq (congrArg CpuCore.writeLog h) (congrArg CpuCore.mem h)
    (congrArg CpuCore.outputQueue h) (congrArg CpuCore.device h)

namespace Emulator

/-- What the output thread printed, then what is queued for it, is the output the guest's writes
made, in order, less some. -/
def OutputSound (s : Emulator) : Prop :=
  (s.printed ++ s.host.cpu.outputQueue.toList).Sublist
    (writesOutput s.host.cpu.device s.host.cpu.writeLog)

/-- An action that writes `ws` keeps the output sound when what it leaves printed and queued is
among what was printed and queued followed by the output of `ws`. -/
theorem OutputSound.of_writes {s s' : Emulator} (h : s.OutputSound) {ws : List (Word × Byte)}
    (hl : s'.host.cpu.writeLog = s.host.cpu.writeLog ++ ws)
    (hd : s'.host.cpu.device = s.host.cpu.device)
    (hsub : (s'.printed ++ s'.host.cpu.outputQueue.toList).Sublist
      (s.printed ++ s.host.cpu.outputQueue.toList ++ writesOutput s.host.cpu.device ws)) :
    s'.OutputSound := by
  unfold OutputSound
  rw [hl, hd, writesOutput_append]
  exact hsub.trans (h.append_right _)

/-- The machine's own writes: their output goes to the back of the queue while there is room. -/
theorem OutputSound.of_afterWrites {s s' : Emulator} (h : s.OutputSound) {c' : Cpu}
    {ws : List (Word × Byte)} (hc : s'.host.cpu = c') (hw : AfterWrites s.host.cpu c' ws)
    (hp : s'.printed = s.printed) : s'.OutputSound := by
  subst hc
  refine h.of_writes hw.writeLog hw.device ?_
  rw [hp, hw.outputQueue, ByteQueue.toList_enqueueAll, ByteQueue.boundedAppend, ← List.append_assoc]
  exact (List.take_sublist _ _).append_left _

/-- An action that leaves the write log, the device and the output queue alone. -/
theorem OutputSound.of_eq {s s' : Emulator} (h : s.OutputSound)
    (hl : s'.host.cpu.writeLog = s.host.cpu.writeLog) (hd : s'.host.cpu.device = s.host.cpu.device)
    (ho : s'.host.cpu.outputQueue = s.host.cpu.outputQueue) (hp : s'.printed = s.printed) :
    s'.OutputSound := by
  unfold OutputSound
  rw [hl, hd, ho, hp]
  exact h

/-- A `load_binary` that fails changes nothing; one that succeeds writes the image and the reset
vector and clears the output queue. -/
theorem OutputSound.of_loadBinary {s s' : Emulator} (h : s.OutputSound) {file : Option (List Byte)}
    {addr : Word} (hc : s'.host.cpu = (loadBinary s.host.cpu file addr).2)
    (hp : s'.printed = s.printed) : s'.OutputSound := by
  rcases loadBinary_cases s.host.cpu file addr with hl | ⟨image, -, -, hr⟩
  · rw [hl] at hc
    exact h.of_eq (by rw [hc]) (by rw [hc]) (by rw [hc]) hp
  · rw [← hc] at hr
    refine h.of_writes hr.writeLog hr.device ?_
    rw [hp, hr.outputQueue, List.append_nil, List.append_assoc]
    exact List.sublist_append_left _ _

theorem mainKey_host (s : Emulator) (k : Nat) : (s.mainKey k).host = s.host ∧
    (s.mainKey k).printed = s.printed := by
  unfold mainKey
  split
  · exact ⟨rfl, rfl⟩
  · split <;> exact ⟨rfl, rfl⟩

theorem OutputSound.request {s : Emulator} (h : s.OutputSound)
    (files : List Byte → Option (List Byte)) (p : Option Prompt) (r : PromptRequest) :
    (s.request files p r).OutputSound := by
  cases r with
  | loadBinary path address =>
    simp only [Emulator.request]
    split_ifs <;> exact h.of_loadBinary rfl rfl
  | _ => exact h.of_eq rfl rfl rfl rfl

theorem OutputSound.key {s : Emulator} (h : s.OutputSound) (files : List Byte → Option (List Byte))
    (k : Nat) : (s.key files k).OutputSound := by
  unfold Emulator.key
  split_ifs
  · cases s.prompt with
    | some p => exact h.request files _ _
    | none =>
      obtain ⟨hh, hp⟩ := mainKey_host s k
      exact h.of_eq (by rw [hh]) (by rw [hh]) (by rw [hh]) hp
  · exact h

theorem OutputSound.loop {s : Emulator} (h : s.OutputSound) (files : List Byte → Option (List Byte)) :
    (s.loop files).OutputSound := by
  unfold Emulator.loop
  split
  · exact h.of_loadBinary rfl rfl
  · exact h.of_afterWrites rfl (cpuExecuteInstruction_afterWrites s.host.cpu).choose_spec rfl
  all_goals exact h.of_eq rfl rfl rfl rfl

/-- The output thread moves the front byte of the queue to what it printed. -/
theorem OutputSound.output {s : Emulator} (h : s.OutputSound) : s.output.OutputSound := by
  unfold Emulator.output
  split
  · rename_i b q hdq
    have hq := ByteQueue.dequeue_toList s.host.cpu.outputQueue
    rw [hdq] at hq
    unfold OutputSound at h ⊢
    simpa only [List.append_assoc, Option.toList_some, List.singleton_append, ← hq] using h
  · exact h

/-- The render thread reads; it writes nothing. -/
theorem OutputSound.render {s : Emulator} (h : s.OutputSound) : s.render.OutputSound := by
  unfold Emulator.render
  split
  · exact h.of_eq rfl rfl rfl rfl
  · exact h.of_eq rfl rfl rfl rfl
  · refine h.of_afterWrites ?_ (printCpuState_afterWrites s.host.cpu) ?_ <;>
      simp only [Emulator.refresh, hostStep]

theorem OutputSound.enqueue {s : Emulator} (h : s.OutputSound) : s.enqueue.OutputSound := by
  unfold Emulator.enqueue
  split
  · exact h
  · exact h.of_eq rfl rfl rfl rfl

theorem OutputSound.emulatorStep {s : Emulator} (h : s.OutputSound)
    (files : List Byte → Option (List Byte)) (e : EmulatorEvent) :
    (emulatorStep files s e).OutputSound := by
  cases e with
  | key k => exact h.key files k
  | loop => exact h.loop files
  | output => exact h.output
  | refresh => exact h.render
  | enqueue => exact h.enqueue
  | _ => exact h.of_eq rfl rfl rfl rfl

theorem start_outputSound {c : Cpu} (hq : c.outputQueue.toList = []) : (start c).OutputSound := by
  simp [OutputSound, start, hq]

end Emulator

/-- **The output window shows the guest's output.** From a machine whose output queue is empty,
after any interleaving of the threads' actions, the bytes the output thread printed, then those
still queued, are among the output the guest's writes made, in order, less those a full queue
refused or a reload cleared. That output is, write by write, the byte itself for a write to the
output port `0xD012`, and on the monitored RAM the byte written to `0x6000` and the test messages
`monitored_ram_write` formats for a write to `0x6001` or `0x6002` (`writesOutput`): nothing
printed was not so produced, and nothing is printed twice or out of order. -/
theorem emulatorRun_outputSound (files : List Byte → Option (List Byte)) (c : Cpu)
    (hq : c.outputQueue.toList = []) (es : List EmulatorEvent) :
    (emulatorRun files (Emulator.start c) es).OutputSound :=
  emulatorRun_induction files (fun _ e h => h.emulatorStep files e) (Emulator.start_outputSound hq) es

/-- On the machine `cpu_init` leaves, a reload of an image, two steps and an output. -/
theorem reload_step_output_outputSound :
    (Cpu.initial .monitoredRam fun _ => 0).outputQueue.toList = [] ∧
      (emulatorRun (fun _ => some [0x8D, 0x12, 0xD0])
        (Emulator.start (Cpu.initial .monitoredRam fun _ => 0))
        ([.loop, .loop, .loop, .output] ++ List.replicate 11 .refresh)).OutputSound :=
  ⟨rfl, emulatorRun_outputSound _ (Cpu.initial .monitoredRam fun _ => 0) rfl _⟩


/-! ## The instruction history -/

/-- The `PC`s `print_cpu_state` lists, line `i` showing the entry
`(history_index - i - 1 + INSTRUCTION_HISTORY_SIZE) % INSTRUCTION_HISTORY_SIZE`. -/
def historyShown (history : List Word) (historyIndex : Nat) : List Word :=
  (List.range instructionHistorySize).map fun i =>
    history.getD ((historyIndex + instructionHistorySize - i - 1) % instructionHistorySize) 0

/-- **Both stores of `update_instruction_history`**: storing `pc` at `history_index` and moving the
index on puts `pc` on the first line and moves the other lines down, the last falling off. -/
theorem historyShown_set {history : List Word} (hlen : history.length = instructionHistorySize)
    {idx : Nat} (hidx : idx < instructionHistorySize) (pc : Word) :
    historyShown (history.set idx pc) ((idx + 1) % instructionHistorySize) =
      (pc :: historyShown history idx).take instructionHistorySize := by
  apply List.ext_getElem (by simp only [historyShown, List.length_map, List.length_range,
    List.length_take, List.length_cons, instructionHistorySize]; rfl)
  intro i h₁ _
  simp only [historyShown, List.length_map, List.length_range] at h₁
  simp only [historyShown, List.getElem_take, List.getElem_map, List.getElem_range,
    List.getD_eq_getElem?_getD]
  unfold instructionHistorySize at *
  rcases i with _ | j
  · have hi : ((idx + 1) % 5 + 5 - 0 - 1) % 5 = idx := by omega
    rw [List.getElem_cons_zero, hi, List.getElem?_set_self (by omega), Option.getD_some]
  · have hi : ((idx + 1) % 5 + 5 - (j + 1) - 1) % 5 = (idx + 5 - j - 1) % 5 := by omega
    rw [List.getElem_cons_succ, List.getElem_map, List.getElem_range, hi,
      List.getElem?_set_ne (by omega)]

/-- Listed from the index before its last move, the history shows the same entries one line up,
the first line last. -/
theorem historyShown_rotate (history : List Word) (n : Nat) :
    historyShown history ((n + instructionHistorySize - 1) % instructionHistorySize) =
      (historyShown history (n % instructionHistorySize)).rotate 1 := by
  apply List.ext_getElem (by simp only [historyShown, List.length_rotate, List.length_map])
  intro i h₁ _
  simp only [historyShown, List.length_map, List.length_range] at h₁
  simp only [historyShown, List.getElem_rotate, List.getElem_map, List.getElem_range,
    List.length_map, List.length_range]
  unfold instructionHistorySize at *
  congr 1
  omega

/-- Line `i + 1` of the history adds the entry line `i` reads. -/
theorem historyShown_take_succ (history : List Word) (idx : Nat) {i : Nat}
    (hi : i < instructionHistorySize) :
    (historyShown history idx).take i ++
        [history.getD ((idx + instructionHistorySize - i - 1) % instructionHistorySize) 0] =
      (historyShown history idx).take (i + 1) := by
  rw [List.take_succ, historyShown, List.getElem?_map, List.getElem?_range hi]
  rfl

theorem getD_zero_or_mem (l : List Word) (i : Nat) : l.getD i 0 = 0 ∨ l.getD i 0 ∈ l := by
  rw [List.getD_eq_getElem?_getD]
  cases h : l[i]? with
  | none => exact Or.inl rfl
  | some w => exact Or.inr (List.getElem?_mem h)

/-- Only the store of the `PC` leads to the store of the index. -/
theorem loopStep_historyIndex {f : Flags} {ok : Bool} {pc : LoopPc}
    (h : (loopStep f ok pc).2 = .historyIndex) : pc = .history := by
  cases pc <;> simp only [loopStep] at h <;> (try split_ifs at h) <;> simp_all

namespace Emulator

/-- The last `INSTRUCTION_HISTORY_SIZE` `PC`s the loop recorded, the latest first, then the zeros
the history starts with. -/
def lastRecorded (s : Emulator) : List Word :=
  (s.recorded.reverse ++ List.replicate instructionHistorySize 0).take instructionHistorySize

/-- What the history code reads and writes: the array, `history_index`, the `PC`s recorded, and
the render thread's point and lines. -/
def historyView (s : Emulator) : List Word × Nat × List Word × RenderPc × List Word :=
  (s.history, s.historyIndex, s.recorded, s.renderPc, s.historyLines)

/-- The history against what the loop recorded: listed from the index the records reached, the
slots are the last `PC`s recorded; `history_index` is that index, or one behind it between the two
stores of `update_instruction_history`; and every slot, and every line the render thread drew,
holds a recorded `PC` or the zero the history starts with. -/
structure HistoryOk (s : Emulator) : Prop where
  length : s.history.length = instructionHistorySize
  slots : historyShown s.history (s.recorded.length % instructionHistorySize) = s.lastRecorded
  index : s.historyIndex =
    if s.control.loop = .historyIndex then
      (s.recorded.length + instructionHistorySize - 1) % instructionHistorySize
    else s.recorded.length % instructionHistorySize
  history_recorded : ∀ w ∈ s.history, w = 0 ∨ w ∈ s.recorded
  lines_recorded : ∀ w ∈ s.historyLines, w = 0 ∨ w ∈ s.recorded

theorem start_historyOk (c : Cpu) : (start c).HistoryOk where
  length := rfl
  slots := rfl
  index := rfl
  history_recorded _ hw := Or.inl (List.eq_of_mem_replicate hw)
  lines_recorded _ hw := nomatch hw

/-- **What the history shows**: listed from `history_index`, the last `PC`s recorded, or, between
the two stores, the same one line up with the latest last. -/
theorem HistoryOk.shown {s : Emulator} (h : s.HistoryOk) :
    historyShown s.history s.historyIndex =
      if s.control.loop = .historyIndex then s.lastRecorded.rotate 1 else s.lastRecorded := by
  rw [h.index]
  split_ifs
  · rw [historyShown_rotate, h.slots]
  · exact h.slots

/-- An action that leaves the history and the lines alone, and the loop on the same side of the
index store. -/
theorem HistoryOk.of_eq {s s' : Emulator} (h : s.HistoryOk) (hhist : s'.history = s.history)
    (hidx : s'.historyIndex = s.historyIndex) (hrec : s'.recorded = s.recorded)
    (hlines : s'.historyLines = s.historyLines)
    (hl : s'.control.loop = .historyIndex ↔ s.control.loop = .historyIndex) : s'.HistoryOk := by
  refine ⟨?_, ?_, ?_, ?_, ?_⟩
  · rw [hhist]; exact h.length
  · rw [lastRecorded, hhist, hrec]; exact h.slots
  · simp only [hidx, hrec, hl]; exact h.index
  · rw [hhist, hrec]; exact h.history_recorded
  · rw [hrec, hlines]; exact h.lines_recorded

theorem HistoryOk.of_view {s s' : Emulator} (h : s.HistoryOk) (hv : s'.historyView = s.historyView)
    (hl : s'.control.loop = .historyIndex ↔ s.control.loop = .historyIndex) : s'.HistoryOk := by
  simp only [historyView, Prod.mk.injEq] at hv
  exact h.of_eq hv.1 hv.2.1 hv.2.2.1 hv.2.2.2.2 hl

/-- `update_instruction_history`'s store of `pc` at `history_index`. -/
theorem HistoryOk.record {s : Emulator} (h : s.HistoryOk) (hpc : s.control.loop = .history)
    (c : Control) (hc : c.loop = .historyIndex) (pc : Word) :
    HistoryOk { s with control := c, history := s.history.set s.historyIndex pc,
                       recorded := s.recorded ++ [pc] } := by
  have hidx : s.historyIndex = s.recorded.length % instructionHistorySize := by
    rw [h.index, if_neg (by rw [hpc]; decide)]
  have hlt : s.historyIndex < instructionHistorySize := hidx ▸ Nat.mod_lt _ (by decide)
  refine ⟨by rw [List.length_set, h.length], ?_, ?_, ?_, ?_⟩ <;> dsimp only
  · rw [List.length_append, List.length_singleton, ← Nat.mod_add_mod, ← hidx,
      historyShown_set h.length hlt, hidx, h.slots, lastRecorded, lastRecorded]
    simp only [List.reverse_append, List.reverse_singleton, List.singleton_append, List.cons_append,
      instructionHistorySize, List.take_succ_cons, List.take_take]
    rfl
  · rw [if_pos hc, hidx, List.length_append, List.length_singleton]
    unfold instructionHistorySize
    omega
  · intro w hw
    rcases List.mem_or_eq_of_mem_set hw with hw | rfl
    · exact (h.history_recorded w hw).imp_right (List.mem_append_left _)
    · exact Or.inr (List.mem_append_right _ (List.mem_singleton_self _))
  · exact fun w hw => (h.lines_recorded w hw).imp_right (List.mem_append_left _)

/-- `update_instruction_history`'s store of the next index. -/
theorem HistoryOk.advance {s : Emulator} (h : s.HistoryOk) (hpc : s.control.loop = .historyIndex)
    (c : Control) (hc : c.loop ≠ .historyIndex) :
    HistoryOk { s with control := c,
                       historyIndex := (s.historyIndex + 1) % instructionHistorySize } := by
  refine ⟨h.length, h.slots, ?_, h.history_recorded, h.lines_recorded⟩
  dsimp only
  rw [if_neg hc, h.index, if_pos hpc]
  unfold instructionHistorySize
  omega

theorem HistoryOk.loop {s : Emulator} (h : s.HistoryOk) (files : List Byte → Option (List Byte)) :
    (s.loop files).HistoryOk := by
  have hnext : (loopStep s.control.flags (s.loopOutcome files) s.control.loop).2 = .historyIndex →
      s.control.loop = .history := loopStep_historyIndex
  unfold Emulator.loop
  split
  case h_3 hpc => exact h.record hpc _ (by simp only [controlStep, hpc, loopStep]) _
  case h_4 hpc => exact h.advance hpc _ (by simp [controlStep, hpc, loopStep])
  all_goals exact h.of_view rfl ⟨fun hi => by have := hnext hi; simp_all, fun hi => by simp_all⟩

/-- The render thread's reads draw an entry of the history, or start the lines over. -/
theorem HistoryOk.render {s : Emulator} (h : s.HistoryOk) : s.render.HistoryOk := by
  unfold Emulator.render
  split
  · refine ⟨h.length, h.slots, h.index, h.history_recorded, fun w hw => ?_⟩
    dsimp only at hw
    split_ifs at hw
    · cases hw
    · exact h.lines_recorded w hw
  · refine ⟨h.length, h.slots, h.index, h.history_recorded, fun w hw => ?_⟩
    rcases List.mem_append.mp hw with hw | hw
    · exact h.lines_recorded w hw
    · rw [List.mem_singleton.mp hw]
      exact (getD_zero_or_mem s.history _).elim Or.inl (h.history_recorded _)
  · refine h.of_eq ?_ ?_ ?_ ?_ ?_ <;> simp only [refresh]

theorem request_historyView (files : List Byte → Option (List Byte)) (s : Emulator)
    (p : Option Prompt) (r : PromptRequest) : (s.request files p r).historyView = s.historyView := by
  cases r with
  | loadBinary path address =>
    simp only [Emulator.request]
    split_ifs <;> rfl
  | _ => rfl

end Emulator

/-- Only the emulation thread and the render thread touch the history. -/
theorem emulatorStep_historyView {e : EmulatorEvent} (hloop : e ≠ .loop) (hrefresh : e ≠ .refresh)
    (files : List Byte → Option (List Byte)) (s : Emulator) :
    (emulatorStep files s e).historyView = s.historyView := by
  cases e with
  | key k =>
    simp only [emulatorStep, Emulator.key]
    split_ifs
    · split
      · exact Emulator.request_historyView files s _ _
      · unfold Emulator.mainKey
        split
        · rfl
        · split <;> rfl
    · rfl
  | enqueue => simp only [emulatorStep, Emulator.enqueue]; split <;> rfl
  | output => simp only [emulatorStep, Emulator.output]; split <;> rfl
  | loop => exact absurd rfl hloop
  | refresh => exact absurd rfl hrefresh
  | store | irq | nmi => rfl

theorem Emulator.HistoryOk.emulatorStep {s : Emulator} (h : s.HistoryOk)
    (files : List Byte → Option (List Byte)) (e : EmulatorEvent) :
    (emulatorStep files s e).HistoryOk := by
  by_cases hl : e = .loop
  · subst hl; exact h.loop files
  by_cases hr : e = .refresh
  · subst hr; exact h.render
  exact h.of_view (emulatorStep_historyView hl hr files s) (by rw [emulatorStep_loop files s hl])

namespace Emulator

/-- The lines the render thread drew in its current call while the history stays as it is: line
`i` shows the entry `print_cpu_state` reads from the index as it stands. -/
def Drawn (s : Emulator) : Prop :=
  match s.renderPc with
  | .readIndex i => i < instructionHistorySize ∧
      (0 < i → s.historyLines = (historyShown s.history s.historyIndex).take i)
  | .readEntry i idx => i < instructionHistorySize ∧
      idx = (s.historyIndex + instructionHistorySize - i - 1) % instructionHistorySize ∧
      s.historyLines = (historyShown s.history s.historyIndex).take i
  | .readPorts => s.historyLines = historyShown s.history s.historyIndex

theorem Drawn.of_view {s s' : Emulator} (h : s.Drawn) (hv : s'.historyView = s.historyView) :
    s'.Drawn := by
  simp only [historyView, Prod.mk.injEq] at hv
  obtain ⟨h₁, h₂, -, h₄, h₅⟩ := hv
  unfold Drawn
  rw [h₁, h₂, h₄, h₅]
  exact h

/-- **One read of the render thread** draws the next line, or starts the lines over, and moves
the thread one read on. -/
theorem Drawn.render {s : Emulator} (h : s.Drawn) :
    s.render.Drawn ∧
      s.render.renderPc.pos = (s.renderPc.pos + 1) % (2 * instructionHistorySize + 1) := by
  unfold Emulator.render
  split
  next i hpc =>
    simp only [Drawn, hpc] at h
    refine ⟨⟨h.1, rfl, ?_⟩, ?_⟩
    · split_ifs with hi
      · subst hi; rfl
      · exact h.2 (Nat.pos_of_ne_zero hi)
    · simp only [RenderPc.pos, hpc]
      unfold instructionHistorySize at *
      omega
  next i idx hpc =>
    simp only [Drawn, hpc] at h
    obtain ⟨hi, rfl, hlines⟩ := h
    have hdraw := hlines ▸ historyShown_take_succ s.history s.historyIndex hi
    split_ifs with hnext
    · refine ⟨⟨hnext, fun _ => hdraw⟩, ?_⟩
      simp only [RenderPc.pos, hpc]
      unfold instructionHistorySize at *
      omega
    · refine ⟨?_, ?_⟩
      · show _ = _
        rw [hdraw, List.take_of_length_le (by simp [historyShown]; omega)]
      · simp only [RenderPc.pos, hpc]
        unfold instructionHistorySize at *
        omega
  next hpc =>
    exact ⟨⟨by decide, fun h0 => absurd h0 (lt_irrefl 0)⟩, by simp [RenderPc.pos, hpc, refresh]⟩

/-- Once the ten reads are made, the lines are those of the history. -/
theorem Drawn.lines {s : Emulator} (h : s.Drawn)
    (hpos : s.renderPc.pos = 2 * instructionHistorySize) :
    s.historyLines = historyShown s.history s.historyIndex := by
  unfold Drawn at h
  split at h
  next i hpc =>
    rw [hpc, RenderPc.pos] at hpos
    unfold instructionHistorySize at *
    omega
  next i idx hpc =>
    rw [hpc, RenderPc.pos] at hpos
    unfold instructionHistorySize at *
    omega
  next => exact h

/-- One action of a thread other than the loop: a read of the render thread moves it one read on,
any other action leaves the lines and the history as they are. -/
theorem Drawn.emulatorStep {s : Emulator} (h : s.Drawn) (files : List Byte → Option (List Byte))
    {e : EmulatorEvent} (hloop : e ≠ .loop)
    (hpos : e = .refresh → s.renderPc.pos < 2 * instructionHistorySize) :
    (Mos6502.emulatorStep files s e).Drawn ∧
      (Mos6502.emulatorStep files s e).renderPc.pos = s.renderPc.pos + (if e = .refresh then 1 else 0) ∧
      (Mos6502.emulatorStep files s e).history = s.history ∧
      (Mos6502.emulatorStep files s e).historyIndex = s.historyIndex := by
  by_cases hr : e = .refresh
  · subst hr
    obtain ⟨hd, hp⟩ := h.render
    obtain ⟨-, -, hh, hi, -⟩ := render_frame s
    refine ⟨hd, ?_, hh, hi⟩
    rw [Mos6502.emulatorStep, hp, if_pos rfl, Nat.mod_eq_of_lt (by have := hpos rfl; omega)]
  · have hv := emulatorStep_historyView hloop hr files s
    refine ⟨h.of_view hv, ?_⟩
    simp only [historyView, Prod.mk.injEq] at hv
    rw [hv.2.2.2.1, if_neg hr, Nat.add_zero]
    exact ⟨rfl, hv.1, hv.2.1⟩

/-- **A refresh the loop does not interleave**: through any actions of the other threads, the
render thread's reads go on drawing the lines of the history as it stands. -/
theorem Drawn.emulatorRun {s : Emulator} (h : s.Drawn) (files : List Byte → Option (List Byte))
    {es : List EmulatorEvent} (hloop : EmulatorEvent.loop ∉ es)
    (hcount : s.renderPc.pos + es.count .refresh ≤ 2 * instructionHistorySize) :
    (Mos6502.emulatorRun files s es).Drawn ∧
      (Mos6502.emulatorRun files s es).renderPc.pos = s.renderPc.pos + es.count .refresh ∧
      (Mos6502.emulatorRun files s es).history = s.history ∧
      (Mos6502.emulatorRun files s es).historyIndex = s.historyIndex := by
  induction es generalizing s with
  | nil => exact ⟨h, rfl, rfl, rfl⟩
  | cons e es ih =>
    rw [List.mem_cons, not_or] at hloop
    simp only [List.count_cons, beq_iff_eq] at hcount ⊢
    obtain ⟨hd, hp, hh, hi⟩ := h.emulatorStep files (Ne.symm hloop.1) fun hr => by
      rw [if_pos hr] at hcount; omega
    obtain ⟨h₁, h₂, h₃, h₄⟩ := ih hd hloop.2 (by rw [hp]; omega)
    rw [emulatorRun_cons, h₂, h₃, h₄, hp, hh, hi]
    exact ⟨h₁, by omega, rfl, rfl⟩

end Emulator

/-- **The history a refresh shows.** After any interleaving of the threads' actions, whatever the
machine and the files, every history line the render thread has drawn is a `PC` the loop's
`update_instruction_history` recorded or a zero the history started with. And a call of
`print_cpu_state` begun there, whose ten reads of the history the emulation thread does not
interleave whatever the other threads do, draws the last `INSTRUCTION_HISTORY_SIZE` `PC`s recorded,
the latest first and zeros below them while fewer were recorded; begun between the two stores of
`update_instruction_history`, it draws the same lines one up, the latest `PC` last. -/
theorem emulatorRun_history (files : List Byte → Option (List Byte)) (c : Cpu)
    (es es' : List EmulatorEvent) :
    (∀ w ∈ (emulatorRun files (Emulator.start c) es).historyLines,
        w = 0 ∨ w ∈ (emulatorRun files (Emulator.start c) es).recorded) ∧
      ((emulatorRun files (Emulator.start c) es).renderPc = .readIndex 0 →
        EmulatorEvent.loop ∉ es' → es'.count .refresh = 2 * instructionHistorySize →
        (emulatorRun files (emulatorRun files (Emulator.start c) es) es').historyLines =
          if (emulatorRun files (Emulator.start c) es).control.loop = .historyIndex then
            (emulatorRun files (Emulator.start c) es).lastRecorded.rotate 1
          else (emulatorRun files (Emulator.start c) es).lastRecorded) := by
  have h := emulatorRun_induction files (fun _ e h => h.emulatorStep files e)
    (Emulator.start_historyOk c) es
  refine ⟨h.lines_recorded, fun hpc hloop hcount => ?_⟩
  have hdrawn : (emulatorRun files (Emulator.start c) es).Drawn := by
    rw [Emulator.Drawn, hpc]
    exact ⟨by decide, fun h0 => absurd h0 (lt_irrefl 0)⟩
  obtain ⟨hd, hpos, hh, hi⟩ := hdrawn.emulatorRun files hloop (by rw [hpc, hcount]; rfl)
  rw [← h.shown, ← hh, ← hi]
  exact hd.lines (by rw [hpos, hpc, hcount]; rfl)

/-- The machine of NOPs resumed with F2 and caught between the two stores of its first record, then
a refresh. -/
theorem history_between_stores :
    (emulatorRun (fun _ => none) (Emulator.start (Cpu.initial .monitoredRam fun _ => 0xEA))
        [.key (keyF 2), .store, .store, .loop, .loop, .loop, .loop, .loop]).renderPc = .readIndex 0 ∧
      EmulatorEvent.loop ∉ List.replicate 10 EmulatorEvent.refresh ∧
      (List.replicate 10 EmulatorEvent.refresh).count .refresh = 2 * instructionHistorySize ∧
      (emulatorRun (fun _ => none)
          (emulatorRun (fun _ => none) (Emulator.start (Cpu.initial .monitoredRam fun _ => 0xEA))
            [.key (keyF 2), .store, .store, .loop, .loop, .loop, .loop, .loop])
          (List.replicate 10 .refresh)).historyLines =
        if (emulatorRun (fun _ => none) (Emulator.start (Cpu.initial .monitoredRam fun _ => 0xEA))
            [.key (keyF 2), .store, .store, .loop, .loop, .loop, .loop, .loop]).control.loop =
            .historyIndex then
          (emulatorRun (fun _ => none) (Emulator.start (Cpu.initial .monitoredRam fun _ => 0xEA))
            [.key (keyF 2), .store, .store, .loop, .loop, .loop, .loop, .loop]).lastRecorded.rotate 1
        else
          (emulatorRun (fun _ => none) (Emulator.start (Cpu.initial .monitoredRam fun _ => 0xEA))
            [.key (keyF 2), .store, .store, .loop, .loop, .loop, .loop, .loop]).lastRecorded :=
  ⟨rfl, by decide, rfl, (emulatorRun_history _ _ _ _).2 rfl (by decide) rfl⟩

/-- There the `PC` just recorded, `1`, is drawn on the last line rather than the first. -/
example : (emulatorRun (fun _ => none)
    (emulatorRun (fun _ => none) (Emulator.start (Cpu.initial .monitoredRam fun _ => 0xEA))
      [.key (keyF 2), .store, .store, .loop, .loop, .loop, .loop, .loop])
    (List.replicate 10 .refresh)).historyLines = [0, 0, 0, 0, 1] := by
  decide


/-! ## Resets -/

/-- A `load_binary` that returns 0 loaded a nonempty image. -/
theorem loadBinary_image {c : Cpu} {file : Option (List Byte)} {addr : Word}
    (h : (loadBinary c file addr).1 = 0) : ∃ image, file = some image ∧ image ≠ [] := by
  rcases loadBinary_cases c file addr with hl | ⟨image, rfl, -, -⟩
  · simp [hl] at h
  · refine ⟨image, rfl, ?_⟩
    rintro rfl
    simp [loadBinary, cpuLoadProgram] at h

namespace Emulator

/-- The binary a reset reloads is a nonempty file. -/
def ReloadOk (files : List Byte → Option (List Byte)) (s : Emulator) : Prop :=
  ∃ image, files s.binaryPath = some image ∧ image ≠ []

theorem mainKey_binaryPath (s : Emulator) (k : Nat) : (s.mainKey k).binaryPath = s.binaryPath := by
  unfold mainKey
  split
  · rfl
  · split <;> rfl

/-- Only a `load_binary` that succeeded changes the binary a reset reloads. -/
theorem ReloadOk.request {files : List Byte → Option (List Byte)} {s : Emulator}
    (h : s.ReloadOk files) (p : Option Prompt) (r : PromptRequest) :
    (s.request files p r).ReloadOk files := by
  cases r with
  | loadBinary path address =>
    simp only [Emulator.request]
    split_ifs with hok
    · exact loadBinary_image hok
    · exact h
  | _ => exact h

theorem ReloadOk.emulatorStep {files : List Byte → Option (List Byte)} {s : Emulator}
    (h : s.ReloadOk files) (e : EmulatorEvent) : (Mos6502.emulatorStep files s e).ReloadOk files := by
  cases e with
  | key k =>
    simp only [Mos6502.emulatorStep, Emulator.key]
    split_ifs
    · split
      · exact h.request _ _
      · rw [ReloadOk, mainKey_binaryPath]; exact h
    · exact h
  | loop =>
    simp only [Mos6502.emulatorStep, Emulator.loop]
    split <;> exact h
  | enqueue =>
    simp only [Mos6502.emulatorStep, Emulator.enqueue]
    split <;> exact h
  | output =>
    simp only [Mos6502.emulatorStep, Emulator.output]
    split <;> exact h
  | refresh =>
    rw [ReloadOk, show (Mos6502.emulatorStep files s .refresh).binaryPath = s.binaryPath from
      (render_frame s).2.1]
    exact h
  | _ => exact h

end Emulator

/-- Only the loop's `update_instruction_history` records a `PC`. -/
theorem emulatorStep_recorded (files : List Byte → Option (List Byte)) (s : Emulator)
    (e : EmulatorEvent) :
    (emulatorStep files s e).recorded =
      if e = .loop ∧ s.control.loop = .history then s.recorded ++ [s.host.cpu.PC] else s.recorded := by
  by_cases he : e = .loop
  · subst he
    simp only [emulatorStep, Emulator.loop]
    split <;> simp_all
  rw [if_neg fun h => he h.1]
  by_cases hr : e = .refresh
  · subst hr
    exact (Emulator.render_frame s).2.2.2.2
  exact congrArg (fun t => t.2.2.1) (emulatorStep_historyView he hr files s)

/-- One action once `emulator_exit` is set: the flag stays, a loop action moves the loop closer
to its end, and a `PC` is recorded only by using up the credit. -/
theorem emulatorStep_of_exit (files : List Byte → Option (List Byte)) {s : Emulator}
    (hs : s.control.flags.emulatorExit = true) (e : EmulatorEvent) :
    (emulatorStep files s e).control.flags.emulatorExit = true ∧
      (emulatorStep files s e).recorded.length + exitCredit (emulatorStep files s e).control.loop ≤
        s.recorded.length + exitCredit s.control.loop ∧
      exitRank (emulatorStep files s e).control.loop ≤
        exitRank s.control.loop - if e = .loop then 1 else 0 := by
  rw [emulatorStep_control, emulatorStep_recorded]
  refine ⟨controlRun_exit hs _, ?_⟩
  by_cases he : e = .loop
  · subst he
    obtain ⟨hrank, hcredit⟩ := controlStep_of_exit hs (.loop (s.loopOutcome files))
    simp only [EmulatorEvent.controlEvents, controlRun, List.foldl_cons, List.foldl_nil,
      ControlEvent.isLoop, true_and, if_true, Bool.toNat_true] at hrank hcredit ⊢
    refine ⟨?_, hrank⟩
    split_ifs at hcredit ⊢
    · rw [List.length_append, List.length_singleton]; omega
    · omega
  · rw [if_neg fun h => he h.1, if_neg he, controlRun_loop (controlEvents_isLoop files s he)]
    exact ⟨le_rfl, Nat.le_refl _⟩

/-- A run once `emulator_exit` is set: what it records is paid for by the credit, and each of its
loop actions moves the loop closer to its end. -/
theorem emulatorRun_of_exit (files : List Byte → Option (List Byte)) (es : List EmulatorEvent) :
    ∀ {s : Emulator}, s.control.flags.emulatorExit = true →
      (emulatorRun files s es).recorded.length + exitCredit (emulatorRun files s es).control.loop ≤
        s.recorded.length + exitCredit s.control.loop ∧
      exitRank (emulatorRun files s es).control.loop ≤ exitRank s.control.loop - es.count .loop := by
  induction es with
  | nil => exact fun _ => ⟨le_rfl, Nat.le_refl _⟩
  | cons e es ih =>
    intro s hs
    obtain ⟨h₁, h₂, h₃⟩ := emulatorStep_of_exit files hs e
    obtain ⟨h₄, h₅⟩ := ih h₁
    have hcount : (e :: es).count .loop = es.count .loop + if e = .loop then 1 else 0 := by
      simp [List.count_cons]
    rw [emulatorRun_cons, hcount]
    refine ⟨h₄.trans h₂, ?_⟩
    split_ifs at h₃ ⊢ <;> omega

/-- **F10 stops the machine within one instruction.** From any state where `emulator_exit` is
set, whatever the threads do next: no thread clears the flag, the loop records at most one more
`PC`, so at most one more instruction completes, and after fifteen of its actions the emulation
thread has left its loop. -/
theorem emulatorRun_exit (files : List Byte → Option (List Byte)) {s : Emulator}
    (hexit : s.control.flags.emulatorExit = true) (es : List EmulatorEvent) :
    (emulatorRun files s es).control.flags.emulatorExit = true ∧
      (emulatorRun files s es).recorded.length ≤ s.recorded.length + 1 ∧
      (15 ≤ es.count .loop → (emulatorRun files s es).control.loop = .stopped) := by
  obtain ⟨h₁, h₂⟩ := emulatorRun_of_exit files es hexit
  have hcredit : exitCredit s.control.loop ≤ 1 := by unfold exitCredit; split <;> omega
  have hrank : exitRank s.control.loop ≤ 15 := by cases s.control.loop <;> decide
  refine ⟨by rw [emulatorRun_control]; exact controlRun_exit hexit _, by omega, fun hloops => ?_⟩
  have hzero : exitRank (emulatorRun files s es).control.loop = 0 := by omega
  revert hzero
  cases (emulatorRun files s es).control.loop <;> simp [exitRank]

/-- F10 from the start, then fifteen actions of the loop. -/
theorem exit_after_f10 :
    (emulatorRun (fun _ => none) (Emulator.start (Cpu.initial .monitoredRam fun _ => 0))
        [.key (keyF 10)]).control.flags.emulatorExit = true ∧
      ((emulatorRun (fun _ => none) (emulatorRun (fun _ => none)
          (Emulator.start (Cpu.initial .monitoredRam fun _ => 0)) [.key (keyF 10)])
          (List.replicate 15 .loop)).control.flags.emulatorExit = true ∧
      (emulatorRun (fun _ => none) (emulatorRun (fun _ => none)
          (Emulator.start (Cpu.initial .monitoredRam fun _ => 0)) [.key (keyF 10)])
          (List.replicate 15 .loop)).recorded.length ≤
        (emulatorRun (fun _ => none) (Emulator.start (Cpu.initial .monitoredRam fun _ => 0))
          [.key (keyF 10)]).recorded.length + 1 ∧
      (15 ≤ (List.replicate 15 EmulatorEvent.loop).count .loop →
        (emulatorRun (fun _ => none) (emulatorRun (fun _ => none)
          (Emulator.start (Cpu.initial .monitoredRam fun _ => 0)) [.key (keyF 10)])
          (List.replicate 15 .loop)).control.loop = .stopped)) :=
  ⟨rfl, emulatorRun_exit _ rfl _⟩

end Mos6502
