import Mos6502.Host.LineEditor
import Mos6502.Properties.Loading

/-!
# The prompts and `load_binary`

F1, F3, F4 and F6 open a window in which the serial-input thread reads the keys itself until the
window closes: the help menu waits for ESC; `prompt_load_binary` reads a path and a load address,
`prompt_adjust_clock` a clock speed, `prompt_set_pc` a new `PC`. The three prompts read their
field with the same loop: ESC cancels, Enter submits, backspace deletes the last character, and a
character the prompt accepts is appended while there is room (`fieldKey`). They differ in what
they accept and in their room. The address and the `PC` are read back with `sscanf("%hx")`
(`scanHex`), the clock speed with `atof`, of which only the sign is read (`atofPositive`).

`Prompt` is where the thread is inside a window, `promptKey` one key there, and `PromptRequest`
what the key asks of the machine when the window closes. `load_binary` loads the program the
prompt names, or reloads it on a reset.

Typing hex digits in the `PC` prompt and Enter asks for the value they spell modulo `0x10000`,
and for nothing with no digit typed (`setPc_prompt_typed`). `load_binary` succeeds exactly when `cpu_load_program`
does: its test of `PC` after the reset never fails, and it leaves the machine reset at the load
address, its output queue empty and its input queue as it was (`loadBinary_spec`).

## Main definitions

* `fieldKey`: the field loop of the prompts, and its members `loadPathKey`, `loadAddressKey`,
  `adjustClockKey`, `setPcKey`
* `scanHex`, `atofPositive`: the conversions of the prompts' fields
* `Prompt`, `promptKey`, `promptRun`: the windows and their keys
* `loadBinary`: `load_binary`

## Main results

* `setPc_prompt_typed`: what the `PC` prompt asks for
* `loadBinary_spec`: what `load_binary` does
-/

namespace Mos6502

/-! ## The field loop -/

/-- `KEY_ESC` (`main.h`). -/
def keyEsc : Nat := 27

/-- `isxdigit` of the C locale. -/
def isXDigit (ch : Nat) : Bool :=
  (48 ≤ ch && ch ≤ 57) || (65 ≤ ch && ch ≤ 70) || (97 ≤ ch && ch ≤ 102)

/-- `isdigit(ch) || ch == '.' || ch == 'e' || ch == 'E'`: what the clock prompt accepts. -/
def isClockChar (ch : Nat) : Bool := (48 ≤ ch && ch ≤ 57) || ch == 46 || ch == 101 || ch == 69

/-- What a field loop makes of a key: the field still being edited, cancelled, or submitted. -/
inductive FieldStep
  | editing (input : List Byte)
  | cancelled
  | submitted (input : List Byte)
  deriving DecidableEq, Repr

/-- One key of a prompt's field loop on the characters typed so far (the `char` array up to
`pos`, the rest of it being zero): `KEY_ESC` or 27 cancels, Enter submits, backspace removes the
last character, and a character the prompt `accept`s is stored while `pos < cap`. -/
def fieldKey (accept : Nat → Bool) (cap : Nat) (input : List Byte) (ch : Nat) : FieldStep :=
  if ch = keyEsc then .cancelled
  else if isEnterKey ch then .submitted input
  else if isBackspaceKey ch then .editing input.dropLast
  else if accept ch && input.length < cap then .editing (input ++ [BitVec.ofNat 8 ch])
  else .editing input

/-- The path loop of `prompt_load_binary`: `isprint(ch) && pos < sizeof(path) - 1`. -/
def loadPathKey : List Byte → Nat → FieldStep := fieldKey isPrint 255

/-- The address loop of `prompt_load_binary`:
`isxdigit(ch) && addr_pos < sizeof(address_input) - 1`. -/
def loadAddressKey : List Byte → Nat → FieldStep := fieldKey isXDigit 15

/-- The loop of `prompt_adjust_clock`: a digit, `'.'`, `'e'` or `'E'`, with
`pos < sizeof(input) - 1`. -/
def adjustClockKey : List Byte → Nat → FieldStep := fieldKey isClockChar 255

/-- The loop of `prompt_set_pc`: `isxdigit(ch) && pos < sizeof(input) - 1`. -/
def setPcKey : List Byte → Nat → FieldStep := fieldKey isXDigit 15

/-- A character a prompt accepts, appended while there is room. -/
theorem fieldKey_of_accept {accept : Nat → Bool} (hacc : ∀ ch, accept ch → isPrint ch)
    {cap : Nat} {input : List Byte} {b : Byte} (hb : accept b.toNat)
    (hroom : input.length < cap) : fieldKey accept cap input b.toNat = .editing (input ++ [b]) := by
  have hp := hacc _ hb
  simp only [isPrint, Bool.and_eq_true, decide_eq_true_eq] at hp
  have he : ¬ b.toNat = keyEsc := by unfold keyEsc; omega
  have hn : isEnterKey b.toNat = false := by
    simp only [isEnterKey, Bool.or_eq_false_iff, beq_eq_false_iff_ne]; omega
  have hk : isBackspaceKey b.toNat = false := by
    simp only [isBackspaceKey, keyBackspace, Bool.or_eq_false_iff, beq_eq_false_iff_ne]; omega
  simp [fieldKey, he, hn, hk, hb, hroom]

/-- Enter submits what was typed. -/
theorem fieldKey_enter {accept : Nat → Bool} {cap : Nat} {input : List Byte} {k : Nat}
    (hk : isEnterKey k) : fieldKey accept cap input k = .submitted input := by
  have he : ¬ k = keyEsc := by
    simp only [isEnterKey, Bool.or_eq_true, beq_iff_eq] at hk; unfold keyEsc; omega
  simp [fieldKey, he, hk]

/-! ## The conversions -/

/-- The value of one hex digit. -/
def hexDigitValue (b : Byte) : Nat :=
  if b.toNat ≤ 57 then b.toNat - 48 else if b.toNat ≤ 70 then b.toNat - 55 else b.toNat - 87

/-- The value the hex digits `s` spell, most significant first. -/
def hexValue (s : List Byte) : Nat := s.foldl (fun v d => 16 * v + hexDigitValue d) 0

/-- `sscanf(s, "%hx", &v) == 1` and `v`, on a string of hex digits (all the prompts let in): no
digit is no conversion; otherwise the digits' value, stored in an `unsigned short`, modulo
`0x10000` (fifteen digits stay below the range of the `unsigned long` glibc converts through). -/
def scanHex (s : List Byte) : Option Word :=
  let ds := s.takeWhile fun b => isXDigit b.toNat
  if ds = [] then none else some (BitVec.ofNat 16 (hexValue ds))

/-- `atof(s) > 0` on a string of digits, `'.'`, `'e'` and `'E'` (all the clock prompt lets in):
`strtod` reads the digits, an optional `'.'` and more digits, and an exponent that cannot be
negative here, so the value is positive exactly when a digit it reads is not zero. -/
def atofPositive (s : List Byte) : Bool :=
  let isDigit := fun b : Byte => 48 ≤ b.toNat && b.toNat ≤ 57
  let intPart := s.takeWhile isDigit
  let rest := s.drop intPart.length
  let fracPart := if rest.head? = some 46 then (rest.drop 1).takeWhile isDigit else []
  (intPart ++ fracPart).any fun b => b.toNat != 48

theorem scanHex_of_xdigits {s : List Byte} (hs : ∀ b ∈ s, isXDigit b.toNat) (hne : s ≠ []) :
    scanHex s = some (BitVec.ofNat 16 (hexValue s)) := by
  simp [scanHex, List.takeWhile_eq_self_iff.2 hs, hne]

/-! ## The windows -/

/-- Where the serial-input thread is while a window is open. -/
inductive Prompt
  /-- `display_help_menu`, waiting for ESC -/
  | help
  /-- `prompt_load_binary`, reading the path -/
  | loadPath (path : List Byte)
  /-- "Binary path cannot be empty.", waiting for a key -/
  | loadPathEmpty
  /-- `prompt_load_binary`, reading the load address -/
  | loadAddress (path address : List Byte)
  /-- "Failed to load the binary file.", waiting for a key -/
  | loadFailed
  /-- `prompt_adjust_clock` -/
  | adjustClock (input : List Byte)
  /-- "Invalid clock speed entered.", waiting for a key -/
  | invalidClock
  /-- `prompt_set_pc` -/
  | setPc (input : List Byte)
  /-- "Invalid PC value.", waiting for a key -/
  | invalidPc
  deriving DecidableEq, Repr

/-- What a key in a window asks of the machine. -/
inductive PromptRequest
  | none
  /-- `cpu->reg.PC = new_pc`, under `lock` -/
  | setPc (v : Word)
  /-- `load_binary(cpu, path, load_address)` under `lock`; on success the path and the address
  become those of a reset -/
  | loadBinary (path : List Byte) (address : Word)
  /-- `cpu_set_clock_frequency` with a positive frequency -/
  | setClock
  deriving DecidableEq, Repr

/-- One key in a window: the window after it (`none` when it closes) and what it asks. A failed
`load_binary` reopens the window as `loadFailed`, which the caller decides. -/
def promptKey : Prompt → Nat → Option Prompt × PromptRequest
  | .help, ch => (if ch = keyEsc then none else some .help, .none)
  | .loadPath path, ch =>
    match loadPathKey path ch with
    | .cancelled => (none, .none)
    | .submitted path => (some (if path = [] then .loadPathEmpty else .loadAddress path []), .none)
    | .editing path => (some (.loadPath path), .none)
  | .loadPathEmpty, ch => (if ch = keyEsc then none else some (.loadPath []), .none)
  | .loadAddress path address, ch =>
    match loadAddressKey address ch with
    | .cancelled => (none, .none)
    | .submitted address => (none, .loadBinary path ((scanHex address).getD 0xC000))
    | .editing address => (some (.loadAddress path address), .none)
  | .loadFailed, _ => (none, .none)
  | .adjustClock input, ch =>
    match adjustClockKey input ch with
    | .cancelled => (none, .none)
    | .submitted input => if atofPositive input then (none, .setClock) else (some .invalidClock, .none)
    | .editing input => (some (.adjustClock input), .none)
  | .invalidClock, _ => (none, .none)
  | .setPc input, ch =>
    match setPcKey input ch with
    | .cancelled => (none, .none)
    | .submitted input =>
      match scanHex input with
      | none => (some .invalidPc, .none)
      | some v => (none, .setPc v)
    | .editing input => (some (.setPc input), .none)
  | .invalidPc, _ => (none, .none)

/-- The keys a window reads, until it closes, and the requests they make. -/
def promptRun : Prompt → List Nat → Option Prompt × List PromptRequest
  | p, [] => (some p, [])
  | p, ch :: chs =>
    match promptKey p ch with
    | (some p', r) => let r' := promptRun p' chs; (r'.1, r :: r'.2)
    | (none, r) => (none, [r])

theorem promptRun_cons_of_some {p p' : Prompt} {ch : Nat} {r : PromptRequest}
    (h : promptKey p ch = (some p', r)) (chs : List Nat) :
    promptRun p (ch :: chs) = ((promptRun p' chs).1, r :: (promptRun p' chs).2) := by
  simp only [promptRun, h]

theorem isPrint_of_isXDigit {ch : Nat} (h : isXDigit ch) : isPrint ch := by
  simp only [isXDigit, isPrint, Bool.or_eq_true, Bool.and_eq_true, decide_eq_true_eq] at h ⊢
  omega

/-- Typing hex digits into the `PC` prompt, within its room, appends them. -/
theorem promptRun_setPc_typing (input s : List Byte) (hs : ∀ b ∈ s, isXDigit b.toNat)
    (hlen : input.length + s.length ≤ 15) (ks : List Nat) :
    promptRun (.setPc input) (s.map BitVec.toNat ++ ks) =
      ((promptRun (.setPc (input ++ s)) ks).1,
        s.map (fun _ => .none) ++ (promptRun (.setPc (input ++ s)) ks).2) := by
  induction s generalizing input with
  | nil => simp
  | cons b s ih =>
    simp only [List.length_cons] at hlen
    have hkey : promptKey (.setPc input) b.toNat = (some (.setPc (input ++ [b])), .none) := by
      simp only [promptKey, setPcKey,
        fieldKey_of_accept (fun _ => isPrint_of_isXDigit) (hs b (List.mem_cons_self _ _))
          (show input.length < 15 by omega)]
    rw [List.map_cons, List.cons_append, promptRun_cons_of_some hkey,
      ih (input ++ [b]) (fun x hx => hs x (List.mem_cons_of_mem _ hx))
        (by rw [List.length_append, List.length_singleton]; omega)]
    simp

/-- **What the `PC` prompt asks for.** Typing at most fifteen hex digits in a fresh `PC` prompt
and Enter asks to set `PC` to the value they spell, modulo `0x10000`; with no digit the prompt
reports an invalid value and asks for nothing. -/
theorem setPc_prompt_typed (s : List Byte) (hs : ∀ b ∈ s, isXDigit b.toNat)
    (hlen : s.length ≤ 15) {k : Nat} (hk : isEnterKey k) :
    promptRun (.setPc []) (s.map BitVec.toNat ++ [k]) =
      if s = [] then (some .invalidPc, [.none])
      else (none, s.map (fun _ => .none) ++ [.setPc (BitVec.ofNat 16 (hexValue s))]) := by
  rw [promptRun_setPc_typing [] s hs (by simpa using hlen)]
  split_ifs with hne
  · subst hne; simp [promptRun, promptKey, setPcKey, fieldKey_enter hk, scanHex]
  · simp [promptRun, promptKey, setPcKey, fieldKey_enter hk, scanHex_of_xdigits hs hne]

/-- `C000` and Enter. -/
theorem setPc_prompt_c000 :
    ((∀ b ∈ ([0x43, 0x30, 0x30, 0x30] : List Byte), isXDigit b.toNat) ∧
        ([0x43, 0x30, 0x30, 0x30] : List Byte).length ≤ 15 ∧ isEnterKey 13 = true) ∧
      promptRun (.setPc []) (([0x43, 0x30, 0x30, 0x30] : List Byte).map BitVec.toNat ++ [13]) =
        if ([0x43, 0x30, 0x30, 0x30] : List Byte) = [] then (some .invalidPc, [.none])
        else (none, ([0x43, 0x30, 0x30, 0x30] : List Byte).map (fun _ => .none) ++
          [.setPc (BitVec.ofNat 16 (hexValue [0x43, 0x30, 0x30, 0x30]))]) :=
  ⟨⟨by decide, by decide, rfl⟩, setPc_prompt_typed _ (by decide) (by decide) rfl⟩

/-! ## `load_binary` -/

/-- `load_binary` on a file holding `file` (`none` when it cannot be opened): load it with
`cpu_load_program`, point the reset vector at `load_address`, reset, clear the output queue, and
check that `PC` came out as `load_address`; -1 on a failure, 0 on success. -/
def loadBinary (c : Cpu) (file : Option (List Byte)) (loadAddress : Word) : Int × Cpu :=
  let r := cpuLoadProgram c file loadAddress
  if r.1 ≠ .success then (-1, r.2)
  else
    let c := cpuWrite r.2 0xFFFC ((loadAddress &&& 0xFF).setWidth 8)
    let c := cpuWrite c 0xFFFD (((loadAddress >>> 8) &&& 0xFF).setWidth 8)
    let c := cpuReset c
    let c := { c with outputQueue := c.outputQueue.clear }
    if c.PC ≠ loadAddress then (-1, c) else (0, c)

/-- The reset vector's writes for `addr`: its low byte, then its high byte. -/
def vectorWrites (addr : Word) : List (Word × Byte) :=
  [(0xFFFC, addr.setWidth 8), (0xFFFD, (addr >>> 8).setWidth 8)]

/-- The writes of `load_binary`: the image, the vector `cpu_load_program` sets, and the vector
again. -/
def loadBinaryWrites (addr : Word) (image : List Byte) : List (Word × Byte) :=
  loadWrites addr image ++ vectorWrites addr ++ vectorWrites addr

/-- What a successful `load_binary` leaves: the registers as `cpu_reset` sets them, `PC` at the
load address, the cycle counter and the latches cleared, the output queue empty, the input side
untouched, and memory after the writes of the load. -/
structure Reloaded (c c' : Cpu) (addr : Word) (image : List Byte) : Prop where
  PC : c'.PC = addr
  registers : c'.A = 0 ∧ c'.X = 0 ∧ c'.Y = 0 ∧ c'.SP = 0xFD ∧ c'.P = 0x34
  cycleCount : c'.cycleCount = 0
  latches : c'.IRQPending = false ∧ c'.NMIPending = false
  outputQueue : c'.outputQueue.toList = []
  inputQueue : c'.inputQueue = c.inputQueue
  inputLog : c'.inputLog = c.inputLog
  writeLog : c'.writeLog = c.writeLog ++ loadBinaryWrites addr image
  mem : c'.mem = applyWrites c.mem (loadBinaryWrites addr image)
  device : c'.device = c.device

theorem and_0xFF_setWidth (w : Word) : (w &&& 0xFF).setWidth 8 = w.setWidth 8 := by
  apply BitVec.eq_of_toNat_eq
  simp only [BitVec.toNat_setWidth, BitVec.toNat_and]
  have : (0xFF : Word).toNat = 2 ^ 8 - 1 := rfl
  rw [this, Nat.and_pow_two_sub_one_eq_mod, Nat.mod_mod]

theorem cpuWrite_input (c : Cpu) (a : Word) (v : Byte) :
    (cpuWrite c a v).inputQueue = c.inputQueue ∧ (cpuWrite c a v).inputLog = c.inputLog := by
  rw [cpuWrite_eq]; exact ⟨rfl, rfl⟩

theorem loadBytes_input (c : Cpu) (a : Word) (bs : List Byte) :
    (loadBytes c a bs).inputQueue = c.inputQueue ∧ (loadBytes c a bs).inputLog = c.inputLog := by
  induction bs generalizing c a with
  | nil => exact ⟨rfl, rfl⟩
  | cons b bs ih =>
    obtain ⟨h₁, h₂⟩ := cpuWrite_input c a b
    exact ⟨(ih _ _).1.trans h₁, (ih _ _).2.trans h₂⟩

/-- `cpu_reset` takes `PC` from the vector in memory. -/
theorem cpuReset_eq (c : Cpu) :
    cpuReset c = { c with A := 0, X := 0, Y := 0, SP := 0xFD, P := 0x34,
                          PC := toWord (c.mem 0xFFFC) (c.mem 0xFFFD), cycleCount := 0,
                          IRQPending := false, NMIPending := false } := by
  simp only [cpuReset, cpuRead_of_ne (by decide : (0xFFFC : Word) ≠ inputAddr),
    cpuRead_of_ne (by decide : (0xFFFD : Word) ≠ inputAddr)]

theorem loadBinary_of_ne_nil (c : Cpu) (image : List Byte) (addr : Word) (h : image ≠ []) :
    (loadBinary c (some image) addr).1 = 0 ∧
      Reloaded c (loadBinary c (some image) addr).2 addr image := by
  obtain ⟨b, bs, rfl⟩ := List.exists_cons_of_ne_nil h
  obtain ⟨hok, hw⟩ := load_program_never_overflows c (b :: bs) addr h
  set c₁ := (cpuLoadProgram c (some (b :: bs)) addr).2 with hc₁
  set c₃ := cpuWrite (cpuWrite c₁ 0xFFFC ((addr &&& 0xFF).setWidth 8)) 0xFFFD
    (((addr >>> 8) &&& 0xFF).setWidth 8) with hc₃
  have hw' : AfterWrites c c₃ (loadBinaryWrites addr (b :: bs)) := by
    have := (hw.trans (cpuWrite_afterWrites _ 0xFFFC ((addr &&& 0xFF).setWidth 8))).trans
      (cpuWrite_afterWrites _ 0xFFFD (((addr >>> 8) &&& 0xFF).setWidth 8))
    have hl : (loadWrites addr (b :: bs) ++ vectorWrites addr) ++
        [((0xFFFC : Word), (addr &&& 0xFF).setWidth 8)] ++
        [((0xFFFD : Word), ((addr >>> 8) &&& 0xFF).setWidth 8)] = loadBinaryWrites addr (b :: bs) := by
      simp only [loadBinaryWrites, vectorWrites, and_0xFF_setWidth, List.append_assoc,
        List.singleton_append, List.cons_append, List.nil_append]
    rw [← hl]; exact this
  have hvec : c₃.mem 0xFFFC = addr.setWidth 8 ∧ c₃.mem 0xFFFD = (addr >>> 8).setWidth 8 := by
    rw [hc₃, and_0xFF_setWidth, and_0xFF_setWidth]
    simp [cpuWrite_eq, storeByte, outputAddr, Function.update]
  have hin : c₃.inputQueue = c.inputQueue ∧ c₃.inputLog = c.inputLog := by
    obtain ⟨h₁, h₂⟩ := loadBytes_input c addr (b :: bs)
    simp only [hc₃, hc₁, cpuLoadProgram, cpuWrite_eq]
    exact ⟨h₁, h₂⟩
  have hvector : toWord (c₃.mem 0xFFFC) (c₃.mem 0xFFFD) = addr :=
    (congrArg₂ toWord hvec.1 hvec.2).trans (toWord_split addr)
  have hPC : (cpuReset c₃).PC = addr := by rw [cpuReset_eq]; exact hvector
  have hres : loadBinary c (some (b :: bs)) addr =
      (0, { cpuReset c₃ with outputQueue := (cpuReset c₃).outputQueue.clear }) := by
    simp only [loadBinary, ← hc₁, hok, ne_eq, not_true_eq_false, if_false, ← hc₃, hPC]
  rw [hres]
  refine ⟨rfl, ?_⟩
  rw [cpuReset_eq]
  exact ⟨hvector, ⟨rfl, rfl, rfl, rfl, rfl⟩, rfl, ⟨rfl, rfl⟩, ByteQueue.toList_clear _, hin.1,
    hin.2, hw'.writeLog, hw'.mem, hw'.device⟩

/-- **`load_binary` succeeds on every nonempty image**, so its test of `PC` never fails, and it
leaves the machine reset at the load address, with the output queue empty and the serial input
not yet read still queued. -/
theorem loadBinary_spec (c : Cpu) (image : List Byte) (addr : Word) (h : image ≠ []) :
    (loadBinary c (some image) addr).1 = 0 ∧
      Reloaded c (loadBinary c (some image) addr).2 addr image :=
  loadBinary_of_ne_nil c image addr h

/-- A one-byte image at `0xC000` on the machine `cpu_init` leaves. -/
theorem loadBinary_nop :
    ([0xEA] : List Byte) ≠ [] ∧
      (loadBinary (Cpu.initial .monitoredRam fun _ => 0) (some [0xEA]) 0xC000).1 = 0 ∧
        Reloaded (Cpu.initial .monitoredRam fun _ => 0)
          (loadBinary (Cpu.initial .monitoredRam fun _ => 0) (some [0xEA]) 0xC000).2 0xC000 [0xEA] :=
  ⟨List.cons_ne_nil _ _, loadBinary_spec _ _ _ (List.cons_ne_nil _ _)⟩

/-- `load_binary` either fails and changes nothing (no file, or an empty one), or loads a
nonempty image as `loadBinary_of_ne_nil` says. -/
theorem loadBinary_cases (c : Cpu) (file : Option (List Byte)) (addr : Word) :
    loadBinary c file addr = (-1, c) ∨
      ∃ image, file = some image ∧ (loadBinary c file addr).1 = 0 ∧
        Reloaded c (loadBinary c file addr).2 addr image := by
  match file with
  | none => exact .inl (by simp [loadBinary, cpuLoadProgram])
  | some [] => exact .inl (by simp [loadBinary, cpuLoadProgram])
  | some (b :: bs) => exact .inr ⟨_, rfl, loadBinary_of_ne_nil c (b :: bs) addr (List.cons_ne_nil b bs)⟩

end Mos6502
