import Mos6502.Host.Emulator

/-!
# The load dialogue

F3 in the serial-input thread's main loop opens `prompt_load_binary`. The window reads a path,
printable characters up to 255 of them, until Enter; an empty path is refused. It then reads a
load address, hex digits up to 15 of them, until Enter, `0xC000` standing for an address with no
digit. It calls `load_binary` under `lock`, and on success makes the path and the address those
a reset (F5) reloads.

The keys of the dialogue reach the window one by one through `Emulator.key`: a key read while a
window is open goes to the window (`key_of_prompt`), and typing characters a field accepts only
extends the field (`emulatorRun_typing`). Put together, the whole dialogue, typed with no other
action of the serial-input thread in between, is one `load_binary` of the file the typed path
names, at the typed address, whatever the file holds: on success the path and the address are
recorded for the next reset, on failure the failure window opens, and a nonempty image always
loads (`loadDialog_loads`).

## Main definitions

* `loadDialogKeys`: F3, a path, Enter, an address, Enter

## Main results

* `emulatorRun_typing`: characters typed into a field only extend it
* `loadDialog_loads`: the dialogue loads the typed file at the typed address
-/

namespace Mos6502

namespace Emulator

variable {files : List Byte → Option (List Byte)} {s : Emulator}

/-- A key read while a window is open goes to the window, and what it asks is carried out. -/
theorem key_of_prompt (hw : s.control.key = .idle ∧ s.pending = []) {p : Prompt}
    (hp : s.prompt = some p) (k : Nat) :
    s.key files k = s.request files (promptKey p k).1 (promptKey p k).2 := by
  simp only [Emulator.key, if_pos hw, hp]

/-- **Typing into a field.** In a window whose field `mk` accepts the characters typed, within its
room, the keys only extend the field: nothing else of the emulator changes. -/
theorem emulatorRun_typing {mk : List Byte → Prompt} {accept : Nat → Bool} {cap : Nat}
    (hkey : ∀ (input : List Byte) (b : Byte), accept b.toNat → input.length < cap →
      promptKey (mk input) b.toNat = (some (mk (input ++ [b])), .none))
    (hw : s.control.key = .idle ∧ s.pending = []) {input : List Byte}
    (hp : s.prompt = some (mk input)) (bs : List Byte) (hbs : ∀ b ∈ bs, accept b.toNat)
    (hlen : input.length + bs.length ≤ cap) :
    emulatorRun files s (bs.map fun b => .key b.toNat) = { s with prompt := some (mk (input ++ bs)) } := by
  induction bs generalizing s input with
  | nil => rw [List.append_nil, ← hp]; rfl
  | cons b bs ih =>
    rw [List.forall_mem_cons] at hbs
    rw [List.length_cons] at hlen
    rw [List.map_cons, emulatorRun_cons]
    have hstep : emulatorStep files s (.key b.toNat) = { s with prompt := some (mk (input ++ [b])) } := by
      rw [emulatorStep, key_of_prompt hw hp, hkey input b hbs.1 (by omega)]
      rfl
    rw [hstep, ih (s := { s with prompt := some (mk (input ++ [b])) }) hw rfl hbs.2
      (by rw [List.length_append, List.length_singleton]; omega), List.append_assoc]
    rfl

end Emulator

/-- The keys of the dialogue: F3, the path, Enter, the address, Enter. -/
def loadDialogKeys (path address : List Byte) (enter₁ enter₂ : Nat) : List EmulatorEvent :=
  .key (keyF 3) :: (path.map (fun b => .key b.toNat) ++
    .key enter₁ :: (address.map (fun b => .key b.toNat) ++ [.key enter₂]))

/-- **The load dialogue loads the typed file at the typed address.** From the main loop with no
handler or Enter pending, whatever the files hold, F3, a nonempty printable path of at most 255
characters, Enter, at most 15 hex digits and Enter are one `load_binary` of the file the path names
at the address the digits spell, `0xC000` for no digit, carried out as the window's request: on
success the window closes and the path and the address become those a reset reloads, on failure
the failure window opens. When the file is a nonempty image the load succeeds: it resets the
machine at that address with the image loaded. -/
theorem loadDialog_loads (files : List Byte → Option (List Byte)) {s : Emulator}
    (hw : s.control.key = .idle ∧ s.pending = []) (hp : s.prompt = none) {path address : List Byte}
    (hpath : Printable path) (hne : path ≠ []) (hplen : path.length ≤ 255)
    (haddr : ∀ b ∈ address, isXDigit b.toNat) (halen : address.length ≤ 15) {enter₁ enter₂ : Nat}
    (h₁ : isEnterKey enter₁) (h₂ : isEnterKey enter₂) :
    emulatorRun files s (loadDialogKeys path address enter₁ enter₂) =
        s.request files none (.loadBinary path
          (if address = [] then 0xC000 else BitVec.ofNat 16 (hexValue address))) ∧
      ∀ image, files path = some image → image ≠ [] →
        emulatorRun files s (loadDialogKeys path address enter₁ enter₂) =
          { s with host := { s.host with cpu := (loadBinary s.host.cpu (some image)
                     (if address = [] then 0xC000 else BitVec.ofNat 16 (hexValue address))).2 },
                   prompt := none, binaryPath := path,
                   loadAddress := if address = [] then 0xC000 else BitVec.ofNat 16 (hexValue address) } ∧
        Reloaded s.host.cpu (loadBinary s.host.cpu (some image)
            (if address = [] then 0xC000 else BitVec.ofNat 16 (hexValue address))).2
          (if address = [] then 0xC000 else BitVec.ofNat 16 (hexValue address)) image := by
  have haddress : (scanHex address).getD 0xC000 =
      if address = [] then 0xC000 else BitVec.ofNat 16 (hexValue address) := by
    split_ifs with h
    · subst h; rfl
    · rw [scanHex_of_xdigits haddr h]; rfl
  have hopen : emulatorStep files s (.key (keyF 3)) = { s with prompt := some (.loadPath []) } := by
    simp [emulatorStep, Emulator.key, hw, hp, Emulator.mainKey, Emulator.openPrompt, keyF]
  have hpathKey : ∀ (input : List Byte) (b : Byte), isPrint b.toNat → input.length < 255 →
      promptKey (.loadPath input) b.toNat = (some (.loadPath (input ++ [b])), .none) :=
    fun input b hb hroom => by
      simp only [promptKey, loadPathKey, fieldKey_of_accept (fun _ h => h) hb hroom]
  have haddrKey : ∀ (input : List Byte) (b : Byte), isXDigit b.toNat → input.length < 15 →
      promptKey (.loadAddress path input) b.toNat = (some (.loadAddress path (input ++ [b])), .none) :=
    fun input b hb hroom => by
      simp only [promptKey, loadAddressKey,
        fieldKey_of_accept (fun _ => isPrint_of_isXDigit) hb hroom]
  have hpathRun : emulatorRun files { s with prompt := some (.loadPath []) }
      (path.map fun b => .key b.toNat) = { s with prompt := some (.loadPath path) } :=
    Emulator.emulatorRun_typing (s := { s with prompt := some (.loadPath []) }) hpathKey hw rfl
      path hpath (by simpa using hplen)
  have henter₁ : emulatorStep files { s with prompt := some (.loadPath path) } (.key enter₁) =
      { s with prompt := some (.loadAddress path []) } := by
    rw [emulatorStep, Emulator.key_of_prompt (s := { s with prompt := some (.loadPath path) }) hw rfl]
    simp [promptKey, loadPathKey, fieldKey_enter h₁, hne, Emulator.request]
  have haddrRun : emulatorRun files { s with prompt := some (.loadAddress path []) }
      (address.map fun b => .key b.toNat) = { s with prompt := some (.loadAddress path address) } :=
    Emulator.emulatorRun_typing (s := { s with prompt := some (.loadAddress path []) }) haddrKey hw
      rfl address haddr (by simpa using halen)
  have hrun : emulatorRun files s (loadDialogKeys path address enter₁ enter₂) =
      s.request files none (.loadBinary path
        (if address = [] then 0xC000 else BitVec.ofNat 16 (hexValue address))) := by
    rw [loadDialogKeys, emulatorRun_cons, hopen, emulatorRun_append, hpathRun, emulatorRun_cons,
      henter₁, emulatorRun_append, haddrRun, emulatorRun_cons, emulatorRun, List.foldl_nil,
      emulatorStep, Emulator.key_of_prompt (s := { s with prompt := some (.loadAddress path address) })
        hw rfl]
    simp only [promptKey, loadAddressKey, fieldKey_enter h₂, haddress, Emulator.request]
  refine ⟨hrun, fun image himage hine => ?_⟩
  obtain ⟨hok, hreloaded⟩ := loadBinary_of_ne_nil s.host.cpu image
    (if address = [] then 0xC000 else BitVec.ofNat 16 (hexValue address)) hine
  refine ⟨?_, hreloaded⟩
  simp only [hrun, Emulator.request, himage, hok, if_true]

/-- F3, `A`, Enter, `1`, Enter from the start, every file a one-byte image. -/
theorem load_dialog_a_at_1 :
    (((Emulator.start (Cpu.initial .monitoredRam fun _ => 0)).control.key = .idle ∧
        (Emulator.start (Cpu.initial .monitoredRam fun _ => 0)).pending = []) ∧
      (Emulator.start (Cpu.initial .monitoredRam fun _ => 0)).prompt = none ∧
      Printable [0x41] ∧ ([0x41] : List Byte) ≠ [] ∧ [0x41].length ≤ 255 ∧
      (∀ b ∈ ([0x31] : List Byte), isXDigit b.toNat) ∧ [0x31].length ≤ 15 ∧
      isEnterKey 13 ∧ isEnterKey 13) ∧
    (emulatorRun (fun _ => some [0xEA]) (Emulator.start (Cpu.initial .monitoredRam fun _ => 0))
        (loadDialogKeys [0x41] [0x31] 13 13) =
      (Emulator.start (Cpu.initial .monitoredRam fun _ => 0)).request (fun _ => some [0xEA]) none
        (.loadBinary [0x41]
          (if ([0x31] : List Byte) = [] then 0xC000 else BitVec.ofNat 16 (hexValue [0x31])))) ∧
    ((fun _ => some [0xEA] : List Byte → Option (List Byte)) [0x41] = some [0xEA] ∧
      ([0xEA] : List Byte) ≠ [] ∧
      emulatorRun (fun _ => some [0xEA]) (Emulator.start (Cpu.initial .monitoredRam fun _ => 0))
          (loadDialogKeys [0x41] [0x31] 13 13) =
        { Emulator.start (Cpu.initial .monitoredRam fun _ => 0) with
          host := { (Emulator.start (Cpu.initial .monitoredRam fun _ => 0)).host with
            cpu := (loadBinary (Emulator.start (Cpu.initial .monitoredRam fun _ => 0)).host.cpu
              (some [0xEA])
              (if ([0x31] : List Byte) = [] then 0xC000 else BitVec.ofNat 16 (hexValue [0x31]))).2 },
          prompt := none, binaryPath := [0x41],
          loadAddress :=
            if ([0x31] : List Byte) = [] then 0xC000 else BitVec.ofNat 16 (hexValue [0x31]) } ∧
      Reloaded (Emulator.start (Cpu.initial .monitoredRam fun _ => 0)).host.cpu
        (loadBinary (Emulator.start (Cpu.initial .monitoredRam fun _ => 0)).host.cpu (some [0xEA])
          (if ([0x31] : List Byte) = [] then 0xC000 else BitVec.ofNat 16 (hexValue [0x31]))).2
        (if ([0x31] : List Byte) = [] then 0xC000 else BitVec.ofNat 16 (hexValue [0x31])) [0xEA]) :=
  ⟨⟨⟨rfl, rfl⟩, rfl, by decide, List.cons_ne_nil _ _, by decide, by decide, by decide, rfl, rfl⟩,
    (@loadDialog_loads (fun _ => some [0xEA]) (Emulator.start (Cpu.initial .monitoredRam fun _ => 0))
      ⟨rfl, rfl⟩ rfl [0x41] [0x31] (by decide) (List.cons_ne_nil _ _) (by decide) (by decide)
      (by decide) 13 13 rfl rfl).1,
    rfl, List.cons_ne_nil _ _,
    (@loadDialog_loads (fun _ => some [0xEA]) (Emulator.start (Cpu.initial .monitoredRam fun _ => 0))
      ⟨rfl, rfl⟩ rfl [0x41] [0x31] (by decide) (List.cons_ne_nil _ _) (by decide) (by decide)
      (by decide) 13 13 rfl rfl).2 [0xEA] rfl (List.cons_ne_nil _ _)⟩

end Mos6502
