import Mos6502.Cpu.Effects

/-!
# Loading a program

`cpu_load_program` reads the whole file into a buffer and writes it through `cpu_write` from the
base address on, one byte after another, the address `addr + (uint16_t)i` wrapping modulo
`0x10000`. It then sets the reset vector at `0xFFFC` to the base address. It checks nothing about
the size: its only `CPU_ERROR_MEMORY_OVERFLOW` is a failed `malloc`. An image that runs past
`0xFFFF` is therefore loaded with success, its tail wrapping into page zero and the stack
(`load_program_never_overflows`).

## Main definitions

* `loadWrites`: the writes of the loop, byte `i` at `addr + i`

## Main results

* `loadBytes_afterWrites`: the loop is those writes
* `load_program_never_overflows`: every nonempty image loads with success, wrapping past `0xFFFF`
-/

namespace Mos6502

/-- The writes the loop of `cpu_load_program` makes for `image` at `addr`: byte `i` at
`addr + i`, modulo `0x10000`. -/
def loadWrites (addr : Word) (image : List Byte) : List (Word × Byte) :=
  image.mapIdx fun i b => (addr + BitVec.ofNat 16 i, b)

theorem loadWrites_cons (addr : Word) (b : Byte) (bs : List Byte) :
    loadWrites addr (b :: bs) = (addr, b) :: loadWrites (addr + 1) bs := by
  simp only [loadWrites, List.mapIdx_cons, BitVec.ofNat_eq_ofNat, BitVec.add_zero]
  congr 2
  funext i b
  congr 1
  rw [BitVec.add_assoc]
  congr 1
  apply BitVec.eq_of_toNat_eq
  simp only [BitVec.toNat_add, BitVec.toNat_ofNat]
  omega

/-- **The loop is its writes.** -/
theorem loadBytes_afterWrites (c : Cpu) (addr : Word) (image : List Byte) :
    AfterWrites c (loadBytes c addr image) (loadWrites addr image) := by
  induction image generalizing c addr with
  | nil => exact .of_eq rfl rfl rfl rfl
  | cons b bs ih =>
    rw [loadWrites_cons, ← List.singleton_append]
    exact (cpuWrite_afterWrites c addr b).trans (ih _ _)

/-- **Loading never reports an overflow.** For every base address and every nonempty image,
`cpu_load_program` returns `CPU_SUCCESS` and makes the writes of byte `i` at `addr + i` modulo
`0x10000`, then of the reset vector. -/
theorem load_program_never_overflows (c : Cpu) (image : List Byte) (addr : Word)
    (h : image ≠ []) :
    (cpuLoadProgram c (some image) addr).1 = .success ∧
      AfterWrites c (cpuLoadProgram c (some image) addr).2
        (loadWrites addr image ++
          [((0xFFFC : Word), addr.setWidth 8), ((0xFFFD : Word), (addr >>> 8).setWidth 8)]) := by
  obtain ⟨b, bs, rfl⟩ := List.exists_cons_of_ne_nil h
  have hw := ((loadBytes_afterWrites c addr (b :: bs)).trans
    (cpuWrite_afterWrites _ 0xFFFC (addr.setWidth 8))).trans
    (cpuWrite_afterWrites _ 0xFFFD ((addr >>> 8).setWidth 8))
  rw [List.append_assoc, List.singleton_append] at hw
  exact ⟨rfl, hw⟩

/-- A two-byte image at `0xFFFF` loads with success, its second byte landing at `0x0000`. -/
theorem load_program_at_0xFFFF :
    let c := Cpu.initial .ram fun _ => 0
    let r := cpuLoadProgram c (some [0xAA, 0xBB]) 0xFFFF
    ([0xAA, 0xBB] : List Byte) ≠ [] ∧
      (r.1 = .success ∧
        AfterWrites c r.2 (loadWrites 0xFFFF [0xAA, 0xBB] ++
          [((0xFFFC : Word), (0xFFFF : Word).setWidth 8),
            ((0xFFFD : Word), ((0xFFFF : Word) >>> 8).setWidth 8)])) ∧
      r.2.mem 0x0000 = 0xBB :=
  ⟨by decide, load_program_never_overflows _ _ _ (by decide), by decide⟩

end Mos6502
