import Mos6502.Cpu.Step

/-!
# The addressing modes against the specification's table

The specification gives each addressing mode as a row of a table: the number of operand bytes,
and the effective address it yields from them. `AddrMode.tableAddress` writes that table on
numbers. Every address is taken modulo `0x10000` and every zero-page pointer modulo `0x100`. The
page-cross flag of the indexed modes compares the high bytes of the base and of the result, and
that of the relative mode the high bytes of the `PC` after the operand and of the target.
`AddrMode.tableReads` lists the bytes a mode reads, operand bytes and pointer bytes alike.

For every state in which none of those bytes is the serial input port, each of the eleven
`addr_*` functions returns the table's address and flag, and leaves the state as it was but for
`PC`, moved past the operand modulo `0x10000` (`addr_modes_match_table`). The code's bit
operations are related to the table's arithmetic once each, by small lemmas: `pageDiffers_eq`
for `(a & 0xFF00) != (b & 0xFF00)`, `toNat_indirectHigh` for the page wrap of `JMP ($xxFF)`, and
`toNat_add_signExtend` for the `(int8_t)` offset of a branch.

## Main definitions

* `AddrMode.tableAddress`: the specification's table of addressing modes, on numbers
* `AddrMode.tableReads`: the bytes each mode reads

## Main results

* `addr_modes_match_table`: every addressing mode computes its row of the table
-/

namespace Mos6502

/-! ## The table -/

/-- The byte at address `a`, modulo `0x10000`, as a number. -/
def memAt (mem : Word → Byte) (a : Nat) : Nat := (mem (BitVec.ofNat 16 a)).toNat

/-- The number `op` read as a signed byte. -/
def signedByte (op : Nat) : Int := if op < 128 then op else op - 256

/-- Whether indexing from `base` to `ea` crossed a page: their high bytes differ. -/
def crossesPage (base ea : Nat) : Bool := base / 256 != ea / 256

namespace AddrMode

/-- The bytes the mode reads, from the memory, the address `pc` of its first operand byte and
`X`: its operand bytes, and the two bytes of the pointer of an indirect mode. -/
def tableReads (m : AddrMode) (mem : Nat → Nat) (pc x : Nat) : List Nat :=
  let op := mem pc
  let le := op + 256 * mem ((pc + 1) % 65536)
  match m with
  | immediate => []
  | zeroPage | zeroPageX | zeroPageY | relative => [pc]
  | absolute | absoluteX | absoluteY => [pc, (pc + 1) % 65536]
  | indirect => [pc, (pc + 1) % 65536, le, le / 256 * 256 + (le + 1) % 256]
  | indirectX => [pc, (op + x) % 256, (op + x + 1) % 256]
  | indirectY => [pc, op, (op + 1) % 256]

/-- The specification's table of addressing modes: the effective address and whether indexing
crossed a page, from the memory, the address `pc` of the first operand byte, `X` and `Y`. `le` is
the little-endian word of the operand bytes. -/
def tableAddress (m : AddrMode) (mem : Nat → Nat) (pc x y : Nat) : Nat × Bool :=
  let op := mem pc
  let le := op + 256 * mem ((pc + 1) % 65536)
  let indexed (base i : Nat) := ((base + i) % 65536, crossesPage base ((base + i) % 65536))
  match m with
  | immediate => (pc, false)
  | zeroPage => (op, false)
  | zeroPageX => ((op + x) % 256, false)
  | zeroPageY => ((op + y) % 256, false)
  | absolute => (le, false)
  | absoluteX => indexed le x
  | absoluteY => indexed le y
  | indirect => (mem le + 256 * mem (le / 256 * 256 + (le + 1) % 256), false)
  | indirectX => (mem ((op + x) % 256) + 256 * mem ((op + x + 1) % 256), false)
  | indirectY => indexed (mem op + 256 * mem ((op + 1) % 256)) y
  | relative =>
    let next := (pc + 1) % 65536
    let ea := ((next + signedByte op) % 65536).toNat
    (ea, crossesPage next ea)

end AddrMode

/-! ## Bits and numbers

Each bit operation of the code on an address, as arithmetic on its number. -/

theorem toNat_setWidth_byte (a : Byte) : (a.setWidth 16).toNat = a.toNat := by
  have := a.isLt
  rw [BitVec.toNat_setWidth, Nat.mod_eq_of_lt (by omega)]

/-- `(uint8_t)(a + b)` widened to an address: the sum modulo `0x100`. -/
theorem toNat_setWidth_add (a b : Byte) :
    ((a + b).setWidth 16).toNat = (a.toNat + b.toNat) % 256 := by
  simp only [BitVec.toNat_setWidth, BitVec.toNat_add]
  omega

theorem toNat_add_setWidth (w : Word) (b : Byte) :
    (w + b.setWidth 16).toNat = (w.toNat + b.toNat) % 65536 := by
  rw [BitVec.toNat_add, toNat_setWidth_byte]

theorem ofNat_toNat_add (w : Word) (n : Nat) :
    BitVec.ofNat 16 (w.toNat + n) = w + BitVec.ofNat 16 n := by
  apply BitVec.eq_of_toNat_eq
  simp

/-- `a & 0xFF00` keeps the high byte. -/
theorem and_0xFF00_eq (a : Word) : a &&& 0xFF00#16 = a >>> 8 <<< 8 := by
  have hhi : ∀ i : Fin 16, (0xFF00#16).getLsbD i = !decide (i.val < 8) := by decide
  ext i
  simp only [BitVec.getLsbD_and, BitVec.getLsbD_shiftLeft, BitVec.getLsbD_ushiftRight, hhi]
  by_cases h8 : (i : Nat) < 8
  · simp [h8]
  · simp [h8, show 8 + ((i : Nat) - 8) = i by omega]

/-- The code's page test is the comparison of the high bytes. -/
theorem pageDiffers_eq (a b : Word) : pageDiffers a b = crossesPage a.toNat b.toNat := by
  have ha := a.isLt
  have hb := b.isLt
  rw [pageDiffers, crossesPage, and_0xFF00_eq, and_0xFF00_eq, Bool.eq_iff_iff]
  simp only [bne_iff_ne, ne_eq, BitVec.toNat_eq, BitVec.toNat_shiftLeft, BitVec.toNat_ushiftRight,
    Nat.shiftLeft_eq, Nat.shiftRight_eq_div_pow]
  omega

/-- The address of the high byte of `JMP ($xxFF)` joins the pointer's high byte to the low byte
of the pointer plus one. -/
theorem indirectHigh_eq (p : Word) :
    (p &&& 0xFF00#16) ||| ((p + (1 : Word)) &&& 0x00FF#16) =
      toWord ((p + 1).setWidth 8) ((p >>> 8).setWidth 8) := by
  have hhi : ∀ i : Fin 16, (0xFF00#16).getLsbD i = !decide (i.val < 8) := by decide
  have hlo : ∀ i : Fin 16, (0x00FF#16).getLsbD i = decide (i.val < 8) := by decide
  ext i
  simp only [toWord, BitVec.getLsbD_or, BitVec.getLsbD_and, BitVec.getLsbD_shiftLeft,
    BitVec.getLsbD_setWidth, BitVec.getLsbD_ushiftRight, hhi, hlo]
  by_cases h8 : (i : Nat) < 8
  · simp [h8]
  · simp [h8, show 8 + ((i : Nat) - 8) = i by omega, show (i : Nat) - 8 < 8 by omega,
      show (i : Nat) - 8 < 16 by omega]

theorem toNat_indirectHigh (p : Word) :
    ((p &&& 0xFF00#16) ||| ((p + (1 : Word)) &&& 0x00FF#16)).toNat =
      p.toNat / 256 * 256 + (p.toNat + 1) % 256 := by
  have := p.isLt
  rw [indirectHigh_eq, toWord_toNat]
  simp only [BitVec.toNat_setWidth, BitVec.toNat_add, BitVec.toNat_ushiftRight,
    Nat.shiftRight_eq_div_pow]
  simp
  omega

/-- The target of a branch: the `(int8_t)` offset added modulo `0x10000`. -/
theorem toNat_add_signExtend (pc : Word) (op : Byte) :
    (pc + op.signExtend 16).toNat = ((pc.toNat + signedByte op.toNat) % 65536).toNat := by
  have hop := op.isLt
  have hpc := pc.isLt
  simp only [BitVec.toNat_add, BitVec.signExtend, BitVec.toNat_ofInt, BitVec.toInt_eq_toNat_cond,
    signedByte]
  split <;> split <;> omega

theorem memAt_toNat (mem : Word → Byte) (a : Word) : memAt mem a.toNat = (mem a).toNat := by
  simp [memAt]

/-! ## Operand fetches away from the input port -/

theorem ne_inputAddr {w : Word} {n : Nat} (hw : w.toNat = n) (h : 0xD011 ≠ n) : w ≠ inputAddr :=
  fun e => h (hw ▸ e ▸ rfl)

theorem fetchByte_of_ne {c : Cpu} (h : c.PC ≠ inputAddr) :
    fetchByte c = (c.mem c.PC, { c with PC := c.PC + 1 }) := by
  simp [fetchByte, cpuRead_of_ne h]

theorem fetchWord_of_ne {c : Cpu} (h₀ : c.PC ≠ inputAddr) (h₁ : c.PC + 1 ≠ inputAddr) :
    fetchWord c = (toWord (c.mem c.PC) (c.mem (c.PC + 1)), { c with PC := c.PC + 2 }) := by
  rw [fetchWord, fetchByte_of_ne h₀, fetchByte_of_ne (c := { c with PC := c.PC + 1 }) h₁]
  simp [BitVec.add_assoc]

/-- Moving `PC` by `n` is setting it to the number `PC + n`, modulo `0x10000`. -/
theorem withPC_add (c : Cpu) (n : Nat) :
    { c with PC := c.PC + BitVec.ofNat 16 n } =
      { c with PC := BitVec.ofNat 16 (c.PC.toNat + n) } := by
  rw [ofNat_toNat_add]

/-! ## Every mode computes its row -/

/-- **The addressing modes follow the table.** For every state and every addressing mode, if
none of the bytes the mode reads is the serial input port `0xD011`, the mode returns the
table's effective address and page-cross flag, and changes nothing but `PC`, which moves past the
operand modulo `0x10000`. -/
theorem addr_modes_match_table (m : AddrMode) (c : Cpu)
    (h : 0xD011 ∉ m.tableReads (memAt c.mem) c.PC.toNat c.X.toNat) :
    ((m.run c).1.address.toNat, (m.run c).1.pageCrossed) =
        m.tableAddress (memAt c.mem) c.PC.toNat c.X.toNat c.Y.toNat ∧
      (m.run c).2 = { c with PC := BitVec.ofNat 16 (c.PC.toNat + m.operandLength) } := by
  have hpc1 : (c.PC + 1).toNat = (c.PC.toNat + 1) % 65536 := by simp [BitVec.toNat_add]
  have hle : (toWord (c.mem c.PC) (c.mem (c.PC + 1))).toNat =
      memAt c.mem c.PC.toNat + 256 * memAt c.mem ((c.PC.toNat + 1) % 65536) := by
    rw [← hpc1, memAt_toNat, memAt_toNat, toWord_toNat]
  cases m <;>
    simp only [AddrMode.tableReads, List.mem_cons, List.not_mem_nil, or_false, not_or] at h
  case immediate => exact ⟨rfl, withPC_add c 1⟩
  case zeroPage =>
    rw [AddrMode.run, addrZeroPage, fetchByte_of_ne (ne_inputAddr rfl h)]
    exact ⟨by simp only [AddrMode.tableAddress, memAt_toNat, toNat_setWidth_byte],
      withPC_add c 1⟩
  case zeroPageX | zeroPageY =>
    simp only [AddrMode.run, addrZeroPageX, addrZeroPageY, fetchByte_of_ne (ne_inputAddr rfl h)]
    exact ⟨by simp only [AddrMode.tableAddress, memAt_toNat, toNat_setWidth_add],
      withPC_add c 1⟩
  case absolute | absoluteX | absoluteY =>
    simp only [AddrMode.run, addrAbsolute, addrAbsoluteX, addrAbsoluteY,
      fetchWord_of_ne (ne_inputAddr rfl h.1) (ne_inputAddr hpc1 h.2)]
    exact ⟨by simp only [AddrMode.tableAddress, ← hle, pageDiffers_eq, toNat_add_setWidth],
      withPC_add c 2⟩
  case indirect =>
    obtain ⟨h0, h1, h2, h3⟩ := h
    rw [← hle] at h2 h3
    rw [AddrMode.run, addrIndirect, fetchWord_of_ne (ne_inputAddr rfl h0) (ne_inputAddr hpc1 h1)]
    simp only [cpuRead_of_ne (ne_inputAddr rfl h2),
      cpuRead_of_ne (ne_inputAddr (toNat_indirectHigh _) h3)]
    refine ⟨?_, withPC_add c 2⟩
    rw [toWord_toNat]
    simp only [AddrMode.tableAddress]
    rw [← hle, ← toNat_indirectHigh, memAt_toNat, memAt_toNat]
  case indirectX =>
    obtain ⟨h0, h1, h2⟩ := h
    have hb0 := toNat_setWidth_add (c.mem c.PC) c.X
    have hb1 : ((c.mem c.PC + c.X + 1).setWidth 16).toNat =
        ((c.mem c.PC).toNat + c.X.toNat + 1) % 256 := by
      simp [BitVec.toNat_add]; omega
    rw [memAt_toNat] at h1 h2
    rw [AddrMode.run, addrIndirectX, fetchByte_of_ne (ne_inputAddr rfl h0)]
    simp only [cpuRead_of_ne (ne_inputAddr hb0 h1), cpuRead_of_ne (ne_inputAddr hb1 h2)]
    refine ⟨?_, withPC_add c 1⟩
    rw [toWord_toNat]
    simp only [AddrMode.tableAddress]
    rw [memAt_toNat, ← hb0, ← hb1, memAt_toNat, memAt_toNat]
  case indirectY =>
    obtain ⟨h0, h1, h2⟩ := h
    have hb0 := toNat_setWidth_byte (c.mem c.PC)
    have hb1 : ((c.mem c.PC + 1).setWidth 16).toNat = ((c.mem c.PC).toNat + 1) % 256 :=
      toNat_setWidth_add _ 1
    rw [memAt_toNat] at h1 h2
    rw [AddrMode.run, addrIndirectY, fetchByte_of_ne (ne_inputAddr rfl h0)]
    simp only [cpuRead_of_ne (ne_inputAddr hb0 h1), cpuRead_of_ne (ne_inputAddr hb1 h2)]
    refine ⟨?_, withPC_add c 1⟩
    rw [pageDiffers_eq, toNat_add_setWidth]
    simp only [AddrMode.tableAddress]
    rw [memAt_toNat, ← hb1, ← hb0, memAt_toNat, memAt_toNat, ← toWord_toNat]
  case relative =>
    rw [AddrMode.run, addrRelative, fetchByte_of_ne (ne_inputAddr rfl h)]
    exact ⟨by simp only [AddrMode.tableAddress, memAt_toNat, toNat_add_signExtend, pageDiffers_eq,
      hpc1],
      withPC_add c 1⟩

/-- A `JMP ($12FF)` at `0x0000` after `cpu_init` takes the high byte of its target from
`0x1200`, not from `0x1300`. -/
theorem jmp_indirect_page_wrap :
    let c := Cpu.initial .ram fun a =>
      if a = 0 then 0xFF else if a = 1 then 0x12 else if a = 0x12FF then 0x34
      else if a = 0x1200 then 0x56 else 0x78
    0xD011 ∉ AddrMode.indirect.tableReads (memAt c.mem) c.PC.toNat c.X.toNat ∧
      (((AddrMode.indirect.run c).1.address.toNat, (AddrMode.indirect.run c).1.pageCrossed) =
          AddrMode.indirect.tableAddress (memAt c.mem) c.PC.toNat c.X.toNat c.Y.toNat ∧
        (AddrMode.indirect.run c).2 =
          { c with PC := BitVec.ofNat 16 (c.PC.toNat + AddrMode.indirect.operandLength) }) ∧
      (AddrMode.indirect.run c).1.address = 0x5634 :=
  ⟨by decide, addr_modes_match_table _ _ (by decide), by decide⟩

end Mos6502
