import Mos6502.Cpu.State

/-!
# Addressing modes

Each `addr_*` function of `cpu_6502.c` fetches the operand bytes that follow the opcode, moving
`PC` past them, and returns an `effective_address_t`: the address the instruction works on and
whether indexing crossed a page. The indirect modes read their pointer through `cpu_read` too.
All address arithmetic wraps modulo `0x10000`, and the zero-page modes wrap within page zero.

An addressing mode reads and moves `PC`, and does nothing else: it leaves the core of the state
(`AddrMode.run_toCpuCore`) as it was, and moves `PC` by its operand length (`AddrMode.run_PC`).

## Main definitions

* `EffectiveAddress`: `effective_address_t`
* `addrImmediate`, ..., `addrRelative`: the eleven `addr_*` functions
* `AddrMode`: the table's `addressing_mode_func_t` values, and `AddrMode.run`

## Main results

* `AddrMode.run_toCpuCore`, `AddrMode.run_PC`: the frame of an addressing mode
-/

namespace Mos6502

/-- `effective_address_t`. -/
structure EffectiveAddress where
  address : Word
  pageCrossed : Bool

/-- `addr_immediate`: the operand byte itself, at the old `PC`. -/
def addrImmediate (c : Cpu) : EffectiveAddress × Cpu :=
  (⟨c.PC, false⟩, { c with PC := c.PC + 1 })

/-- `addr_zero_page`. -/
def addrZeroPage (c : Cpu) : EffectiveAddress × Cpu :=
  let op := fetchByte c
  (⟨op.1.setWidth 16, false⟩, op.2)

/-- `addr_zero_page_x`: `(op + X) & 0xFF`. -/
def addrZeroPageX (c : Cpu) : EffectiveAddress × Cpu :=
  let op := fetchByte c
  (⟨(op.1 + c.X).setWidth 16, false⟩, op.2)

/-- `addr_zero_page_y`: `(op + Y) & 0xFF`. -/
def addrZeroPageY (c : Cpu) : EffectiveAddress × Cpu :=
  let op := fetchByte c
  (⟨(op.1 + c.Y).setWidth 16, false⟩, op.2)

/-- `addr_absolute`. -/
def addrAbsolute (c : Cpu) : EffectiveAddress × Cpu :=
  let op := fetchWord c
  (⟨op.1, false⟩, op.2)

/-- Whether two addresses lie in different pages: `(a & 0xFF00) != (b & 0xFF00)`. -/
def pageDiffers (a b : Word) : Bool := a &&& 0xFF00#16 != b &&& 0xFF00#16

/-- `addr_absolute_x`. -/
def addrAbsoluteX (c : Cpu) : EffectiveAddress × Cpu :=
  let base := fetchWord c
  let ea := base.1 + c.X.setWidth 16
  (⟨ea, pageDiffers base.1 ea⟩, base.2)

/-- `addr_absolute_y`. -/
def addrAbsoluteY (c : Cpu) : EffectiveAddress × Cpu :=
  let base := fetchWord c
  let ea := base.1 + c.Y.setWidth 16
  (⟨ea, pageDiffers base.1 ea⟩, base.2)

/-- `addr_indirect` (JMP): the pointer's high byte is read within the pointer's page, the
6502's page-wrap bug. -/
def addrIndirect (c : Cpu) : EffectiveAddress × Cpu :=
  let ptr := fetchWord c
  let low := cpuRead ptr.2 ptr.1
  let high := cpuRead low.2 ((ptr.1 &&& 0xFF00#16) ||| ((ptr.1 + 1) &&& 0x00FF#16))
  (⟨toWord low.1 high.1, false⟩, high.2)

/-- `addr_indirect_x`: a pointer in page zero at `(op + X) & 0xFF`, its high byte at
`(base + 1) & 0xFF`. -/
def addrIndirectX (c : Cpu) : EffectiveAddress × Cpu :=
  let op := fetchByte c
  let base := op.1 + c.X
  let low := cpuRead op.2 (base.setWidth 16)
  let high := cpuRead low.2 ((base + 1).setWidth 16)
  (⟨toWord low.1 high.1, false⟩, high.2)

/-- `addr_indirect_y`: a pointer in page zero at `op`, plus `Y`. -/
def addrIndirectY (c : Cpu) : EffectiveAddress × Cpu :=
  let op := fetchByte c
  let low := cpuRead op.2 (op.1.setWidth 16)
  let high := cpuRead low.2 ((op.1 + 1).setWidth 16)
  let base := toWord low.1 high.1
  let ea := base + c.Y.setWidth 16
  (⟨ea, pageDiffers base ea⟩, high.2)

/-- `addr_relative`: the signed offset `(int8_t)op` added to the `PC` after the operand. -/
def addrRelative (c : Cpu) : EffectiveAddress × Cpu :=
  let op := fetchByte c
  let ea := op.2.PC + op.1.signExtend 16
  (⟨ea, pageDiffers op.2.PC ea⟩, op.2)

/-- The addressing-mode functions the opcode table names. -/
inductive AddrMode
  | immediate | zeroPage | zeroPageX | zeroPageY | absolute | absoluteX | absoluteY
  | indirect | indirectX | indirectY | relative
  deriving DecidableEq, Repr

namespace AddrMode

/-- Calling the addressing-mode function. -/
def run : AddrMode → Cpu → EffectiveAddress × Cpu
  | immediate => addrImmediate
  | zeroPage => addrZeroPage
  | zeroPageX => addrZeroPageX
  | zeroPageY => addrZeroPageY
  | absolute => addrAbsolute
  | absoluteX => addrAbsoluteX
  | absoluteY => addrAbsoluteY
  | indirect => addrIndirect
  | indirectX => addrIndirectX
  | indirectY => addrIndirectY
  | relative => addrRelative

/-- The number of operand bytes the mode fetches. -/
def operandLength : AddrMode → Nat
  | absolute | absoluteX | absoluteY | indirect => 2
  | _ => 1

/-- **Frame of an addressing mode**: it changes nothing in the core of the state. -/
@[simp] theorem run_toCpuCore (m : AddrMode) (c : Cpu) : (m.run c).2.toCpuCore = c.toCpuCore := by
  cases m <;> simp [run, addrImmediate, addrZeroPage, addrZeroPageX, addrZeroPageY, addrAbsolute,
    addrAbsoluteX, addrAbsoluteY, addrIndirect, addrIndirectX, addrIndirectY, addrRelative]

/-- An addressing mode moves `PC` past its operand bytes. -/
@[simp] theorem run_PC (m : AddrMode) (c : Cpu) :
    (m.run c).2.PC = c.PC + BitVec.ofNat 16 m.operandLength := by
  cases m <;> simp [run, operandLength, addrImmediate, addrZeroPage, addrZeroPageX, addrZeroPageY,
    addrAbsolute, addrAbsoluteX, addrAbsoluteY, addrIndirect, addrIndirectX, addrIndirectY,
    addrRelative]

end AddrMode

/-- `mode(cpu)` inside an instruction routine; `none` stands for a null `mode`, which the routines
that take no operand never call. -/
def callMode : Option AddrMode → Cpu → EffectiveAddress × Cpu
  | some m => m.run
  | none => fun c => (⟨0, false⟩, c)

@[simp] theorem callMode_toCpuCore (m : Option AddrMode) (c : Cpu) :
    (callMode m c).2.toCpuCore = c.toCpuCore := by
  cases m <;> simp [callMode]

end Mos6502
