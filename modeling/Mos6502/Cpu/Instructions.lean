import Mos6502.Cpu.Addressing

/-!
# The instruction routines

The sixty `instr_*` routines of `cpu_6502.c`. Each takes the addressing-mode function its table
entry names (null for implied and accumulator instructions), calls it when it has an operand,
and updates registers, flags, memory and the cycle counter.

Routines that differ only in the register or flag they use are one definition with parameters:
the loads, stores, transfers, register increments, logical operations, flag instructions,
memory read-modify-writes, shifts and branches. Each routine keeps its own definition under the
source's name, as the shared one applied to its own register, flag or operation. Where a member
does something its siblings do not, it keeps its own body: `instr_asl` charges a page-crossing
cycle that `instr_lsr`, `instr_rol` and `instr_ror` do not, `instr_cmp` one that `instr_cpx` and
`instr_cpy` do not, and `instr_txs` sets no flag where the other transfers do.

## Main definitions

* `Register`: `A`, `X`, `Y`, `SP` as operands of the shared routines
* `adcBinary`, `adcDecimal`, `sbcBinary`: the arithmetic of `instr_adc` and `instr_sbc`
* `instrAdc`, ..., `instrTya`: the routines
* `Instruction`, `Instruction.execute`: the routines as the opcode table names them
-/

namespace Mos6502

/-- The registers the shared routines read or write. -/
inductive Register
  | a | x | y | sp
  deriving DecidableEq, Repr

namespace Cpu

/-- The value of a register. -/
def reg (c : Cpu) : Register → Byte
  | .a => c.A
  | .x => c.X
  | .y => c.Y
  | .sp => c.SP

/-- Assigning a register. -/
def setReg (c : Cpu) : Register → Byte → Cpu
  | .a, v => { c with A := v }
  | .x, v => { c with X := v }
  | .y, v => { c with Y := v }
  | .sp, v => { c with SP := v }

/-- `get_flag` used as the number 0 or 1. -/
def flagValue (c : Cpu) (f : StatusFlag) : Byte := if c.getFlag f then 1 else 0

end Cpu

/-- `if (ea.page_crossed) cpu->clock.cycle_count += 1;` -/
def addPageCrossedCycle (ea : EffectiveAddress) (c : Cpu) : Cpu :=
  if ea.pageCrossed then c.addCycles 1 else c

/-! ## Arithmetic -/

/-- The binary branch of `instr_adc`: a 9-bit sum, carry out of bit 8, and the overflow of the
signed sum `(~(A ^ value) & (A ^ result) & 0x80) != 0`. -/
def adcBinary (value : Byte) (c : Cpu) : Cpu :=
  let sum := c.A.toNat + value.toNat + (c.getFlag .carry).toNat
  let c := c.setFlag .carry (decide (sum > 0xFF))
  let result : Byte := BitVec.ofNat 8 sum
  let c := c.setFlag .overflow (~~~(c.A ^^^ value) &&& (c.A ^^^ result) &&& 0x80#8 != 0#8)
  let c := { c with A := result }
  c.updateZeroAndNegativeFlags c.A

/-- The decimal branch of `instr_adc`, in `uint8_t` arithmetic: the low digits with the carry,
corrected by 10 with a carry into the high digits, which are corrected by 10 in turn. -/
def adcDecimal (value : Byte) (c : Cpu) : Cpu :=
  let al : Byte := (c.A &&& 0x0F#8) + (value &&& 0x0F#8) + c.flagValue .carry
  let ah : Byte := (c.A >>> 4) + (value >>> 4)
  let lowCarry := decide (al > 9#8)
  let al := if lowCarry then al - 10#8 else al
  let ah := if lowCarry then ah + 1#8 else ah
  let c := c.setFlag .carry (decide (ah > 9#8))
  let ah := if ah > 9#8 then ah - 10#8 else ah
  let c := { c with A := (ah <<< 4) ||| (al &&& 0x0F#8) }
  c.updateZeroAndNegativeFlags c.A

/-- `instr_adc`. -/
def instrAdc (mode : Option AddrMode) (c : Cpu) : Cpu :=
  let ea := callMode mode c
  let value := cpuRead ea.2 ea.1.address
  let c := value.2
  let c := if c.getFlag .decimal then adcDecimal value.1 c else adcBinary value.1 c
  addPageCrossedCycle ea.1 c

/-- The binary branch of `instr_sbc`: `diff = A - value - borrow` in `int`, stored in a
`uint16_t`; the carry is `diff < 0x100` and the overflow
`((A ^ value) & (A ^ result) & 0x80) != 0`. -/
def sbcBinary (value borrow : Byte) (c : Cpu) : Cpu :=
  let diff : Word := BitVec.ofInt 16 ((c.A.toNat : Int) - value.toNat - borrow.toNat)
  let c := c.setFlag .carry (decide (diff < 0x100#16))
  let result : Byte := (diff &&& 0xFF#16).setWidth 8
  let c := c.setFlag .overflow ((c.A ^^^ value) &&& (c.A ^^^ result) &&& 0x80#8 != 0#8)
  let c := { c with A := result }
  c.updateZeroAndNegativeFlags c.A

/-- `instr_sbc`. Its decimal branch is empty in the source ("the BCD mode implementation is
omitted"), so with `D` set only the page-crossing cycle is charged. -/
def instrSbc (mode : Option AddrMode) (c : Cpu) : Cpu :=
  let ea := callMode mode c
  let value := cpuRead ea.2 ea.1.address
  let borrow : Byte := if value.2.getFlag .carry then 0 else 1
  let c := value.2
  let c := if c.getFlag .decimal then c else sbcBinary value.1 borrow c
  addPageCrossedCycle ea.1 c

/-! ## Loads, stores, transfers and register steps -/

/-- The loads `instr_lda`, `instr_ldx`, `instr_ldy`. -/
def instrLoad (r : Register) (mode : Option AddrMode) (c : Cpu) : Cpu :=
  let ea := callMode mode c
  let value := cpuRead ea.2 ea.1.address
  let c := value.2.setReg r value.1
  let c := c.updateZeroAndNegativeFlags value.1
  addPageCrossedCycle ea.1 c

/-- `instr_lda`. -/
def instrLda : Option AddrMode → Cpu → Cpu := instrLoad .a

/-- `instr_ldx`. -/
def instrLdx : Option AddrMode → Cpu → Cpu := instrLoad .x

/-- `instr_ldy`. -/
def instrLdy : Option AddrMode → Cpu → Cpu := instrLoad .y

/-- The stores `instr_sta`, `instr_stx`, `instr_sty`. -/
def instrStore (r : Register) (mode : Option AddrMode) (c : Cpu) : Cpu :=
  let ea := callMode mode c
  cpuWrite ea.2 ea.1.address (c.reg r)

/-- `instr_sta`. -/
def instrSta : Option AddrMode → Cpu → Cpu := instrStore .a

/-- `instr_stx`. -/
def instrStx : Option AddrMode → Cpu → Cpu := instrStore .x

/-- `instr_sty`. -/
def instrSty : Option AddrMode → Cpu → Cpu := instrStore .y

/-- The transfers `instr_tax`, `instr_tay`, `instr_tsx`, `instr_txa`, `instr_tya`: copy and set
`Z` and `N` from the copy. -/
def instrTransfer (src dst : Register) (_mode : Option AddrMode) (c : Cpu) : Cpu :=
  (c.setReg dst (c.reg src)).updateZeroAndNegativeFlags (c.reg src)

/-- `instr_tax`. -/
def instrTax : Option AddrMode → Cpu → Cpu := instrTransfer .a .x

/-- `instr_tay`. -/
def instrTay : Option AddrMode → Cpu → Cpu := instrTransfer .a .y

/-- `instr_tsx`. -/
def instrTsx : Option AddrMode → Cpu → Cpu := instrTransfer .sp .x

/-- `instr_txa`. -/
def instrTxa : Option AddrMode → Cpu → Cpu := instrTransfer .x .a

/-- `instr_tya`. -/
def instrTya : Option AddrMode → Cpu → Cpu := instrTransfer .y .a

/-- `instr_txs`: the one transfer that sets no flag. -/
def instrTxs (_mode : Option AddrMode) (c : Cpu) : Cpu := { c with SP := c.X }

/-- The register steps `instr_inx`, `instr_iny`, `instr_dex`, `instr_dey`. -/
def instrStepRegister (r : Register) (delta : Byte) (_mode : Option AddrMode) (c : Cpu) : Cpu :=
  (c.setReg r (c.reg r + delta)).updateZeroAndNegativeFlags (c.reg r + delta)

/-- `instr_inx`. -/
def instrInx : Option AddrMode → Cpu → Cpu := instrStepRegister .x 1

/-- `instr_iny`. -/
def instrIny : Option AddrMode → Cpu → Cpu := instrStepRegister .y 1

/-- `instr_dex`: `X--` wraps, so it adds `0xFF`. -/
def instrDex : Option AddrMode → Cpu → Cpu := instrStepRegister .x 0xFF

/-- `instr_dey`. -/
def instrDey : Option AddrMode → Cpu → Cpu := instrStepRegister .y 0xFF

/-! ## Logic and compares -/

/-- The logical operations `instr_and`, `instr_eor`, `instr_ora` on `A`. -/
def instrLogical (op : Byte → Byte → Byte) (mode : Option AddrMode) (c : Cpu) : Cpu :=
  let ea := callMode mode c
  let value := cpuRead ea.2 ea.1.address
  let c := { value.2 with A := op value.2.A value.1 }
  let c := c.updateZeroAndNegativeFlags c.A
  addPageCrossedCycle ea.1 c

/-- `instr_and`. -/
def instrAnd : Option AddrMode → Cpu → Cpu := instrLogical (· &&& ·)

/-- `instr_eor`. -/
def instrEor : Option AddrMode → Cpu → Cpu := instrLogical (· ^^^ ·)

/-- `instr_ora`. -/
def instrOra : Option AddrMode → Cpu → Cpu := instrLogical (· ||| ·)

/-- The compares `instr_cpx`, `instr_cpy`: `C = reg >= value`, then `Z`, `N` of `reg - value`. -/
def instrCompare (r : Register) (mode : Option AddrMode) (c : Cpu) : Cpu :=
  let ea := callMode mode c
  let value := cpuRead ea.2 ea.1.address
  let c := value.2.setFlag .carry (decide (c.reg r ≥ value.1))
  c.updateZeroAndNegativeFlags (c.reg r - value.1)

/-- `instr_cmp`: the compare of `A`, which alone charges a page-crossing cycle. -/
def instrCmp (mode : Option AddrMode) (c : Cpu) : Cpu :=
  let ea := callMode mode c
  let value := cpuRead ea.2 ea.1.address
  let c := value.2.setFlag .carry (decide (c.A ≥ value.1))
  let c := c.updateZeroAndNegativeFlags (c.A - value.1)
  addPageCrossedCycle ea.1 c

/-- `instr_cpx`. -/
def instrCpx : Option AddrMode → Cpu → Cpu := instrCompare .x

/-- `instr_cpy`. -/
def instrCpy : Option AddrMode → Cpu → Cpu := instrCompare .y

/-- `instr_bit`: `Z` from `A & value`, `V` and `N` from bits 6 and 7 of `value`. -/
def instrBit (mode : Option AddrMode) (c : Cpu) : Cpu :=
  let ea := callMode mode c
  let value := cpuRead ea.2 ea.1.address
  let c := value.2.setFlag .zero (c.A &&& value.1 == 0#8)
  let c := c.setFlag .overflow (value.1 &&& 0x40#8 != 0#8)
  c.setFlag .negative (value.1 &&& 0x80#8 != 0#8)

/-! ## Read-modify-write -/

/-- `instr_inc`, `instr_dec`: read, step, write back, set `Z` and `N`. -/
def instrStepMemory (delta : Byte) (mode : Option AddrMode) (c : Cpu) : Cpu :=
  let ea := callMode mode c
  let value := cpuRead ea.2 ea.1.address
  let c := cpuWrite value.2 ea.1.address (value.1 + delta)
  c.updateZeroAndNegativeFlags (value.1 + delta)

/-- `instr_inc`. -/
def instrInc : Option AddrMode → Cpu → Cpu := instrStepMemory 1

/-- `instr_dec`. -/
def instrDec : Option AddrMode → Cpu → Cpu := instrStepMemory 0xFF

/-- The shift and rotate steps: from the carry in and the value, the carry out and the result. -/
def aslOp (_carryIn : Bool) (v : Byte) : Bool × Byte := (v &&& 0x80#8 != 0#8, v <<< 1)

/-- `LSR`'s step. -/
def lsrOp (_carryIn : Bool) (v : Byte) : Bool × Byte := (v &&& 0x01#8 != 0#8, v >>> 1)

/-- `ROL`'s step: `(value << 1) | carry_in`. -/
def rolOp (carryIn : Bool) (v : Byte) : Bool × Byte :=
  (v &&& 0x80#8 != 0#8, (v <<< 1) ||| (if carryIn then 1#8 else 0#8))

/-- `ROR`'s step: `(value >> 1) | (carry_in << 7)`. -/
def rorOp (carryIn : Bool) (v : Byte) : Bool × Byte :=
  (v &&& 0x01#8 != 0#8, (v >>> 1) ||| (if carryIn then 0x80#8 else 0#8))

/-- The memory shifts `instr_lsr`, `instr_rol`, `instr_ror`: read, shift through the carry,
write back, set `Z` and `N`. -/
def instrShiftMemory (op : Bool → Byte → Bool × Byte) (mode : Option AddrMode) (c : Cpu) : Cpu :=
  let ea := callMode mode c
  let value := cpuRead ea.2 ea.1.address
  let r := op (value.2.getFlag .carry) value.1
  let c := value.2.setFlag .carry r.1
  let c := cpuWrite c ea.1.address r.2
  c.updateZeroAndNegativeFlags r.2

/-- `instr_asl`: a memory shift that also charges a page-crossing cycle. -/
def instrAsl (mode : Option AddrMode) (c : Cpu) : Cpu :=
  let ea := callMode mode c
  let value := cpuRead ea.2 ea.1.address
  let r := aslOp (value.2.getFlag .carry) value.1
  let c := value.2.setFlag .carry r.1
  let c := cpuWrite c ea.1.address r.2
  let c := c.updateZeroAndNegativeFlags r.2
  addPageCrossedCycle ea.1 c

/-- `instr_lsr`. -/
def instrLsr : Option AddrMode → Cpu → Cpu := instrShiftMemory lsrOp

/-- `instr_rol`. -/
def instrRol : Option AddrMode → Cpu → Cpu := instrShiftMemory rolOp

/-- `instr_ror`. -/
def instrRor : Option AddrMode → Cpu → Cpu := instrShiftMemory rorOp

/-- The accumulator shifts `instr_asl_accumulator`, ..., `instr_ror_accumulator`. -/
def instrShiftAccumulator (op : Bool → Byte → Bool × Byte) (_mode : Option AddrMode) (c : Cpu) :
    Cpu :=
  let r := op (c.getFlag .carry) c.A
  let c := { c.setFlag .carry r.1 with A := r.2 }
  c.updateZeroAndNegativeFlags c.A

/-- `instr_asl_accumulator`. -/
def instrAslAccumulator : Option AddrMode → Cpu → Cpu := instrShiftAccumulator aslOp

/-- `instr_lsr_accumulator`. -/
def instrLsrAccumulator : Option AddrMode → Cpu → Cpu := instrShiftAccumulator lsrOp

/-- `instr_rol_accumulator`. -/
def instrRolAccumulator : Option AddrMode → Cpu → Cpu := instrShiftAccumulator rolOp

/-- `instr_ror_accumulator`. -/
def instrRorAccumulator : Option AddrMode → Cpu → Cpu := instrShiftAccumulator rorOp

/-! ## Control flow and the stack -/

/-- The branches: when the flag has the value the branch asks for, jump to the relative target,
one more cycle, and one more again when the target is in another page. (`instr_bne` charges the
cycles before assigning `PC`, the others after; the fields are distinct, so it is the same.) -/
def instrBranch (f : StatusFlag) (taken : Bool) (mode : Option AddrMode) (c : Cpu) : Cpu :=
  let ea := callMode mode c
  let c := ea.2
  if c.getFlag f = taken then
    let c := { c with PC := ea.1.address }.addCycles 1
    addPageCrossedCycle ea.1 c
  else c

/-- `instr_bcc`. -/
def instrBcc : Option AddrMode → Cpu → Cpu := instrBranch .carry false

/-- `instr_bcs`. -/
def instrBcs : Option AddrMode → Cpu → Cpu := instrBranch .carry true

/-- `instr_beq`. -/
def instrBeq : Option AddrMode → Cpu → Cpu := instrBranch .zero true

/-- `instr_bne`. -/
def instrBne : Option AddrMode → Cpu → Cpu := instrBranch .zero false

/-- `instr_bmi`. -/
def instrBmi : Option AddrMode → Cpu → Cpu := instrBranch .negative true

/-- `instr_bpl`. -/
def instrBpl : Option AddrMode → Cpu → Cpu := instrBranch .negative false

/-- `instr_bvc`. -/
def instrBvc : Option AddrMode → Cpu → Cpu := instrBranch .overflow false

/-- `instr_bvs`. -/
def instrBvs : Option AddrMode → Cpu → Cpu := instrBranch .overflow true

/-- The flag instructions `instr_clc`, ..., `instr_sei`. -/
def instrSetFlag (f : StatusFlag) (v : Bool) (_mode : Option AddrMode) (c : Cpu) : Cpu :=
  c.setFlag f v

/-- `instr_clc`. -/
def instrClc : Option AddrMode → Cpu → Cpu := instrSetFlag .carry false

/-- `instr_cld`. -/
def instrCld : Option AddrMode → Cpu → Cpu := instrSetFlag .decimal false

/-- `instr_cli`. -/
def instrCli : Option AddrMode → Cpu → Cpu := instrSetFlag .interrupt false

/-- `instr_clv`. -/
def instrClv : Option AddrMode → Cpu → Cpu := instrSetFlag .overflow false

/-- `instr_sec`. -/
def instrSec : Option AddrMode → Cpu → Cpu := instrSetFlag .carry true

/-- `instr_sed`. -/
def instrSed : Option AddrMode → Cpu → Cpu := instrSetFlag .decimal true

/-- `instr_sei`. -/
def instrSei : Option AddrMode → Cpu → Cpu := instrSetFlag .interrupt true

/-- `instr_jmp`. -/
def instrJmp (mode : Option AddrMode) (c : Cpu) : Cpu :=
  let ea := callMode mode c
  { ea.2 with PC := ea.1.address }

/-- `instr_jsr`: push `PC - 1`, the address of the operand's last byte, then jump. -/
def instrJsr (mode : Option AddrMode) (c : Cpu) : Cpu :=
  let ea := callMode mode c
  let c := pushWord ea.2 (ea.2.PC - 1)
  { c with PC := ea.1.address }

/-- `instr_rts`: pull the return address and step past it. -/
def instrRts (_mode : Option AddrMode) (c : Cpu) : Cpu :=
  let pc := pullWord c
  { pc.2 with PC := pc.1 + 1 }

/-- `cpu_read(cpu, addr) | (cpu_read(cpu, addr + 1) << 8)`, a little-endian vector. C leaves the
order of the two reads open; the vectors lie away from the serial input, so it does not
matter. -/
def readVector (c : Cpu) (addr : Word) : Word × Cpu :=
  let low := cpuRead c addr
  let high := cpuRead low.2 (addr + 1)
  (toWord low.1 high.1, high.2)

theorem readVector_of_ne {c : Cpu} {addr : Word} (h₀ : addr ≠ inputAddr) (h₁ : addr + 1 ≠ inputAddr) :
    readVector c addr = (toWord (c.mem addr) (c.mem (addr + 1)), c) := by
  unfold readVector
  rw [cpuRead_of_ne h₀]
  dsimp only
  rw [cpuRead_of_ne h₁]

/-- `instr_brk`: skip the padding byte, push `PC`, set `B` in `P` and push `P | 0x10`, set `I`,
and jump through the vector at `0xFFFE`. -/
def instrBrk (_mode : Option AddrMode) (c : Cpu) : Cpu :=
  let c := { c with PC := c.PC + 1 }
  let c := pushWord c c.PC
  let c := c.setFlag .brk true
  let c := pushByte c (c.P ||| 0x10#8)
  let c := c.setFlag .interrupt true
  let v := readVector c 0xFFFE
  { v.2 with PC := v.1 }

/-- `instr_rti`: pull `P` as it is, then `PC`. -/
def instrRti (_mode : Option AddrMode) (c : Cpu) : Cpu :=
  let p := pullByte c
  let c := { p.2 with P := p.1 }
  let pc := pullWord c
  { pc.2 with PC := pc.1 }

/-- `instr_pha`. -/
def instrPha (_mode : Option AddrMode) (c : Cpu) : Cpu := pushByte c c.A

/-- `instr_php`: push `P | 0x30`, with `B` and `U` set. -/
def instrPhp (_mode : Option AddrMode) (c : Cpu) : Cpu := pushByte c (c.P ||| 0x30#8)

/-- `instr_pla`. -/
def instrPla (_mode : Option AddrMode) (c : Cpu) : Cpu :=
  let v := pullByte c
  let c := { v.2 with A := v.1 }
  c.updateZeroAndNegativeFlags c.A

/-- `instr_plp`: `(pull & 0xEF) | 0x20`, clearing `B` and setting `U`. -/
def instrPlp (_mode : Option AddrMode) (c : Cpu) : Cpu :=
  let v := pullByte c
  { v.2 with P := (v.1 &&& 0xEF#8) ||| 0x20#8 }

/-- `instr_nop`. -/
def instrNop (_mode : Option AddrMode) (c : Cpu) : Cpu := c

/-! ## The routines the opcode table names -/

/-- The `instruction_func_t` values of the opcode table. -/
inductive Instruction
  | adc | and | asl | aslAccumulator | bcc | bcs | beq | bit | bmi | bne | bpl | brk | bvc | bvs
  | clc | cld | cli | clv | cmp | cpx | cpy | dec | dex | dey | eor | inc | inx | iny | jmp | jsr
  | lda | ldx | ldy | lsr | lsrAccumulator | nop | ora | pha | php | pla | plp | rol
  | rolAccumulator | ror | rorAccumulator | rti | rts | sbc | sec | sed | sei | sta | stx | sty
  | tax | tay | tsx | txa | txs | tya
  deriving DecidableEq, Repr

/-- Calling the routine with the entry's addressing mode. -/
def Instruction.execute : Instruction → Option AddrMode → Cpu → Cpu
  | .adc => instrAdc | .and => instrAnd | .asl => instrAsl | .aslAccumulator => instrAslAccumulator
  | .bcc => instrBcc | .bcs => instrBcs | .beq => instrBeq | .bit => instrBit | .bmi => instrBmi
  | .bne => instrBne | .bpl => instrBpl | .brk => instrBrk | .bvc => instrBvc | .bvs => instrBvs
  | .clc => instrClc | .cld => instrCld | .cli => instrCli | .clv => instrClv | .cmp => instrCmp
  | .cpx => instrCpx | .cpy => instrCpy | .dec => instrDec | .dex => instrDex | .dey => instrDey
  | .eor => instrEor | .inc => instrInc | .inx => instrInx | .iny => instrIny | .jmp => instrJmp
  | .jsr => instrJsr | .lda => instrLda | .ldx => instrLdx | .ldy => instrLdy | .lsr => instrLsr
  | .lsrAccumulator => instrLsrAccumulator | .nop => instrNop | .ora => instrOra
  | .pha => instrPha | .php => instrPhp | .pla => instrPla | .plp => instrPlp | .rol => instrRol
  | .rolAccumulator => instrRolAccumulator | .ror => instrRor
  | .rorAccumulator => instrRorAccumulator | .rti => instrRti | .rts => instrRts
  | .sbc => instrSbc | .sec => instrSec | .sed => instrSed | .sei => instrSei | .sta => instrSta
  | .stx => instrStx | .sty => instrSty | .tax => instrTax | .tay => instrTay | .tsx => instrTsx
  | .txa => instrTxa | .txs => instrTxs | .tya => instrTya

end Mos6502
