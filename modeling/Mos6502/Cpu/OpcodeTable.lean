import Mos6502.Cpu.Instructions

/-!
# The opcode table

`initialize_opcode_table` first marks all 256 opcodes undefined (mnemonic `"???"`, no routine, no
addressing mode, 0 cycles, 1 byte), then assigns the 152 defined entries: the 151 documented
opcodes and `0xEB`, an alias of `SBC #imm`. `opcodeEntries` lists those assignments in source
order, and `opcodeTable` performs them one after the other, a later assignment replacing an
earlier one as in C.

## Main definitions

* `OpcodeEntry`: `opcode_entry_t`
* `opcodeEntries`, `opcodeTable`: the assignments and the table they build
-/

namespace Mos6502

/-- `opcode_entry_t`. -/
structure OpcodeEntry where
  opcode : Byte
  mnemonic : String
  execute : Option Instruction
  addrMode : Option AddrMode
  cycles : Nat
  bytes : Nat
  deriving DecidableEq, Repr

/-- The assignment `opcode_table[op] = (opcode_entry_t)...` of a defined entry. -/
def entry (op : Nat) (mnemonic : String) (execute : Instruction) (addrMode : Option AddrMode)
    (cycles bytes : Nat) : OpcodeEntry :=
  ⟨BitVec.ofNat 8 op, mnemonic, some execute, addrMode, cycles, bytes⟩

/-- The assignments of `initialize_opcode_table`, in source order. -/
def opcodeEntries : List OpcodeEntry := [
  entry 0x69 "ADC" .adc (some .immediate) 2 2,
  entry 0x65 "ADC" .adc (some .zeroPage) 3 2,
  entry 0x75 "ADC" .adc (some .zeroPageX) 4 2,
  entry 0x6D "ADC" .adc (some .absolute) 4 3,
  entry 0x7D "ADC" .adc (some .absoluteX) 4 3,
  entry 0x79 "ADC" .adc (some .absoluteY) 4 3,
  entry 0x61 "ADC" .adc (some .indirectX) 6 2,
  entry 0x71 "ADC" .adc (some .indirectY) 5 2,
  entry 0x29 "AND" .and (some .immediate) 2 2,
  entry 0x25 "AND" .and (some .zeroPage) 3 2,
  entry 0x35 "AND" .and (some .zeroPageX) 4 2,
  entry 0x2D "AND" .and (some .absolute) 4 3,
  entry 0x3D "AND" .and (some .absoluteX) 4 3,
  entry 0x39 "AND" .and (some .absoluteY) 4 3,
  entry 0x21 "AND" .and (some .indirectX) 6 2,
  entry 0x31 "AND" .and (some .indirectY) 5 2,
  entry 0x0A "ASL" .aslAccumulator none 2 1,
  entry 0x06 "ASL" .asl (some .zeroPage) 5 2,
  entry 0x16 "ASL" .asl (some .zeroPageX) 6 2,
  entry 0x0E "ASL" .asl (some .absolute) 6 3,
  entry 0x1E "ASL" .asl (some .absoluteX) 7 3,
  entry 0x90 "BCC" .bcc (some .relative) 2 2,
  entry 0xB0 "BCS" .bcs (some .relative) 2 2,
  entry 0xF0 "BEQ" .beq (some .relative) 2 2,
  entry 0x24 "BIT" .bit (some .zeroPage) 3 2,
  entry 0x2C "BIT" .bit (some .absolute) 4 3,
  entry 0x30 "BMI" .bmi (some .relative) 2 2,
  entry 0xD0 "BNE" .bne (some .relative) 2 2,
  entry 0x10 "BPL" .bpl (some .relative) 2 2,
  entry 0x00 "BRK" .brk none 7 1,
  entry 0x50 "BVC" .bvc (some .relative) 2 2,
  entry 0x70 "BVS" .bvs (some .relative) 2 2,
  entry 0x18 "CLC" .clc none 2 1,
  entry 0xD8 "CLD" .cld none 2 1,
  entry 0x58 "CLI" .cli none 2 1,
  entry 0xB8 "CLV" .clv none 2 1,
  entry 0xC9 "CMP" .cmp (some .immediate) 2 2,
  entry 0xC5 "CMP" .cmp (some .zeroPage) 3 2,
  entry 0xD5 "CMP" .cmp (some .zeroPageX) 3 2,
  entry 0xCD "CMP" .cmp (some .absolute) 4 3,
  entry 0xDD "CMP" .cmp (some .absoluteX) 4 3,
  entry 0xD9 "CMP" .cmp (some .absoluteY) 4 3,
  entry 0xC1 "CMP" .cmp (some .indirectX) 6 2,
  entry 0xD1 "CMP" .cmp (some .indirectY) 5 2,
  entry 0xE0 "CPX" .cpx (some .immediate) 2 2,
  entry 0xE4 "CPX" .cpx (some .zeroPage) 3 2,
  entry 0xEC "CPX" .cpx (some .absolute) 4 3,
  entry 0xC0 "CPY" .cpy (some .immediate) 2 2,
  entry 0xC4 "CPY" .cpy (some .zeroPage) 3 2,
  entry 0xCC "CPY" .cpy (some .absolute) 4 3,
  entry 0xC6 "DEC" .dec (some .zeroPage) 5 2,
  entry 0xD6 "DEC" .dec (some .zeroPageX) 5 2,
  entry 0xCE "DEC" .dec (some .absolute) 6 3,
  entry 0xDE "DEC" .dec (some .absoluteX) 7 3,
  entry 0xCA "DEX" .dex none 2 1,
  entry 0x88 "DEY" .dey none 2 1,
  entry 0x49 "EOR" .eor (some .immediate) 2 2,
  entry 0x45 "EOR" .eor (some .zeroPage) 3 2,
  entry 0x55 "EOR" .eor (some .zeroPageX) 4 2,
  entry 0x4D "EOR" .eor (some .absolute) 4 3,
  entry 0x5D "EOR" .eor (some .absoluteX) 4 3,
  entry 0x59 "EOR" .eor (some .absoluteY) 4 3,
  entry 0x41 "EOR" .eor (some .indirectX) 6 2,
  entry 0x51 "EOR" .eor (some .indirectY) 5 2,
  entry 0xE6 "INC" .inc (some .zeroPage) 5 2,
  entry 0xF6 "INC" .inc (some .zeroPageX) 5 2,
  entry 0xEE "INC" .inc (some .absolute) 7 3,
  entry 0xFE "INC" .inc (some .absoluteX) 7 3,
  entry 0xE8 "INX" .inx none 2 1,
  entry 0xC8 "INY" .iny none 2 1,
  entry 0x4C "JMP" .jmp (some .absolute) 3 3,
  entry 0x6C "JMP" .jmp (some .indirect) 5 3,
  entry 0x20 "JSR" .jsr (some .absolute) 6 3,
  entry 0xA9 "LDA" .lda (some .immediate) 2 2,
  entry 0xA5 "LDA" .lda (some .zeroPage) 3 2,
  entry 0xB5 "LDA" .lda (some .zeroPageX) 4 2,
  entry 0xAD "LDA" .lda (some .absolute) 4 3,
  entry 0xBD "LDA" .lda (some .absoluteX) 4 3,
  entry 0xB9 "LDA" .lda (some .absoluteY) 4 3,
  entry 0xA1 "LDA" .lda (some .indirectX) 6 2,
  entry 0xB1 "LDA" .lda (some .indirectY) 5 2,
  entry 0xA2 "LDX" .ldx (some .immediate) 2 2,
  entry 0xA6 "LDX" .ldx (some .zeroPage) 3 2,
  entry 0xB6 "LDX" .ldx (some .zeroPageY) 4 2,
  entry 0xAE "LDX" .ldx (some .absolute) 4 3,
  entry 0xBE "LDX" .ldx (some .absoluteY) 4 3,
  entry 0xA0 "LDY" .ldy (some .immediate) 2 2,
  entry 0xA4 "LDY" .ldy (some .zeroPage) 3 2,
  entry 0xB4 "LDY" .ldy (some .zeroPageX) 4 2,
  entry 0xAC "LDY" .ldy (some .absolute) 4 3,
  entry 0xBC "LDY" .ldy (some .absoluteX) 4 3,
  entry 0x4A "LSR" .lsrAccumulator none 2 1,
  entry 0x46 "LSR" .lsr (some .zeroPage) 5 2,
  entry 0x56 "LSR" .lsr (some .zeroPageX) 6 2,
  entry 0x4E "LSR" .lsr (some .absolute) 7 3,
  entry 0x5E "LSR" .lsr (some .absoluteX) 7 3,
  entry 0xEA "NOP" .nop none 2 1,
  entry 0x09 "ORA" .ora (some .immediate) 2 2,
  entry 0x05 "ORA" .ora (some .zeroPage) 3 2,
  entry 0x15 "ORA" .ora (some .zeroPageX) 4 2,
  entry 0x0D "ORA" .ora (some .absolute) 4 3,
  entry 0x1D "ORA" .ora (some .absoluteX) 4 3,
  entry 0x19 "ORA" .ora (some .absoluteY) 4 3,
  entry 0x01 "ORA" .ora (some .indirectX) 6 2,
  entry 0x11 "ORA" .ora (some .indirectY) 5 2,
  entry 0x48 "PHA" .pha none 3 1,
  entry 0x08 "PHP" .php none 3 1,
  entry 0x68 "PLA" .pla none 4 1,
  entry 0x28 "PLP" .plp none 4 1,
  entry 0x2A "ROL" .rolAccumulator none 2 1,
  entry 0x26 "ROL" .rol (some .zeroPage) 5 2,
  entry 0x36 "ROL" .rol (some .zeroPageX) 6 2,
  entry 0x2E "ROL" .rol (some .absolute) 7 3,
  entry 0x3E "ROL" .rol (some .absoluteX) 7 3,
  entry 0x6A "ROR" .rorAccumulator none 2 1,
  entry 0x66 "ROR" .ror (some .zeroPage) 5 2,
  entry 0x76 "ROR" .ror (some .zeroPageX) 6 2,
  entry 0x6E "ROR" .ror (some .absolute) 7 3,
  entry 0x7E "ROR" .ror (some .absoluteX) 7 3,
  entry 0x40 "RTI" .rti none 6 1,
  entry 0x60 "RTS" .rts none 6 1,
  entry 0xE9 "SBC" .sbc (some .immediate) 2 2,
  entry 0xEB "SBC" .sbc (some .immediate) 2 2,
  entry 0xE5 "SBC" .sbc (some .zeroPage) 3 2,
  entry 0xF5 "SBC" .sbc (some .zeroPageX) 3 2,
  entry 0xED "SBC" .sbc (some .absolute) 4 3,
  entry 0xFD "SBC" .sbc (some .absoluteX) 4 3,
  entry 0xF9 "SBC" .sbc (some .absoluteY) 4 3,
  entry 0xE1 "SBC" .sbc (some .indirectX) 6 2,
  entry 0xF1 "SBC" .sbc (some .indirectY) 5 2,
  entry 0x38 "SEC" .sec none 2 1,
  entry 0xF8 "SED" .sed none 2 1,
  entry 0x78 "SEI" .sei none 2 1,
  entry 0x85 "STA" .sta (some .zeroPage) 3 2,
  entry 0x95 "STA" .sta (some .zeroPageX) 4 2,
  entry 0x8D "STA" .sta (some .absolute) 4 3,
  entry 0x9D "STA" .sta (some .absoluteX) 5 3,
  entry 0x99 "STA" .sta (some .absoluteY) 5 3,
  entry 0x81 "STA" .sta (some .indirectX) 6 2,
  entry 0x91 "STA" .sta (some .indirectY) 6 2,
  entry 0x86 "STX" .stx (some .zeroPage) 3 2,
  entry 0x96 "STX" .stx (some .zeroPageY) 4 2,
  entry 0x8E "STX" .stx (some .absolute) 4 3,
  entry 0x84 "STY" .sty (some .zeroPage) 3 2,
  entry 0x94 "STY" .sty (some .zeroPageX) 4 2,
  entry 0x8C "STY" .sty (some .absolute) 4 3,
  entry 0xAA "TAX" .tax none 2 1,
  entry 0xA8 "TAY" .tay none 2 1,
  entry 0xBA "TSX" .tsx none 2 1,
  entry 0x8A "TXA" .txa none 2 1,
  entry 0x9A "TXS" .txs none 2 1,
  entry 0x98 "TYA" .tya none 2 1
]

/-- The entry the initial loop gives every opcode. -/
def undefinedEntry (op : Byte) : OpcodeEntry := ⟨op, "???", none, none, 0, 1⟩

/-- Performing the assignments that concern `op` in order, from the entry `t`. -/
def assignEntries (op : Byte) (t : OpcodeEntry) (es : List OpcodeEntry) : OpcodeEntry :=
  es.foldl (fun t e => if e.opcode = op then e else t) t

/-- `opcode_table[op]` once `initialize_opcode_table` has run. -/
def opcodeTable (op : Byte) : OpcodeEntry := assignEntries op (undefinedEntry op) opcodeEntries

example : opcodeTable 0x6C#8 = entry 0x6C "JMP" .jmp (some .indirect) 5 3 := by decide

example : (opcodeTable 0x02#8).execute = none := by decide

end Mos6502
