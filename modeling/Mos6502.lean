import Mos6502.Bits
import Mos6502.Queue.Ring
import Mos6502.Queue.Fifo
import Mos6502.Queue.EventQueue
import Mos6502.Cpu.State
import Mos6502.Cpu.Addressing
import Mos6502.Cpu.Instructions
import Mos6502.Cpu.OpcodeTable
import Mos6502.Cpu.Step
import Mos6502.Cpu.Effects
import Mos6502.Properties.AddrModes
import Mos6502.Properties.Arithmetic
import Mos6502.Properties.Decimal
import Mos6502.Properties.ControlFlow
import Mos6502.Properties.Interrupts
import Mos6502.Properties.Stack
import Mos6502.Properties.Cycles
import Mos6502.Properties.Loading
import Mos6502.Properties.Output
import Mos6502.Properties.Shifts
import Mos6502.Host.Threads
import Mos6502.Host.LineEditor
import Mos6502.Host.Windows
import Mos6502.Host.Control
import Mos6502.Host.Prompts
import Mos6502.Host.Emulator
import Mos6502.Host.Dialogs
