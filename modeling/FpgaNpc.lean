import FpgaNpc.Cache.ICache
import FpgaNpc.Cache.Refill
import FpgaNpc.Cache.Transparency
import FpgaNpc.Core.Access
import FpgaNpc.Core.Accesses
import FpgaNpc.Core.Alignment
import FpgaNpc.Core.Alike
import FpgaNpc.Core.Arithmetic
import FpgaNpc.Core.BPU
import FpgaNpc.Core.Branch
import FpgaNpc.Core.Codes
import FpgaNpc.Core.Commit
import FpgaNpc.Core.CsrPort
import FpgaNpc.Core.DataPort
import FpgaNpc.Core.Decoders
import FpgaNpc.Core.Division
import FpgaNpc.Core.EXE
import FpgaNpc.Core.Effects
import FpgaNpc.Core.Entries
import FpgaNpc.Core.Execution
import FpgaNpc.Core.Faults
import FpgaNpc.Core.Fetch
import FpgaNpc.Core.Flush
import FpgaNpc.Core.Follow
import FpgaNpc.Core.FrontEnd
import FpgaNpc.Core.Handshake
import FpgaNpc.Core.Hysteresis
import FpgaNpc.Core.ID
import FpgaNpc.Core.IF
import FpgaNpc.Core.Independence
import FpgaNpc.Core.Interrupts
import FpgaNpc.Core.Lanes
import FpgaNpc.Core.Lockstep
import FpgaNpc.Core.MEM
import FpgaNpc.Core.Mtval
import FpgaNpc.Core.Multiplication
import FpgaNpc.Core.Operands
import FpgaNpc.Core.Order
import FpgaNpc.Core.Pipeline
import FpgaNpc.Core.Precise
import FpgaNpc.Core.Privilege
import FpgaNpc.Core.Redirect
import FpgaNpc.Core.Reports
import FpgaNpc.Core.Request
import FpgaNpc.Core.Reservation
import FpgaNpc.Core.Resolution
import FpgaNpc.Core.Return
import FpgaNpc.Core.Selection
import FpgaNpc.Core.Trail
import FpgaNpc.Core.Traps
import FpgaNpc.Core.WB
import FpgaNpc.Hardware.Chisel
import FpgaNpc.Hardware.Dram
import FpgaNpc.Hardware.Fifo
import FpgaNpc.Hardware.LaneMemory
import FpgaNpc.Hardware.Ledger
import FpgaNpc.Hardware.Machine
import FpgaNpc.Hardware.Medium
import FpgaNpc.Hardware.Progress
import FpgaNpc.Hardware.Service
import FpgaNpc.Peripheral.Arbiter
import FpgaNpc.Peripheral.Arbitration
import FpgaNpc.Peripheral.CLINT
import FpgaNpc.Peripheral.Channels
import FpgaNpc.Peripheral.Forwarding
import FpgaNpc.Peripheral.Gateway
import FpgaNpc.Peripheral.Hazard
import FpgaNpc.Peripheral.PLIC
import FpgaNpc.Peripheral.Readback
import FpgaNpc.Peripheral.Routing
import FpgaNpc.Peripheral.Timer
import FpgaNpc.Peripheral.XBar
import FpgaNpc.Riscv.AExtension
import FpgaNpc.Riscv.ControlFlow
import FpgaNpc.Riscv.Hart
import FpgaNpc.Riscv.Integer
import FpgaNpc.Riscv.LoadStore
import FpgaNpc.Riscv.MExtension
import FpgaNpc.Riscv.MemoryAccess
import FpgaNpc.Sdb.Evaluation
import FpgaNpc.Sdb.Expr
import FpgaNpc.Sdb.Lexing
import FpgaNpc.Sdb.Lists
import FpgaNpc.Sdb.Precedence
import FpgaNpc.Sdb.Propagation
import FpgaNpc.Sdb.Returns
import FpgaNpc.Sdb.Robustness
import FpgaNpc.Sdb.Splitting
import FpgaNpc.Sdb.Tree
import FpgaNpc.Sdb.Watching
import FpgaNpc.Sdb.Watchpoint
import FpgaNpc.Sdram.Access
import FpgaNpc.Sdram.Answers
import FpgaNpc.Sdram.Axi
import FpgaNpc.Sdram.Bursts
import FpgaNpc.Sdram.Chip
import FpgaNpc.Sdram.Commands
import FpgaNpc.Sdram.Core
import FpgaNpc.Sdram.Legality
import FpgaNpc.Sdram.Linear
import FpgaNpc.Sdram.Pmem
import FpgaNpc.Sdram.Port
import FpgaNpc.Sdram.Refresh
import FpgaNpc.Sdram.Schedule
import FpgaNpc.Sdram.Service
import FpgaNpc.Sdram.Words
import FpgaNpc.Simulator.Difftest
import FpgaNpc.Simulator.Exec
import FpgaNpc.Simulator.Ftrace
import FpgaNpc.Simulator.SDRAM
import FpgaNpc.Simulator.SkipQueue
import FpgaNpc.Software.Chain
import FpgaNpc.Software.Regex
import FpgaNpc.Top.Bus
import FpgaNpc.Top.Execution
import FpgaNpc.Top.Fencei
import FpgaNpc.Top.History
import FpgaNpc.Top.Memory
import FpgaNpc.Top.Reads
import FpgaNpc.Top.System
import FpgaNpc.Top.Writes
import FpgaNpc.Utils.Bus
import FpgaNpc.Utils.Csr
import FpgaNpc.Utils.Decode
import FpgaNpc.Utils.Divider
import FpgaNpc.Utils.Exe
import FpgaNpc.Utils.RegMap
