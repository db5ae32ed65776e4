import LuaMachine.Chunk.Error
import LuaMachine.Chunk.Format
import LuaMachine.Chunk.Reader
import LuaMachine.Chunk.Writer
import LuaMachine.Command
import LuaMachine.Double.Arith
import LuaMachine.Double.Basic
import LuaMachine.Double.Decimal
import LuaMachine.Error
import LuaMachine.Instruction.FloatByte
import LuaMachine.Instruction.Opcode
import LuaMachine.Instruction.Word
import LuaMachine.Machine.Base
import LuaMachine.Machine.Call
import LuaMachine.Machine.ForLoop
import LuaMachine.Machine.Metatable
import LuaMachine.Machine.Operation
import LuaMachine.Machine.Run
import LuaMachine.Machine.State
import LuaMachine.Machine.Step
import LuaMachine.Machine.Store
import LuaMachine.Machine.Window
import LuaMachine.Main
import LuaMachine.Prototype
import LuaMachine.Prototype.Builder
import LuaMachine.Prototype.Listing
import LuaMachine.Table
import LuaMachine.Text.Printable
import LuaMachine.Text.Quoted
import LuaMachine.Text.Utf8
import LuaMachine.Value.Arith
import LuaMachine.Value.Basic
import LuaMachine.Value.Key
import LuaMachine.Value.Numeral
import LuaMachine.Value.Order
import LuaMachine.Proofs.Effect
import LuaMachine.Proofs.Running
import LuaMachine.Proofs.Balanced
import LuaMachine.Proofs.Interface
import LuaMachine.Proofs.Instruction
import LuaMachine.Proofs.Calls
import LuaMachine.Proofs.Run
import LuaMachine.Proofs.Reachable
import LuaMachine.Proofs.Recovery
import LuaMachine.Proofs.Protected
import LuaMachine.Proofs.Stranded
import LuaMachine.Proofs.Lasting
import LuaMachine.Proofs.Depth
import LuaMachine.Proofs.Failing
import LuaMachine.Proofs.Origin
import LuaMachine.Proofs.Nesting
import LuaMachine.Proofs.Text.Utf8
import LuaMachine.Proofs.Chunk.Reads
import LuaMachine.Proofs.Chunk.RoundTrip
import LuaMachine.Proofs.Chunk.Accepted
import LuaMachine.Proofs.Chunk.Counted
import LuaMachine.Proofs.Table.Entries
import LuaMachine.Proofs.Table.Layout
import LuaMachine.Proofs.Table.Contents
import LuaMachine.Proofs.Table.Traversal
import LuaMachine.Proofs.ForLoop.Count
import LuaMachine.Proofs.ForLoop.Rounds
import LuaMachine.Proofs.ForLoop.Limits
import LuaMachine.Proofs.Bounds.Registers
import LuaMachine.Proofs.Bounds.Sound
import LuaMachine.Proofs.Bounds.Step
import LuaMachine.Proofs.Bounds.Calls
import LuaMachine.Proofs.Bounds.Hosts
import LuaMachine.Proofs.Bounds.Run
import LuaMachine.Proofs.Double.Exact
import LuaMachine.Proofs.Comparison
import LuaMachine.Proofs.Table.Keys
import LuaMachine.Proofs.Handlers
import LuaMachine.Proofs.Passing
import LuaMachine.Proofs.IntegerArith
import LuaMachine.Proofs.TailCalls
import LuaMachine.Proofs.Captures.Listed
import LuaMachine.Proofs.Captures.Sharing
import LuaMachine.Proofs.Cells.Variables
import LuaMachine.Proofs.Cells.Shared
import LuaMachine.Proofs.Indexing.Reads
import LuaMachine.Proofs.Indexing.Writes
import LuaMachine.Proofs.Numeral.Parts
import LuaMachine.Proofs.Numeral.Unsigned
import LuaMachine.Proofs.Numeral.Grammar
import LuaMachine.Proofs.Numeral.Integers
import LuaMachine.Proofs.Numeral.Based
import LuaMachine.Proofs.Concatenation
import LuaMachine.Proofs.Window.Below
import LuaMachine.Proofs.Window.Contents
import LuaMachine.Proofs.Raising
import LuaMachine.Proofs.FloatByte
import LuaMachine.Proofs.Building
import LuaMachine.Proofs.LineRecords
import LuaMachine.Proofs.Jumps.Patched
