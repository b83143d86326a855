import ReducedX86.Assembly.Address
import ReducedX86.Assembly.Error
import ReducedX86.Assembly.Lexer
import ReducedX86.Assembly.Numeral
import ReducedX86.Assembly.Program
import ReducedX86.Assembly.Token
import ReducedX86.Bytes
import ReducedX86.CommandLine
import ReducedX86.CommandLine.Arguments
import ReducedX86.CommandLine.Files
import ReducedX86.CommandLine.Host
import ReducedX86.CommandLine.Report
import ReducedX86.Device
import ReducedX86.Device.Board
import ReducedX86.Device.Script
import ReducedX86.Entries
import ReducedX86.Execution.Arithmetic
import ReducedX86.Execution.Bits
import ReducedX86.Execution.Blocks
import ReducedX86.Execution.Control
import ReducedX86.Execution.Instruction
import ReducedX86.Execution.Ports
import ReducedX86.Execution.Shift
import ReducedX86.Execution.Strings
import ReducedX86.Execution.System
import ReducedX86.Execution.Transfer
import ReducedX86.Execution.Wide
import ReducedX86.Fault
import ReducedX86.Feed
import ReducedX86.Flags
import ReducedX86.Instruction
import ReducedX86.Instruction.Signature
import ReducedX86.Instruction.Validation
import ReducedX86.Machine
import ReducedX86.Machine.Observers
import ReducedX86.Main
import ReducedX86.Memory
import ReducedX86.Operand
import ReducedX86.Operator
import ReducedX86.Processor
import ReducedX86.Processor.Step
import ReducedX86.Proofs.Assembly.Accounting
import ReducedX86.Proofs.Assembly.Addressing
import ReducedX86.Proofs.Assembly.Advance
import ReducedX86.Proofs.Assembly.Artifacts
import ReducedX86.Proofs.Assembly.Expression
import ReducedX86.Proofs.Assembly.InstructionText
import ReducedX86.Proofs.Assembly.LetterCase
import ReducedX86.Proofs.Assembly.Lexing
import ReducedX86.Proofs.Assembly.Literal
import ReducedX86.Proofs.Assembly.Lookahead
import ReducedX86.Proofs.Assembly.Naming
import ReducedX86.Proofs.Assembly.Numeral
import ReducedX86.Proofs.Assembly.OperandText
import ReducedX86.Proofs.Assembly.Relayout
import ReducedX86.Proofs.Assembly.Respelling
import ReducedX86.Proofs.Assembly.Scanning
import ReducedX86.Proofs.Assembly.Source
import ReducedX86.Proofs.Assembly.Termination
import ReducedX86.Proofs.Assembly.TwoPass
import ReducedX86.Proofs.Assembly.Vocabulary
import ReducedX86.Proofs.Assembly.WellFormed
import ReducedX86.Proofs.Bits
import ReducedX86.Proofs.Bytes
import ReducedX86.Proofs.Device.Board
import ReducedX86.Proofs.Device.FiringOrder
import ReducedX86.Proofs.Device.Timers
import ReducedX86.Proofs.Execution.Addition
import ReducedX86.Proofs.Execution.Atomicity
import ReducedX86.Proofs.Execution.BitStrings
import ReducedX86.Proofs.Execution.Blocks
import ReducedX86.Proofs.Execution.Comparison
import ReducedX86.Proofs.Execution.Control
import ReducedX86.Proofs.Execution.Division
import ReducedX86.Proofs.Execution.Exchange
import ReducedX86.Proofs.Execution.ExchangeAdd
import ReducedX86.Proofs.Execution.Footprint
import ReducedX86.Proofs.Execution.Outcome
import ReducedX86.Proofs.Execution.Shifting
import ReducedX86.Proofs.Execution.Stack
import ReducedX86.Proofs.Execution.Surroundings
import ReducedX86.Proofs.Execution.Views
import ReducedX86.Proofs.Execution.Widths
import ReducedX86.Proofs.Instruction.Completion
import ReducedX86.Proofs.Instruction.Restoring
import ReducedX86.Proofs.Instruction.Validation
import ReducedX86.Proofs.Machine.Batches
import ReducedX86.Proofs.Machine.Chronicle
import ReducedX86.Proofs.Machine.Compilation
import ReducedX86.Proofs.Machine.Consistency
import ReducedX86.Proofs.Machine.History
import ReducedX86.Proofs.Machine.Reachable
import ReducedX86.Proofs.Machine.Refusal
import ReducedX86.Proofs.Machine.Resemblance
import ReducedX86.Proofs.Machine.Reset
import ReducedX86.Proofs.Machine.ResetRequest
import ReducedX86.Proofs.Machine.Resting
import ReducedX86.Proofs.Machine.Slice
import ReducedX86.Proofs.Machine.Slicing
import ReducedX86.Proofs.Machine.Tracking
import ReducedX86.Proofs.Machine.Waiting
import ReducedX86.Proofs.Memory
import ReducedX86.Proofs.Memory.ByteStore
import ReducedX86.Proofs.Outcome
import ReducedX86.Proofs.Processor.AddressSpace
import ReducedX86.Proofs.Processor.Blindness
import ReducedX86.Proofs.Processor.Equipment
import ReducedX86.Proofs.Processor.FaultSite
import ReducedX86.Proofs.Processor.Handlers
import ReducedX86.Proofs.Processor.Lifetime
import ReducedX86.Proofs.Processor.Repetition
import ReducedX86.Proofs.Processor.Requests
import ReducedX86.Proofs.Processor.SingleStepping
import ReducedX86.Proofs.Processor.Step
import ReducedX86.Proofs.Processor.Suspension
import ReducedX86.Proofs.Processor.Transfer
import ReducedX86.Proofs.Register
import ReducedX86.Proofs.Register.Aliasing
import ReducedX86.Proofs.Text.Utf16
import ReducedX86.Proofs.Variable.DeclarationOrder
import ReducedX86.Proofs.Variable.InitialImage
import ReducedX86.Proofs.Variable.Packing
import ReducedX86.Register
import ReducedX86.Ron.Document
import ReducedX86.Ron.Number
import ReducedX86.Ron.Quoted
import ReducedX86.Ron.Reader
import ReducedX86.Ron.Value
import ReducedX86.Settings
import ReducedX86.Settings.Document
import ReducedX86.Text.Identifier
import ReducedX86.Text.Identifier.Table
import ReducedX86.Text.LowerCase
import ReducedX86.Text.LowerCase.Table
import ReducedX86.Text.Quoted
import ReducedX86.Text.Quoted.Table
import ReducedX86.Text.Ranges
import ReducedX86.Text.Utf16
import ReducedX86.Variable
import ReducedX86.Variable.Document
import ReducedX86.Variable.Table
import ReducedX86.Word
import ReducedX86.Word.Numeric
