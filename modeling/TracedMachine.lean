import TracedMachine.AllocCounters
import TracedMachine.Assembler
import TracedMachine.Bytes
import TracedMachine.ClassTable
import TracedMachine.Command
import TracedMachine.Command.Arguments
import TracedMachine.Command.Report
import TracedMachine.Command.Run
import TracedMachine.Demo
import TracedMachine.Descriptor
import TracedMachine.Directory
import TracedMachine.Event
import TracedMachine.EventStream
import TracedMachine.Heap
import TracedMachine.Instruction
import TracedMachine.Machine
import TracedMachine.Main
import TracedMachine.Method
import TracedMachine.MethodId
import TracedMachine.Notice
import TracedMachine.ObjectRef
import TracedMachine.Opcode
import TracedMachine.OpcodeCounts
import TracedMachine.Profiler
import TracedMachine.Proofs.AllocCounters
import TracedMachine.Proofs.Assembler.Decode
import TracedMachine.Proofs.Assembler.Program
import TracedMachine.Proofs.Assembler.Reading
import TracedMachine.Proofs.ClassTable.Linking
import TracedMachine.Proofs.ClassTable.Lookup
import TracedMachine.Proofs.Demo
import TracedMachine.Proofs.Descriptor
import TracedMachine.Proofs.EventStream
import TracedMachine.Proofs.Heap.Allocation
import TracedMachine.Proofs.Heap.Balance
import TracedMachine.Proofs.Heap.Contents
import TracedMachine.Proofs.Heap.Lifetime
import TracedMachine.Proofs.Heap.Operations
import TracedMachine.Proofs.Heap.WellFormed
import TracedMachine.Proofs.Machine.Alone
import TracedMachine.Proofs.Machine.Bracketed
import TracedMachine.Proofs.Machine.Call
import TracedMachine.Proofs.Machine.Forward
import TracedMachine.Proofs.Machine.Loaded
import TracedMachine.Proofs.Machine.Memory
import TracedMachine.Proofs.Machine.Parked
import TracedMachine.Proofs.Machine.Passes
import TracedMachine.Proofs.Machine.Pending
import TracedMachine.Proofs.Machine.Reach
import TracedMachine.Proofs.Machine.Spilled
import TracedMachine.Proofs.Machine.Step
import TracedMachine.Proofs.Machine.Thrown
import TracedMachine.Proofs.Machine.Turn
import TracedMachine.Proofs.MethodId
import TracedMachine.Proofs.MethodTable
import TracedMachine.Proofs.Profiler.Counting
import TracedMachine.Proofs.Profiler.Gate
import TracedMachine.Proofs.Profiler.Mirror
import TracedMachine.Proofs.Recorder.Brackets
import TracedMachine.Proofs.Recorder.Cut
import TracedMachine.Proofs.Recorder.Log
import TracedMachine.Proofs.Text.Fields
import TracedMachine.Proofs.Text.Utf8
import TracedMachine.Proofs.ThreadList
import TracedMachine.Proofs.Trace.Calls
import TracedMachine.Proofs.Trace.Delimited
import TracedMachine.Proofs.Trace.Key
import TracedMachine.Proofs.Trace.RoundTrip
import TracedMachine.Proofs.Vm.Counting
import TracedMachine.Proofs.Vm.History
import TracedMachine.Proofs.Vm.Identity
import TracedMachine.Proofs.Vm.ReadBack
import TracedMachine.Proofs.Vm.Shares
import TracedMachine.Proofs.Vm.Transparency
import TracedMachine.Proofs.Watched.Machine
import TracedMachine.Proofs.Watched.Store
import TracedMachine.Proofs.Watched.Work
import TracedMachine.Recorder
import TracedMachine.Registers
import TracedMachine.Sink
import TracedMachine.Stack
import TracedMachine.Text.Combining
import TracedMachine.Text.Number
import TracedMachine.Text.Plain
import TracedMachine.Text.Quoted
import TracedMachine.Text.Ranges
import TracedMachine.Text.Split
import TracedMachine.Text.Unprintable
import TracedMachine.Text.Utf8
import TracedMachine.ThreadId
import TracedMachine.ThreadList
import TracedMachine.Throwable
import TracedMachine.Trace.Calls
import TracedMachine.Trace.Entry
import TracedMachine.Trace.File
import TracedMachine.Trace.FormatError
import TracedMachine.Trace.Header
import TracedMachine.Trace.Key
import TracedMachine.Trace.Report
import TracedMachine.TraceError
import TracedMachine.Vm
import TracedMachine.Word
