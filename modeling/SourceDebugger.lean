import SourceDebugger.Addr
import SourceDebugger.Backtrace
import SourceDebugger.Breakpoint
import SourceDebugger.Bytes.Leb128
import SourceDebugger.Bytes.Reader
import SourceDebugger.CallFrame.Build
import SourceDebugger.CallFrame.Entry
import SourceDebugger.CallFrame.Instruction
import SourceDebugger.CallFrame.Unwind
import SourceDebugger.Command.Basic
import SourceDebugger.Command.Parse
import SourceDebugger.CommandLine
import SourceDebugger.Compression.Inflate
import SourceDebugger.Compression.Section
import SourceDebugger.DebugInfo.Abbreviation
import SourceDebugger.DebugInfo.Attribute
import SourceDebugger.DebugInfo.Build
import SourceDebugger.DebugInfo.Content
import SourceDebugger.DebugInfo.Entry
import SourceDebugger.DebugInfo.LineTable
import SourceDebugger.DebugInfo.Sections
import SourceDebugger.Debuggee
import SourceDebugger.Disassembly
import SourceDebugger.Error
import SourceDebugger.Feedback
import SourceDebugger.Index.Basic
import SourceDebugger.Index.Lookup
import SourceDebugger.Index.SortedMap
import SourceDebugger.Kernel.Basic
import SourceDebugger.Kernel.Image
import SourceDebugger.Kernel.Memory
import SourceDebugger.Kernel.Process
import SourceDebugger.Listing
import SourceDebugger.Location
import SourceDebugger.Machine.Basic
import SourceDebugger.Machine.Execute
import SourceDebugger.Main
import SourceDebugger.ObjectFile.Basic
import SourceDebugger.ObjectFile.Contents
import SourceDebugger.Program
import SourceDebugger.Proofs.Action
import SourceDebugger.Proofs.AddressLookup
import SourceDebugger.Proofs.Atomicity
import SourceDebugger.Proofs.Brackets
import SourceDebugger.Proofs.BreakpointAddress
import SourceDebugger.Proofs.BreakpointNumbers
import SourceDebugger.Proofs.BuildRelocation
import SourceDebugger.Proofs.CodeView
import SourceDebugger.Proofs.Coherence
import SourceDebugger.Proofs.CompressedSection
import SourceDebugger.Proofs.Continue
import SourceDebugger.Proofs.Cpu
import SourceDebugger.Proofs.CpuProcess
import SourceDebugger.Proofs.Debuggee
import SourceDebugger.Proofs.Ensures
import SourceDebugger.Proofs.EntryOffsets
import SourceDebugger.Proofs.FactoredOffset
import SourceDebugger.Proofs.FilePath
import SourceDebugger.Proofs.Finished
import SourceDebugger.Proofs.FrameChain
import SourceDebugger.Proofs.FrameCovering
import SourceDebugger.Proofs.FrameRelocation
import SourceDebugger.Proofs.FrameSafety
import SourceDebugger.Proofs.FrameSection
import SourceDebugger.Proofs.FrameTable
import SourceDebugger.Proofs.FunctionBreakpoint
import SourceDebugger.Proofs.FunctionRange
import SourceDebugger.Proofs.Host
import SourceDebugger.Proofs.IndexRelocation
import SourceDebugger.Proofs.IndexTables
import SourceDebugger.Proofs.Invariant
import SourceDebugger.Proofs.LawfulMachine
import SourceDebugger.Proofs.LawfulTracee
import SourceDebugger.Proofs.Leb128
import SourceDebugger.Proofs.Leb128Decoding
import SourceDebugger.Proofs.Leb128Encoding
import SourceDebugger.Proofs.LineProgram
import SourceDebugger.Proofs.LineTable
import SourceDebugger.Proofs.ListingWindow
import SourceDebugger.Proofs.LocationEncoding
import SourceDebugger.Proofs.MacroStep
import SourceDebugger.Proofs.Memory
import SourceDebugger.Proofs.NextLine
import SourceDebugger.Proofs.NopProcess
import SourceDebugger.Proofs.OperatorTable
import SourceDebugger.Proofs.Poised
import SourceDebugger.Proofs.QuotedWords
import SourceDebugger.Proofs.ReadSequence
import SourceDebugger.Proofs.Reading
import SourceDebugger.Proofs.ReapedChild
import SourceDebugger.Proofs.Recording
import SourceDebugger.Proofs.Replay
import SourceDebugger.Proofs.Restart
import SourceDebugger.Proofs.RuleOrigin
import SourceDebugger.Proofs.Signals
import SourceDebugger.Proofs.SingleStep
import SourceDebugger.Proofs.SortedMap
import SourceDebugger.Proofs.StepLine
import SourceDebugger.Proofs.TableEffects
import SourceDebugger.Proofs.Tiling
import SourceDebugger.Proofs.Transients
import SourceDebugger.Proofs.Transparency
import SourceDebugger.Proofs.Traps
import SourceDebugger.Proofs.TypeSize
import SourceDebugger.Proofs.TypeTable
import SourceDebugger.Proofs.TypedCommand
import SourceDebugger.Proofs.UnitWalk
import SourceDebugger.Proofs.Unwind
import SourceDebugger.Proofs.VariablePlace
import SourceDebugger.Proofs.VariableScope
import SourceDebugger.Proofs.WordMemory
import SourceDebugger.Proofs.WordWrites
import SourceDebugger.Registers
import SourceDebugger.Session.Basic
import SourceDebugger.Session.Dialogue
import SourceDebugger.Session.Handle
import SourceDebugger.Session.Open
import SourceDebugger.Session.Script
import SourceDebugger.Session.Step
import SourceDebugger.SourceKind
import SourceDebugger.Symbol.Demangle
import SourceDebugger.Symbol.Hashed
import SourceDebugger.Symbol.Structured
import SourceDebugger.System.Errno
import SourceDebugger.System.FileSystem
import SourceDebugger.System.Request
import SourceDebugger.System.Signal
import SourceDebugger.Target
import SourceDebugger.Target.Script
import SourceDebugger.Text.Blank
import SourceDebugger.Text.Hex
import SourceDebugger.Text.Numeral
import SourceDebugger.Text.Path
import SourceDebugger.Text.Utf8
import SourceDebugger.Text.Words
import SourceDebugger.TracedChild
import SourceDebugger.Tracee
import SourceDebugger.VariableValue
import SourceDebugger.X86.Decode
import SourceDebugger.X86.Execute
import SourceDebugger.X86.Flags
import SourceDebugger.X86.Form
import SourceDebugger.X86.Instruction
import SourceDebugger.X86.Opcode.Float
import SourceDebugger.X86.Opcode.OneByte
import SourceDebugger.X86.Opcode.ThreeByte
import SourceDebugger.X86.Opcode.TwoByte
import SourceDebugger.X86.Opcode.Vector
import SourceDebugger.X86.Opcode.VectorForm
import SourceDebugger.X86.Opcode.VectorHalf
import SourceDebugger.X86.Opcode.VectorThreeByte
import SourceDebugger.X86.Opcode.Xop
import SourceDebugger.X86.Processor
import SourceDebugger.X86.Text
