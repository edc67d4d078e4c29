import Sqnim.Compiler.Addressing
import Sqnim.Vm.ScalarOrder
import Sqnim.Vm.EqualityOrder
import Sqnim.Vm.ArithAgreement
import Sqnim.Vm.FailurePaths
import Sqnim.Host.NimObject
import Sqnim.Host.Print
import Sqnim.Table.Resolution
import Sqnim.Refs.Balances
import Sqnim.Bytecode.ReadBack
import Sqnim.Vm.YieldResume
import Sqnim.Vm.OpenOuters
import Sqnim.BaseLib.Sort
import Sqnim.Vm.NativeCheck
import Sqnim.BaseLib.Conversion
import Sqnim.BaseLib.ArrayAccess
import Sqnim.BaseLib.MapArray
import Sqnim.Bytecode.StartCall
import Sqnim.Bytecode.Built
import Sqnim.Compiler.StepClause
import Sqnim.Lib.Leads
import Sqnim.Compiler.CodeFrame
import Sqnim.Compiler.Frames
import Sqnim.Vm.Jumps
import Sqnim.Compiler.DoLoop
import Sqnim.Table.Slots
import Sqnim.Refs.RefCount
import Sqnim.Object.StringTable
import Sqnim.Object.Interning
import Sqnim.Object.StringRuns
import Sqnim.Api.State
import Sqnim.Object.Members
import Sqnim.Api.RawSet
import Sqnim.Bytecode.GetLine
import Sqnim.Compiler.LineInfos
import Sqnim.Compiler.LineFrames
import Sqnim.Lib.Reports
import Sqnim.Compiler.Accesses
import Sqnim.Compiler.AccessFrames
import Sqnim.Compiler.LexString
import Sqnim.StdLib.Escape
import Sqnim.StdLib.EscapeRoundTrip
import Sqnim.Compiler.Numeral
import Sqnim.Vm.Loads
import Sqnim.Compiler.IntegerLiteral
import Sqnim.Compiler.LiteralPositions
import Sqnim.Gc.Collectable
import Sqnim.Lib.Tracing
import Sqnim.Gc.Mark
import Sqnim.Gc.Resurrect
import Sqnim.Gc.Account
import Sqnim.Gc.Release
import Sqnim.Gc.Drop
import Sqnim.Gc.Sweep
import Sqnim.Gc.Unreachable
import Sqnim.Lib.Binary64
import Sqnim.Lib.Seekable
import Sqnim.StdLib.Blob
import Sqnim.StdLib.BlobNumbers
