import PermissionAudit.Application.Arguments
import PermissionAudit.Application.Error
import PermissionAudit.Application.Input
import PermissionAudit.Application.Scan
import PermissionAudit.Archive.Inflate
import PermissionAudit.Archive.Zip
import PermissionAudit.Bytes.Adler32
import PermissionAudit.Bytes.Basic
import PermissionAudit.Bytes.Crc32
import PermissionAudit.Bytes.Sha1
import PermissionAudit.Bytes.Uleb128
import PermissionAudit.Detection.Classify
import PermissionAudit.Detection.Filter
import PermissionAudit.Detection.Run
import PermissionAudit.Dex.Address
import PermissionAudit.Dex.Assembler.Basic
import PermissionAudit.Dex.Assembler.Layout
import PermissionAudit.Dex.Assembler.Operation
import PermissionAudit.Dex.ClassData
import PermissionAudit.Dex.Code
import PermissionAudit.Dex.Descriptor
import PermissionAudit.Dex.Error
import PermissionAudit.Dex.File
import PermissionAudit.Dex.Flags
import PermissionAudit.Dex.Header
import PermissionAudit.Dex.Instruction.Basic
import PermissionAudit.Dex.Instruction.Decode
import PermissionAudit.Dex.Instruction.Render
import PermissionAudit.Dex.Lookup
import PermissionAudit.Dex.Opcode
import PermissionAudit.FileSystem.Basic
import PermissionAudit.FileSystem.Fault
import PermissionAudit.FileSystem.Path
import PermissionAudit.Log
import PermissionAudit.Main
import PermissionAudit.Pattern.Basic
import PermissionAudit.Pattern.CharSet
import PermissionAudit.Pattern.Match
import PermissionAudit.Pattern.Parse
import PermissionAudit.Pattern.Size
import PermissionAudit.Permission.Index
import PermissionAudit.Program
import PermissionAudit.Program.Basic
import PermissionAudit.Program.CallGraph
import PermissionAudit.Program.Error
import PermissionAudit.Program.FlowGraph
import PermissionAudit.Program.Hierarchy
import PermissionAudit.Proofs.Detection.CallGraph
import PermissionAudit.Proofs.Detection.GuardedCall
import PermissionAudit.Proofs.Detection.Independence
import PermissionAudit.Proofs.Detection.Restriction
import PermissionAudit.Proofs.Detection.Sites
import PermissionAudit.Proofs.Dex.Sweep
import PermissionAudit.Proofs.Permission.Table
import PermissionAudit.Proofs.Program.CallGraph.Built
import PermissionAudit.Proofs.Program.CallGraph.ClassHierarchy
import PermissionAudit.Proofs.Program.CallGraph.Recorded
import PermissionAudit.Proofs.Program.Hierarchy
import PermissionAudit.Proofs.Registry.Body
import PermissionAudit.Proofs.Registry.Definition
import PermissionAudit.Proofs.Registry.Exclusion
import PermissionAudit.Proofs.Registry.Origin
import PermissionAudit.Proofs.Sequence.Checked
import PermissionAudit.Proofs.Sequence.FirstOccurrence
import PermissionAudit.Proofs.Text.Fields
import PermissionAudit.Proofs.Text.Utf8
import PermissionAudit.Proofs.Usage.Acceptance
import PermissionAudit.Proofs.Usage.Report
import PermissionAudit.Registry.Basic
import PermissionAudit.Registry.Body
import PermissionAudit.Sequence.Distinct
import PermissionAudit.Sequence.Fold
import PermissionAudit.Text.CaseFold
import PermissionAudit.Text.DecimalDigit
import PermissionAudit.Text.Digits
import PermissionAudit.Text.Fields
import PermissionAudit.Text.Mutf8
import PermissionAudit.Text.Quoted
import PermissionAudit.Text.Toggle
import PermissionAudit.Text.Unprintable
import PermissionAudit.Text.Utf16
import PermissionAudit.Text.Utf8
import PermissionAudit.Text.Utf8Range
import PermissionAudit.Text.WordChar
import PermissionAudit.Usage.CallSite
import PermissionAudit.Usage.FileName
import PermissionAudit.Usage.Report
import PermissionAudit.Proofs.Detection.Documents
import PermissionAudit.Proofs.Application.Output
import PermissionAudit.Proofs.Bytes.ReadBack
import PermissionAudit.Proofs.Dex.Assembler.Layout
import PermissionAudit.Proofs.Dex.Assembler.Steps
import PermissionAudit.Proofs.Text.Groups
import PermissionAudit.Proofs.Text.Mutf8
import PermissionAudit.Proofs.Text.Utf16
import PermissionAudit.Proofs.Dex.Assembler.Items
import PermissionAudit.Proofs.Dex.Assembler.RoundTrip
import PermissionAudit.Proofs.Machine.Basic
import PermissionAudit.Proofs.Machine.File
import PermissionAudit.Proofs.Machine.Decode
import PermissionAudit.Proofs.Machine.Text
import PermissionAudit.Proofs.Machine.Lookup
import PermissionAudit.Proofs.Machine.Registry
import PermissionAudit.Proofs.Machine.Body
import PermissionAudit.Proofs.Machine.FlowGraph
import PermissionAudit.Proofs.Machine.CallGraph
import PermissionAudit.Proofs.Machine.Reader
import PermissionAudit.Proofs.Dex.Delimited
import PermissionAudit.Proofs.Dex.Tiling
import PermissionAudit.Proofs.Registry.Successors
import PermissionAudit.Proofs.Archive.Stored
import PermissionAudit.Proofs.Application.Archive
import PermissionAudit.Proofs.Application.Primary
import PermissionAudit.Proofs.Dex.Assembler.Operation
import PermissionAudit.Proofs.Dex.ClassData
import PermissionAudit.Proofs.Program.FlowGraph
import PermissionAudit.Proofs.Dex.Location
import PermissionAudit.Proofs.Dex.Descriptor
import PermissionAudit.Proofs.Program.Dot.Lexing
import PermissionAudit.Proofs.Program.Dot.Document
import PermissionAudit.Proofs.Application.Order
import PermissionAudit.Proofs.Permission.Padding
import PermissionAudit.Proofs.Dex.Header
import PermissionAudit.Proofs.Dex.Integrity
import PermissionAudit.Proofs.Registry.Phantom
import PermissionAudit.Proofs.Bytes.Uleb128
import PermissionAudit.Proofs.Usage.Text
import PermissionAudit.Proofs.Application.Containment
import PermissionAudit.Proofs.Detection.Accounting
import PermissionAudit.Proofs.Dex.Assembler.Key
import PermissionAudit.Proofs.Dex.Effect
import PermissionAudit.Proofs.Program.Worklist
import PermissionAudit.Proofs.Dex.Assembler.Meaning
import PermissionAudit.Proofs.Dex.Assembler.Interning
import PermissionAudit.Proofs.Dex.Assembler.Identity
