import Octet.Assembly.Encoder
import Octet.Assembly.Grammar
import Octet.Assembly.Guarded
import Octet.Assembly.Image
import Octet.Assembly.Layout
import Octet.Assembly.Lexeme
import Octet.Assembly.Listing
import Octet.Assembly.Program
import Octet.Assembly.Session
import Octet.Assembly.Statement
import Octet.Assembly.Token
import Octet.Character.Alphabetic
import Octet.Character.Blank
import Octet.Character.Decimal
import Octet.Character.Lowercase
import Octet.Character.Numeric
import Octet.Character.Printable
import Octet.Character.Range
import Octet.Diagnostic.Basic
import Octet.Diagnostic.Bulletin
import Octet.Diagnostic.Cause
import Octet.Diagnostic.Render
import Octet.Disassembly.AddressNames
import Octet.Disassembly.Decoded
import Octet.Disassembly.Listing
import Octet.Disassembly.Source
import Octet.Machine.Basic
import Octet.Machine.Breakpoint
import Octet.Machine.Dump
import Octet.Machine.Host
import Octet.Machine.Memory
import Octet.Machine.Run
import Octet.Main
import Octet.Opcode
import Octet.Proofs.Bindings
import Octet.Proofs.Canonical
import Octet.Proofs.Characters
import Octet.Proofs.Columns
import Octet.Proofs.Decoding
import Octet.Proofs.Dumping
import Octet.Proofs.Editing
import Octet.Proofs.Encoding
import Octet.Proofs.Endless
import Octet.Proofs.Essence
import Octet.Proofs.Execution
import Octet.Proofs.Faults
import Octet.Proofs.Files
import Octet.Proofs.Following
import Octet.Proofs.Grammar
import Octet.Proofs.Hosting
import Octet.Proofs.Instructions
import Octet.Proofs.Joining
import Octet.Proofs.Labelling
import Octet.Proofs.Layout
import Octet.Proofs.Lexing
import Octet.Proofs.LineEnds
import Octet.Proofs.Listings
import Octet.Proofs.Loading
import Octet.Proofs.Meaning
import Octet.Proofs.Memory
import Octet.Proofs.Messages
import Octet.Proofs.Mistakes
import Octet.Proofs.Munch
import Octet.Proofs.Naming
import Octet.Proofs.Outcomes
import Octet.Proofs.Outputs
import Octet.Proofs.Pointing
import Octet.Proofs.Printing
import Octet.Proofs.Reading
import Octet.Proofs.Recovery
import Octet.Proofs.Relocation
import Octet.Proofs.Renaming
import Octet.Proofs.RoundTrip
import Octet.Proofs.Runs
import Octet.Proofs.Sessions
import Octet.Proofs.Spacing
import Octet.Proofs.Spelling
import Octet.Proofs.Steps
import Octet.Proofs.Sweeping
import Octet.Proofs.Switches
import Octet.Proofs.Symbols
import Octet.Proofs.Tiling
import Octet.Proofs.Tokens
import Octet.Proofs.Toolchain
import Octet.Proofs.Tracing
import Octet.Proofs.Unbroken
import Octet.Proofs.Underlining
import Octet.Proofs.Undressing
import Octet.Proofs.Utf8
import Octet.Proofs.Viability
import Octet.Proofs.Watching
import Octet.Proofs.Wellformed
import Octet.Proofs.Writing
import Octet.Source.Line
import Octet.Source.Span
import Octet.Text.Hex
import Octet.Text.Lines
import Octet.Text.Numeral
import Octet.Text.Quoted
import Octet.Text.Spelling
import Octet.Text.Style
import Octet.Text.Utf8
import Octet.Tool
import Octet.Tool.Assemble
import Octet.Tool.Command
import Octet.Tool.Disassemble
import Octet.Tool.Execute
import Octet.Tool.FileTree
import Octet.Tool.Options
import Octet.Tool.Report
import Octet.Tool.TextFile
