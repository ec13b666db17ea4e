import CompilerDriver.Main
import CompilerDriver.Scalar
import CompilerDriver.Proofs.Accepted
import CompilerDriver.Proofs.CommandLine.Grammar
import CompilerDriver.Proofs.CommandLine.Records
import CompilerDriver.Proofs.CommandLine.Reading
import CompilerDriver.Proofs.CommandLine.Root
import CompilerDriver.Proofs.CommandLine.Spelling
import CompilerDriver.Proofs.CommandLine.Determined
import CompilerDriver.Proofs.Dispatch
import CompilerDriver.Proofs.Forwarding
import CompilerDriver.Proofs.Rereading
import CompilerDriver.Proofs.Wording
import CompilerDriver.Proofs.HelpText
import CompilerDriver.Proofs.HelpFaithful
import CompilerDriver.Proofs.Expressible
import CompilerDriver.Proofs.Isolation
import CompilerDriver.Proofs.WellFormed
import CompilerDriver.Proofs.CheckStarts
import CompilerDriver.Proofs.Text.Cut
import CompilerDriver.Proofs.Text.Lines
import CompilerDriver.Proofs.Text.ByteOrder
import CompilerDriver.Proofs.File.Places
import CompilerDriver.Proofs.File.Changes
import CompilerDriver.Proofs.File.Writing
import CompilerDriver.Proofs.Discovery
import CompilerDriver.Proofs.HelpBlocks
import CompilerDriver.Proofs.Pruning
import CompilerDriver.Proofs.Report
import CompilerDriver.Proofs.Session
import CompilerDriver.Proofs.Json.Scalars
import CompilerDriver.Proofs.Json.Containers
import CompilerDriver.Proofs.Form
import CompilerDriver.Proofs.ConfigurationFile
import CompilerDriver.Proofs.Registration
import CompilerDriver.Proofs.UnknownName
import CompilerDriver.Proofs.Time.Calendar
import CompilerDriver.Time.Span
import CompilerDriver.Proofs.Due
import CompilerDriver.Proofs.Time.Timestamp
import CompilerDriver.Proofs.CheckFile
import CompilerDriver.Proofs.Recording
import CompilerDriver.Proofs.HelpColumns
