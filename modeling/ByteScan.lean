import ByteScan.Main
import ByteScan.Search.Script
import ByteScan.Proofs.Search.Walk
import ByteScan.Proofs.Search.Series
import ByteScan.Proofs.Search.Machine
import ByteScan.Proofs.Search.Comparison
import ByteScan.Proofs.Search.Losses
import ByteScan.Proofs.Search.Extension
import ByteScan.Proofs.Search.Script
import ByteScan.Proofs.Search.Leading
import ByteScan.Proofs.Signature.Equality
import ByteScan.Proofs.Signature.RoundTrip
import ByteScan.Proofs.Signature.Descriptions
import ByteScan.Proofs.Database.Lines
import ByteScan.Proofs.Database.Sections
import ByteScan.Proofs.Database.Lenient
import ByteScan.Proofs.Database.Strictness
import ByteScan.Proofs.Database.Concatenation
import ByteScan.Proofs.Database.FirstFault
import ByteScan.Proofs.Command.SingleMatch
import ByteScan.Proofs.Report.Context
import ByteScan.Proofs.Report.Accounting
import ByteScan.Proofs.Database.Hits
import ByteScan.Proofs.Database.Written
import ByteScan.Proofs.Json.Grammar
import ByteScan.Proofs.Command.Printing
import ByteScan.Proofs.Command.Searching
import ByteScan.Proofs.Database.Single
import ByteScan.Proofs.Command.Listed
import ByteScan.Proofs.Command.Masked
import ByteScan.Proofs.Command.Logging
import ByteScan.Proofs.Json.Reading
import ByteScan.Proofs.Config.Members
import ByteScan.Proofs.Config.RoundTrip
import ByteScan.Proofs.CommandLine.Words
import ByteScan.Proofs.CommandLine.Written
import ByteScan.Proofs.CommandLine.RoundTrip
import ByteScan.Proofs.Command.Cut
import ByteScan.Proofs.Command.Limit
import ByteScan.Proofs.Tally.Agreement
import ByteScan.Proofs.Report.Documents
import ByteScan.Proofs.Report.Lines
import ByteScan.Proofs.HexBytes.Decoding
import ByteScan.Proofs.HexBytes.Joining
import ByteScan.Proofs.CommandLine.Complete
import ByteScan.Proofs.CommandLine.Offset
import ByteScan.Proofs.Size.Rounding
import ByteScan.Proofs.Size.Shown
