import TokenScan.Main
import TokenScan.Scan.Pieces
import TokenScan.Scan.Reader
import TokenScan.Scan.Session
import TokenScan.Proofs.Scan.Steps
import TokenScan.Proofs.Scan.Factorization
import TokenScan.Proofs.Scan.Writing
import TokenScan.Proofs.Scan.Slices
import TokenScan.Proofs.Source.Walk
import TokenScan.Proofs.Scan.Appending
import TokenScan.Proofs.Scan.Places
import TokenScan.Proofs.Scan.Arithmetic
import TokenScan.Proofs.Scan.Agreement
import TokenScan.Proofs.Scan.Keywords
import TokenScan.Proofs.Source.Locations
import TokenScan.Proofs.Command.Outcome
import TokenScan.Proofs.Command.Channels
import TokenScan.Proofs.Scan.Returns
import TokenScan.Proofs.Scan.Bounds
import TokenScan.Proofs.Command.Decoration
import TokenScan.Proofs.Command.Colors
import TokenScan.Proofs.Diagnostic.Highlight
import TokenScan.Proofs.Diagnostic.Carets
import TokenScan.Proofs.Diagnostic.Layout
import TokenScan.Proofs.Token.Listing
import TokenScan.Proofs.Scan.Compacting
import TokenScan.Proofs.Scan.Numbers
import TokenScan.Proofs.Scan.Warnings
import TokenScan.Proofs.Scan.Sorting
import TokenScan.Proofs.Source.LineTable
import TokenScan.Proofs.Scan.Sessions
import TokenScan.Proofs.Scan.Readers
import TokenScan.Proofs.Scan.Progress
import TokenScan.Proofs.Command.Spelling
import TokenScan.Proofs.Command.Arguments
import TokenScan.Proofs.Scan.Operations
import TokenScan.Proofs.Scan.Suffixes
import TokenScan.Proofs.Styled.Printing
