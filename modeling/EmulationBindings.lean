import EmulationBindings.Main
import EmulationBindings.Proofs.Table.Window
import EmulationBindings.Proofs.Document.Agreement
import EmulationBindings.Proofs.Generation.Delivery
import EmulationBindings.Proofs.Generation.Aftermath
import EmulationBindings.Proofs.Generation.Rerun
import EmulationBindings.Proofs.Generation.Session
import EmulationBindings.Proofs.Document.Entries
import EmulationBindings.Proofs.Document.Decoding
import EmulationBindings.Proofs.Disk.NulFree
import EmulationBindings.Proofs.Tagged
import EmulationBindings.Proofs.Generation.Refusals
import EmulationBindings.Proofs.Endings
import EmulationBindings.Proofs.Json.Strings
import EmulationBindings.Proofs.Json.Tokens
import EmulationBindings.Proofs.Text.Digits
import EmulationBindings.Proofs.Json.RoundTrip
import EmulationBindings.Proofs.Report.Fields
import EmulationBindings.Proofs.Generation.ReportFile
import EmulationBindings.Proofs.Table.Profiles
import EmulationBindings.Proofs.Metadata.Lookup
import EmulationBindings.Proofs.Metadata.Truncation
import EmulationBindings.Proofs.Calls
import EmulationBindings.Proofs.Table.LineEndings
import EmulationBindings.Proofs.Table.Acceptance
import EmulationBindings.Proofs.Document.EmptyNames
import EmulationBindings.Proofs.Generation.ReadBack
import EmulationBindings.Proofs.Table.Duplicates
import EmulationBindings.Proofs.Table.Interleaving
import EmulationBindings.Proofs.Generation.ReportPlace
import EmulationBindings.Proofs.Directives
import EmulationBindings.Proofs.Table.FirstMarker
import EmulationBindings.Proofs.Text.Splitting
import EmulationBindings.Proofs.Metadata.TablePath
