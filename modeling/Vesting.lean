import Vesting.Amendment
import Vesting.Csv.File
import Vesting.Distribution.File
import Vesting.Main
import Vesting.Proofs.Distribution.Rebuilding
import Vesting.Proofs.Grant.Cancellation
import Vesting.Proofs.Inclusion.Uniqueness
import Vesting.Proofs.Merkle.Binding
import Vesting.Settings.Shared
import Vesting.Proofs.Distribution.Canonical
import Vesting.Proofs.Distribution.Verdict
import Vesting.Proofs.Grant.Payout
import Vesting.Proofs.Json.Number
import Vesting.Proofs.Json.RoundTrip
import Vesting.Proofs.Text.Utf8
import Vesting.Proofs.Distribution.Reading
import Vesting.Proofs.Distribution.File
import Vesting.Grant.InPlace
import Vesting.Proofs.CommandLine.Reading
import Vesting.Proofs.Grant.History
import Vesting.Proofs.Grant.InPlace
import Vesting.Proofs.CommandLine.Verifying
import Vesting.Proofs.Program.Outcome
import Vesting.Proofs.Program.Verify
import Vesting.Proofs.Program.Agreement
import Vesting.Proofs.Merkle.Split
import Vesting.Proofs.Text.WholeNumber
import Vesting.Proofs.Csv.Rows
import Vesting.Proofs.Csv.Records
import Vesting.Proofs.FileSystem
import Vesting.Proofs.Program.Effects
import Vesting.Proofs.Program.Rotate
import Vesting.Proofs.Program.Kept
import Vesting.Proofs.Program.Create
import Vesting.Proofs.Merkle.Dimensions
import Vesting.Proofs.Merkle.Exchange
import Vesting.Proofs.Inclusion.Tampering
import Vesting.Proofs.Record.Packing
import Vesting.Proofs.Grant.Funding
import Vesting.Proofs.Hex
import Vesting.Proofs.Loading
import Vesting.Proofs.Amendment.Recipients
import Vesting.Proofs.Csv.Numbering
import Vesting.Proofs.Csv.Columns
import Vesting.Proofs.Distribution.Lookup
import Vesting.Settings.InPlace
import Vesting.Proofs.Settings.InPlace
import Vesting.Sample.File
import Vesting.Proofs.Sample.Drawing
import Vesting.Proofs.Sample.File
