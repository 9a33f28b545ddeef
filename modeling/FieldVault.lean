import FieldVault.Reading
import FieldVault.Event
import FieldVault.Script
import FieldVault.CommandLine.Directory
import FieldVault.Main
import FieldVault.Proofs.Transparency
import FieldVault.Proofs.Sealing
import FieldVault.Proofs.Reading.Owner
import FieldVault.Proofs.Event
import FieldVault.Proofs.Reading.Strict
import FieldVault.Proofs.Decryption.Tenant
import FieldVault.Proofs.RoundTrip
import FieldVault.Proofs.Tampering
import FieldVault.Proofs.Journal
import FieldVault.Proofs.Decryption.Failures
import FieldVault.Proofs.Report.Counts
import FieldVault.Proofs.Tolerance
import FieldVault.Proofs.Encryption.Ciphertexts
import FieldVault.Proofs.Encryption.Coverage
import FieldVault.Proofs.Encryption.Confluence
import FieldVault.Proofs.Randomness
import FieldVault.Proofs.Switching.AllOrNothing
import FieldVault.Proofs.Stopping
import FieldVault.Proofs.Atomicity
import FieldVault.Proofs.Frame
import FieldVault.Proofs.Unlocked
import FieldVault.Proofs.FieldCipher.Lifetime
import FieldVault.Proofs.Key.Routes
import FieldVault.Proofs.LookupHash.Normalization
import FieldVault.Proofs.Store.History
import FieldVault.Proofs.Store.Maps
import FieldVault.Proofs.Token.Form
import FieldVault.Proofs.Json.Record
import FieldVault.Proofs.RecordId
import FieldVault.Proofs.Text.ByteOrder
import FieldVault.Proofs.Snapshot
import FieldVault.Proofs.Search
import FieldVault.Proofs.Search.Encrypted
import FieldVault.Proofs.Search.Stages
import FieldVault.Proofs.CommandLine.Directory
import FieldVault.Proofs.CommandLine.Migration
