import KeyVault.Vault.Operation
import KeyVault.Proofs.Json.Lexis
import KeyVault.Proofs.Json.Number
import KeyVault.Proofs.Json.Text
import KeyVault.Proofs.Json.Brackets
import KeyVault.Proofs.Json.Restores
import KeyVault.Proofs.Json.Record
import KeyVault.Proofs.Json.Value
import KeyVault.Proofs.Records
import KeyVault.Proofs.Text.Base64
import KeyVault.Proofs.Token
import KeyVault.Proofs.Vault.Encrypt
import KeyVault.Proofs.Vault.Merge
import KeyVault.Proofs.Vault.Effect
import KeyVault.Proofs.Vault.Run
import KeyVault.Proofs.Vault.RoundTrip
import KeyVault.Proofs.Vault.Transfer
import KeyVault.Proofs.Vault.Pending
import KeyVault.Proofs.Vault.Failure
import KeyVault.Proofs.Vault.Readable
import KeyVault.Proofs.Vault.Restart
import KeyVault.Proofs.Vault.Peers
import KeyVault.Proofs.Vault.History
import KeyVault.Proofs.Vault.Sealing
import KeyVault.Proofs.Vault.Keystore
import KeyVault.Proofs.Vault.Waiting
import KeyVault.Proofs.Host
import KeyVault.Proofs.Vault.ManyBags
import KeyVault.Proofs.Vault.Naming
import KeyVault.Proofs.Vault.Adoption
import KeyVault.Proofs.Json.Streams
import KeyVault.Proofs.Json.Readers
import KeyVault.Proofs.Json.Compact
import KeyVault.Proofs.Json.Spelling
import KeyVault.Proofs.RecordForms
import KeyVault.Proofs.Except
import KeyVault.Proofs.Cipher.Blob
import KeyVault.Proofs.Vault.Reencryption
import KeyVault.Proofs.Vault.Verdict
import KeyVault.Proofs.Vault.Entries
import KeyVault.Proofs.Vault.LocalKey
import KeyVault.Proofs.Vault.Canonical
import KeyVault.Proofs.Json.Cut
import KeyVault.Proofs.Json.Delimited
import KeyVault.Proofs.Truncation
import KeyVault.Proofs.Key.Salt
import KeyVault.Proofs.DataTypeSet.Canonical
import KeyVault.Proofs.Vault.Secrecy
