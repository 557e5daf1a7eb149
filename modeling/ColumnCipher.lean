import ColumnCipher.Algorithm.Basic
import ColumnCipher.Algorithm.Properties
import ColumnCipher.Bytes
import ColumnCipher.CommandLine
import ColumnCipher.Config.Basic
import ColumnCipher.Config.File
import ColumnCipher.Config.Reader
import ColumnCipher.Config.Writer
import ColumnCipher.Context
import ColumnCipher.Crypto.Aes
import ColumnCipher.Crypto.ChaCha20
import ColumnCipher.Crypto.Sha256
import ColumnCipher.Crypto.Siv
import ColumnCipher.Decimal.Integer
import ColumnCipher.Decimal.Shortest
import ColumnCipher.Dict
import ColumnCipher.Document.Basic
import ColumnCipher.Document.Json
import ColumnCipher.Encryptor
import ColumnCipher.Error
import ColumnCipher.Main
import ColumnCipher.Publisher
import ColumnCipher.Publisher.Run
import ColumnCipher.Registry
import ColumnCipher.Rule.Basic
import ColumnCipher.Rule.Batch
import ColumnCipher.Rule.Table
import ColumnCipher.Rule.Validation
import ColumnCipher.Schema
import ColumnCipher.Text.Base64
import ColumnCipher.Text.Blank
import ColumnCipher.Text.Case
import ColumnCipher.Text.CaseData
import ColumnCipher.Text.Hex
import ColumnCipher.Text.Quoted
import ColumnCipher.Text.QuotedData
import ColumnCipher.Text.Utf8
import ColumnCipher.Toml.Line
import ColumnCipher.Toml.Scalar
import ColumnCipher.Toml.Statement
import ColumnCipher.Toml.Text
import ColumnCipher.Toml.Tree
import ColumnCipher.Toml.Value
import ColumnCipher.Toml.WrittenText
import ColumnCipher.Value
import ColumnCipher.Proofs.CipherText
import ColumnCipher.Proofs.Encryptors
import ColumnCipher.Proofs.Acceptance
import ColumnCipher.Proofs.Resolution
import ColumnCipher.Proofs.RoundTrip
import ColumnCipher.Proofs.Generations
import ColumnCipher.Proofs.SchemaHistory
import ColumnCipher.Proofs.BatchCalls
import ColumnCipher.Proofs.Folding
import ColumnCipher.Proofs.Spelling
import ColumnCipher.Proofs.AcceptedTexts
import ColumnCipher.Proofs.DomainSeparation
import ColumnCipher.Proofs.EqualityPredicates
import ColumnCipher.Proofs.WrittenConfigurations
import ColumnCipher.Proofs.RandomizedTexts
import ColumnCipher.Proofs.Report
import ColumnCipher.Proofs.UpperCaseNames
import ColumnCipher.Proofs.LastDefinitions
import ColumnCipher.Proofs.KeyChecks
import ColumnCipher.Proofs.IndexInput
import ColumnCipher.Proofs.ListedColumns
import ColumnCipher.Proofs.ReverseLookups
import ColumnCipher.Proofs.QueryModes
import ColumnCipher.Proofs.PlainBytes
import ColumnCipher.Proofs.EditedConfigurations
import ColumnCipher.Proofs.SchemaTables
import ColumnCipher.Proofs.Arguments
