import JobFile.Artifact.Load
import JobFile.Artifact.Registry
import JobFile.Block.Action
import JobFile.Block.Assign
import JobFile.Block.Context
import JobFile.Block.Draft
import JobFile.Block.Refusal
import JobFile.Block.Trace
import JobFile.Catalog.Credentials
import JobFile.Catalog.Scalar
import JobFile.Catalog.Stanza
import JobFile.Catalog.Write
import JobFile.Command.Arguments
import JobFile.Command.Preferences
import JobFile.Command.Run
import JobFile.Decimal.Literal
import JobFile.Decimal.Shortest
import JobFile.Decimal.Style
import JobFile.Description.Basic
import JobFile.Description.Decode
import JobFile.Description.Keyword
import JobFile.Description.Render
import JobFile.Digest.Sha256
import JobFile.Disk.Basic
import JobFile.Disk.Tree
import JobFile.Entries
import JobFile.Json.Basic
import JobFile.Json.Decode
import JobFile.Json.Mismatch
import JobFile.Json.Reading
import JobFile.Main
import JobFile.Proofs.Artifact.Loading
import JobFile.Proofs.Artifact.Registered
import JobFile.Proofs.Command.Views
import JobFile.Proofs.Command.Words
import JobFile.Proofs.Description.Agreement
import JobFile.Proofs.Description.Built
import JobFile.Proofs.Description.Check
import JobFile.Proofs.Description.Chosen
import JobFile.Proofs.Description.Driver
import JobFile.Proofs.Description.Guarded
import JobFile.Proofs.Description.Inline
import JobFile.Proofs.Description.Members
import JobFile.Proofs.Description.Place
import JobFile.Proofs.Description.Received
import JobFile.Proofs.Description.Refused
import JobFile.Proofs.Description.Rendering
import JobFile.Proofs.Description.Reordered
import JobFile.Proofs.Description.Roundtrip
import JobFile.Proofs.Description.Tree
import JobFile.Proofs.Description.Unread
import JobFile.Proofs.Description.Untouched
import JobFile.Proofs.Description.Untyped
import JobFile.Proofs.Json.Members
import JobFile.Proofs.Json.Permuted
import JobFile.Proofs.Json.Printed
import JobFile.Proofs.Json.ReadsBack
import JobFile.Proofs.Layout.Alike
import JobFile.Proofs.Layout.Avoiding
import JobFile.Proofs.Layout.Balance
import JobFile.Proofs.Layout.Brackets
import JobFile.Proofs.Layout.Checks
import JobFile.Proofs.Layout.Emission
import JobFile.Proofs.Layout.Item
import JobFile.Proofs.Layout.Pairing
import JobFile.Proofs.Layout.Program
import JobFile.Proofs.Layout.Session
import JobFile.Proofs.Layout.Spine
import JobFile.Proofs.Layout.Surroundings
import JobFile.Proofs.Layout.Written
import JobFile.Proofs.Reading.CredentialLines
import JobFile.Proofs.Reading.CredentialPaths
import JobFile.Proofs.Reading.Denoted
import JobFile.Proofs.Reading.Heredoc
import JobFile.Proofs.Reading.Legible
import JobFile.Proofs.Reading.Lines
import JobFile.Proofs.Reading.Literal
import JobFile.Proofs.Reading.MapLines
import JobFile.Proofs.Reading.Numeral
import JobFile.Proofs.Reading.Outline
import JobFile.Proofs.Reading.ReadBack
import JobFile.Proofs.Reading.Reader
import JobFile.Proofs.Reading.Shape
import JobFile.Proofs.Reading.Token
import JobFile.Proofs.Record.Encoded
import JobFile.Proofs.Record.Filled
import JobFile.Proofs.Record.Unbroken
import JobFile.Proofs.Text.ByteOrder
import JobFile.Proofs.Value.Denoted
import JobFile.Proofs.Value.Flattened
import JobFile.Proofs.Value.Inside
import JobFile.Proofs.Value.Occurrence
import JobFile.Record.Basic
import JobFile.Record.Decode
import JobFile.Text.Blank
import JobFile.Text.Extending
import JobFile.Text.Ignorable
import JobFile.Text.Integer
import JobFile.Text.Printable
import JobFile.Text.Quoted
import JobFile.Text.QuotedRoundtrip
import JobFile.Text.Shown
import JobFile.Value.Basic
import JobFile.Value.Decode
import JobFile.Value.Flatten
