import Pipework.Text.Utf8
import Pipework.Text.Blank
import Pipework.Text.Quoted
import Pipework.Data.Dict
import Pipework.Decimal.Layout
import Pipework.Codec.Hex
import Pipework.Codec.Base64
import Pipework.Codec.Percent
import Pipework.Codec.Octet
import Pipework.Codec.Charset
import Pipework.Crypto.Sha256
import Pipework.Crypto.Pbkdf2
import Pipework.Crypto.Gcm
import Pipework.Json.Printer
import Pipework.Json.Parser
import Pipework.Value.Render
import Pipework.Arguments
import Pipework.Transform.Cast
import Pipework.Transform.Notation
import Pipework.Transform.Octets
import Pipework.Transform.Keys
import Pipework.Transform.Aead
import Pipework.Transform.Envelope
import Pipework.Pipeline.Run
import Pipework.Transform.Sample
import Pipework.Cookbook.Apply
import Pipework.CommandLine
import Pipework.Main
import Pipework.Yaml.Cursor
import Pipework.Yaml.PlainScalar
import Pipework.Yaml.QuotedScalar
import Pipework.Yaml.BlockScalar
import Pipework.Yaml.Token
import Pipework.Yaml.Node
import Pipework.Proofs.Arguments
import Pipework.Proofs.Crypto.Gcm
import Pipework.Proofs.Data.Except
import Pipework.Proofs.Data.Refusal
import Pipework.Proofs.Pipeline.Fold
import Pipework.Proofs.Pipeline.Derive
import Pipework.Proofs.Transform.Aead
import Pipework.Proofs.Decimal.Digits
import Pipework.Proofs.Json.Number
import Pipework.Proofs.Json.RoundTrip
import Pipework.Proofs.Value.Json
import Pipework.Proofs.Value.Correspondence
import Pipework.Proofs.Transform.Notation
import Pipework.Proofs.Codec.Base64
import Pipework.Proofs.Text.Split
import Pipework.Proofs.Text.Blank
import Pipework.Proofs.Text.Utf8
import Pipework.Proofs.Random
import Pipework.Proofs.Transform.Envelope
import Pipework.Proofs.Transform.Secret
import Pipework.Proofs.Codec.Hex
import Pipework.Proofs.Transform.Hex
import Pipework.Proofs.Codec.Percent
import Pipework.Proofs.Transform.Percent
import Pipework.Proofs.Transform.Base64
import Pipework.Proofs.Transform.SealedBox
import Pipework.Proofs.Registry
import Pipework.Proofs.Cookbook.Definition
import Pipework.Proofs.Pipeline.Splice
import Pipework.Proofs.Cookbook.Apply
import Pipework.Proofs.Cookbook.Position
import Pipework.Proofs.Specifier
import Pipework.Proofs.Cookbook.Stage
import Pipework.Proofs.Cookbook.Nesting
import Pipework.Proofs.Cookbook.Merge
import Pipework.Proofs.Cookbook.Naming
import Pipework.Proofs.Document.Value
import Pipework.Proofs.Document.Correspondence
import Pipework.Proofs.Document.Literal
import Pipework.Proofs.Cookbook.Override
import Pipework.Proofs.Cookbook.Derive
import Pipework.Proofs.Cookbook.Build
import Pipework.Proofs.Transform.Respelled
import Pipework.Proofs.Transform.Checked
import Pipework.Proofs.Pipeline.Report
import Pipework.Proofs.Pipeline.Wording
import Pipework.Proofs.Codec.Bounds
import Pipework.Proofs.Codec.Reading
import Pipework.Proofs.Transform.Attempt
import Pipework.Proofs.Transform.Draws
import Pipework.Proofs.Codec.Charset
import Pipework.Proofs.Transform.Cast
import Pipework.Proofs.Transform.Keys
import Pipework.Proofs.Transform.Octets
import Pipework.Proofs.Recipe
import Pipework.Proofs.CommandLine
