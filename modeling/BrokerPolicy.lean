import BrokerPolicy.Broker
import BrokerPolicy.Config.Step
import BrokerPolicy.Host.Recorded
import BrokerPolicy.Json.Shape
import BrokerPolicy.Listing.Question
import BrokerPolicy.Main
import BrokerPolicy.Policy.Describe
import BrokerPolicy.Proofs.Version.Numeral
import BrokerPolicy.Version.Stretch
import BrokerPolicy.Version.Walk
import BrokerPolicy.Proofs.Version.Part
import BrokerPolicy.Proofs.Version.Order
import BrokerPolicy.Proofs.Version.Reading
import BrokerPolicy.Proofs.Config.Merge
import BrokerPolicy.Proofs.Config.Precedence
import BrokerPolicy.Proofs.Config.Load
import BrokerPolicy.Proofs.Config.Identity
import BrokerPolicy.Proofs.Config.Asking
import BrokerPolicy.Proofs.Host.Recorded
import BrokerPolicy.Proofs.Batch.Turn
import BrokerPolicy.Proofs.Batch.Account
import BrokerPolicy.Proofs.Broker.Convergence
import BrokerPolicy.Proofs.Text.Decimal
import BrokerPolicy.Proofs.Json.ReadBack
import BrokerPolicy.Proofs.Json.Record
import BrokerPolicy.Proofs.Listing.Reading
import BrokerPolicy.Proofs.Listing.Drift
import BrokerPolicy.Proofs.Text.Lines
import BrokerPolicy.Proofs.Listing.Table
import BrokerPolicy.Proofs.Listing.Agreement
import BrokerPolicy.Proofs.Listing.Session
import BrokerPolicy.Proofs.Batch.Rendering
import BrokerPolicy.Proofs.Host.Gate
import BrokerPolicy.Proofs.Json.Printable
import BrokerPolicy.Proofs.Policy.History
import BrokerPolicy.Proofs.Policy.Spelling
import BrokerPolicy.Proofs.Policy.Faults
import BrokerPolicy.Proofs.Policy.Grammar
import BrokerPolicy.Proofs.Host.Inquiry
import BrokerPolicy.Proofs.CommandLine.Run
import BrokerPolicy.Proofs.Json.Spelled
import BrokerPolicy.Proofs.Yaml.Scalar
import BrokerPolicy.Proofs.Yaml.Scan
import BrokerPolicy.Proofs.Yaml.Tree
import BrokerPolicy.Proofs.Yaml.Spelled
import BrokerPolicy.Proofs.Yaml.Document
import BrokerPolicy.Proofs.Config.Subset
import BrokerPolicy.Proofs.Json.Members
import BrokerPolicy.Proofs.Policy.Description
import BrokerPolicy.Proofs.Version.Tilde
import BrokerPolicy.Proofs.Version.Progress
import BrokerPolicy.Proofs.Version.Printed
import BrokerPolicy.Proofs.Json.Sameness
import BrokerPolicy.Proofs.Policy.Definition
import BrokerPolicy.Proofs.Policy.Reporting
import BrokerPolicy.Proofs.Config.Instances
import BrokerPolicy.Proofs.Listing.Whole
import BrokerPolicy.Proofs.Listing.Entry
import BrokerPolicy.Proofs.Config.Collection
import BrokerPolicy.Proofs.Binary64.Value
import BrokerPolicy.Proofs.Policy.Integer
import BrokerPolicy.Proofs.Policy.Respelling
import BrokerPolicy.Proofs.Policy.LastWrite
