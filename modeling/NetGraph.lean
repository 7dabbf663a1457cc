import NetGraph.EventLog.Record
import NetGraph.Files.Tree
import NetGraph.Main
import NetGraph.Yaml.Tree
import NetGraph.Proofs.Header
import NetGraph.Proofs.Store
import NetGraph.Proofs.PortEntry
import NetGraph.Proofs.EventLog
import NetGraph.Proofs.Operation
import NetGraph.Proofs.PolicyShape
import NetGraph.Proofs.NewRule
import NetGraph.Proofs.TwoEnds
import NetGraph.Proofs.Noninterference
import NetGraph.Proofs.EventHistory
import NetGraph.Proofs.WellFormed
import NetGraph.Proofs.GraphReading
import NetGraph.Proofs.Deletion
import NetGraph.Proofs.Delivery
import NetGraph.Proofs.Files
import NetGraph.Proofs.GenerateCommand
import NetGraph.Proofs.Replay
import NetGraph.Proofs.PortClass
import NetGraph.Proofs.IgnoredPort
import NetGraph.Proofs.Path
import NetGraph.Proofs.Naming
import NetGraph.Proofs.ExplicitPort
import NetGraph.Proofs.IdentifierGrammar
import NetGraph.Proofs.UnknownNode
