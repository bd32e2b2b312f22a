import FleetCatalog.Context.Record
import FleetCatalog.Catalog.Registry
import FleetCatalog.Configuration.Editing
import FleetCatalog.Patch.Stage
import FleetCatalog.Store.Memory
import FleetCatalog.Store.Outage
import FleetCatalog.Template.Eval
import FleetCatalog.Value.Reader
import FleetCatalog.Value.Text
import FleetCatalog.Proofs.Catalog.Acyclicity
import FleetCatalog.Proofs.Store.History
import FleetCatalog.Proofs.Trace.Resolution
import FleetCatalog.Proofs.Patch.Effect
import FleetCatalog.Proofs.Store.Ledger
import FleetCatalog.Proofs.Catalog.Completeness
import FleetCatalog.Proofs.Configuration.Clients
import FleetCatalog.Proofs.Configuration.Interleaving
import FleetCatalog.Proofs.Settings.Spelling
import FleetCatalog.Proofs.Template.Scan
import FleetCatalog.Proofs.Template.Evaluation
import FleetCatalog.Proofs.Trace.Literal
import FleetCatalog.Proofs.Settings.Precedence
import FleetCatalog.Proofs.Configuration.Inheritance
import FleetCatalog.Proofs.Catalog.EventLog
import FleetCatalog.Proofs.Patch.Replay
import FleetCatalog.Proofs.Record.Component
import FleetCatalog.Proofs.Record.RoundTrip
import FleetCatalog.Proofs.Trace.Component
import FleetCatalog.Proofs.Patch.Sources
import FleetCatalog.Proofs.Patch.Literal
import FleetCatalog.Proofs.Patch.Names
import FleetCatalog.Proofs.Patch.Matching
import FleetCatalog.Proofs.Decimal.Reading
import FleetCatalog.Proofs.Catalog.Schema
import FleetCatalog.Proofs.Catalog.Lineage
import FleetCatalog.Proofs.Catalog.Admission
import FleetCatalog.Proofs.Configuration.Splicing
import FleetCatalog.Proofs.Configuration.Overriding
import FleetCatalog.Proofs.Patch.Uniqueness
import FleetCatalog.Proofs.Patch.Commutation
import FleetCatalog.Proofs.Trace.Calls
import FleetCatalog.Proofs.Settings.Interchange
import FleetCatalog.Proofs.Template.Address
import FleetCatalog.Proofs.Settings.Construction
import FleetCatalog.Proofs.Template.Grammar
