import TypeMapping.Dict
import TypeMapping.Discovery
import TypeMapping.FrontEnd
import TypeMapping.Json.Reader
import TypeMapping.NodeTable
import TypeMapping.Number.Shortest
import TypeMapping.Options.Load
import TypeMapping.Options.OfJson
import TypeMapping.Proofs.FirstMatch
import TypeMapping.Proofs.Soundness
import TypeMapping.Proofs.Threaded
import TypeMapping.Proofs.Transparency
import TypeMapping.Report
import TypeMapping.Standard
import TypeMapping.Text.Quoted
import TypeMapping.TypeTerm.Spelling
import TypeMapping.Proofs.Frame
import TypeMapping.Proofs.Resolvable
import TypeMapping.Proofs.Idempotence
import TypeMapping.Proofs.Batch
import TypeMapping.Proofs.Retirement
import TypeMapping.Proofs.Absence
import TypeMapping.Proofs.Priority
import TypeMapping.Proofs.ByteOrder
import TypeMapping.Proofs.Verdicts
import TypeMapping.Proofs.History
import TypeMapping.Proofs.Refusal
import TypeMapping.Proofs.Exclusion
import TypeMapping.Proofs.Inventory
import TypeMapping.Proofs.ByName
import TypeMapping.Proofs.Discoveries
import TypeMapping.Proofs.Wrappers
import TypeMapping.Proofs.Renderings
import TypeMapping.Proofs.Collisions
import TypeMapping.Proofs.Nesting
import TypeMapping.Proofs.Documents
import TypeMapping.Proofs.Grouping
