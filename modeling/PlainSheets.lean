import PlainSheets.Cell.Payload
import PlainSheets.Main
import PlainSheets.Proofs.Query.SheetName
import PlainSheets.Proofs.Text.Digits
import PlainSheets.Proofs.Json.Quoted
import PlainSheets.Proofs.Binary64.Nearest
import PlainSheets.Proofs.Binary64.Shortest
import PlainSheets.Proofs.Cell.Readable
import PlainSheets.Proofs.Cell.RoundTrip
import PlainSheets.Proofs.Store.Agreement
import PlainSheets.Proofs.Store.Ledger
import PlainSheets.Proofs.Store.FailedWrites
import PlainSheets.Proofs.Query.FullQuestion
import PlainSheets.Proofs.Query.BothStores
import PlainSheets.Proofs.Query.OwnName
import PlainSheets.Proofs.Query.Annotated
import PlainSheets.Proofs.Query.Clients
import PlainSheets.Proofs.Report.Undeclared
import PlainSheets.Proofs.Report.Returned
import PlainSheets.Proofs.Query.Shape
import PlainSheets.Proofs.Cell.JsonForm
import PlainSheets.Proofs.Request.Contained
import PlainSheets.Proofs.Store.Keyed
import PlainSheets.Proofs.Store.Effect
import PlainSheets.Proofs.Store.Writes
import PlainSheets.Proofs.Store.Creation
import PlainSheets.Proofs.Store.Times
import PlainSheets.Proofs.Cell.SortPlace
import PlainSheets.Proofs.Query.Sorted
import PlainSheets.Proofs.Cell.Reloaded
import PlainSheets.Proofs.Store.Parts
import PlainSheets.Proofs.Query.Phrases
import PlainSheets.Proofs.Query.FilterPatterns
import PlainSheets.Proofs.Query.Comparison
import PlainSheets.Proofs.Report.Direction
import PlainSheets.Proofs.Report.Trends
import PlainSheets.Proofs.Report.Joined
import PlainSheets.Proofs.Report.Reconciled
import PlainSheets.Proofs.Report.Outliers
import PlainSheets.Proofs.Report.Reordered
import PlainSheets.Proofs.Query.EqualNumbers
import PlainSheets.Proofs.Grid.Imported
import PlainSheets.Proofs.Query.Confidence
import PlainSheets.Proofs.Query.Tabled
