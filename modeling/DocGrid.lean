import DocGrid.Config.File
import DocGrid.Filter.Model
import DocGrid.Proofs.Filter.StoreKeys
import DocGrid.Proofs.Query.Pages
import DocGrid.Proofs.Query.ValueCounts
import DocGrid.Proofs.Store.Batches
import DocGrid.Proofs.Store.Complements
import DocGrid.Proofs.Store.Selection
import DocGrid.Proofs.Terms.Refusal
import DocGrid.Proofs.Terms.RoundTrip
import DocGrid.Query.Reads
import DocGrid.Store.Memory
import DocGrid.Store.Remote.Service
import DocGrid.Store.Sql.Database
import DocGrid.Store.Sql.Url
import DocGrid.Proofs.Filter.Evaluation
import DocGrid.Proofs.Terms.Fragments
import DocGrid.Proofs.Store.Demands
import DocGrid.Proofs.Store.Loading
import DocGrid.Proofs.Store.Answers
import DocGrid.Proofs.Number.Nearest
import DocGrid.Proofs.Number.Shortest
import DocGrid.Proofs.Number.Texts
import DocGrid.Proofs.Time.Texts
import DocGrid.Proofs.Filter.OwnText
import DocGrid.Proofs.Query.Stages
import DocGrid.Proofs.Store.Runs
import DocGrid.Proofs.Store.SameOrder
import DocGrid.Proofs.Filter.Mappings
import DocGrid.Proofs.Store.Searches
import DocGrid.Proofs.Store.Patterns
import DocGrid.Proofs.Order.Preorder
import DocGrid.Proofs.Query.SortedReads
import DocGrid.Proofs.Filter.PlainPatterns
import DocGrid.Proofs.Query.PageNumbers
import DocGrid.Proofs.Query.OrderFailures
import DocGrid.Proofs.Query.SortRequests
import DocGrid.Proofs.Store.OrderEntries
import DocGrid.Proofs.Filter.JoinedTexts
import DocGrid.Proofs.Filter.KeyOrder
import DocGrid.Proofs.Filter.ListFields
import DocGrid.Proofs.Filter.NumeralOperands
import DocGrid.Proofs.Filter.QueryIdentity
import DocGrid.Proofs.Pipeline.Grouping
import DocGrid.Proofs.Pipeline.Unwinding
import DocGrid.Proofs.Query.PickedValues
import DocGrid.Proofs.Config.Loading
import DocGrid.Proofs.Terms.Flags
import DocGrid.Proofs.Terms.Groups
import DocGrid.Proofs.Terms.Positions
import DocGrid.Proofs.Filter.SearchTerms
import DocGrid.Proofs.Query.WidgetOrder
import DocGrid.Proofs.Store.DatabaseUrls
