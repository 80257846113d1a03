import LinkShelf.Main
import LinkShelf.Proofs.Alike
import LinkShelf.Proofs.Bookmark.Clash
import LinkShelf.Proofs.Bookmark.Codec
import LinkShelf.Proofs.Bookmark.Decoding
import LinkShelf.Proofs.Bookmark.Order
import LinkShelf.Proofs.Bookmark.ReadCounts
import LinkShelf.Proofs.Bookmark.ReadRecords
import LinkShelf.Proofs.Bookmark.TagText
import LinkShelf.Proofs.Bookmark.Tags
import LinkShelf.Proofs.Calendar.DayNumbers
import LinkShelf.Proofs.Calendar.Months
import LinkShelf.Proofs.Calendar.Reckoning
import LinkShelf.Proofs.Calendar.RecordText
import LinkShelf.Proofs.Calendar.RelativeDays
import LinkShelf.Proofs.Calendar.WholeSeconds
import LinkShelf.Proofs.Calendar.WrittenDays
import LinkShelf.Proofs.Calendar.Yesterday
import LinkShelf.Proofs.CommandLine.Addition
import LinkShelf.Proofs.CommandLine.FileImport
import LinkShelf.Proofs.CommandLine.GivenFields
import LinkShelf.Proofs.CommandLine.Import
import LinkShelf.Proofs.CommandLine.Limits
import LinkShelf.Proofs.CommandLine.Runs
import LinkShelf.Proofs.CommandLine.Timeline
import LinkShelf.Proofs.CommandLine.Upkeep
import LinkShelf.Proofs.CommandLine.WellFormed
import LinkShelf.Proofs.Config
import LinkShelf.Proofs.ConfigFaults
import LinkShelf.Proofs.Journal.Calls
import LinkShelf.Proofs.Journal.OperationsLog
import LinkShelf.Proofs.Json.ReadParts
import LinkShelf.Proofs.Json.RoundTrip
import LinkShelf.Proofs.Json.TextRoundTrip
import LinkShelf.Proofs.Locator
import LinkShelf.Proofs.Number.Comparison
import LinkShelf.Proofs.Number.Digits
import LinkShelf.Proofs.Number.IntegerText
import LinkShelf.Proofs.Number.Magnitude
import LinkShelf.Proofs.Operation
import LinkShelf.Proofs.Outcome
import LinkShelf.Proofs.Query.Comparisons
import LinkShelf.Proofs.Query.Compilation
import LinkShelf.Proofs.Query.FileOrder
import LinkShelf.Proofs.Query.LimitTerms
import LinkShelf.Proofs.Query.LocalDates
import LinkShelf.Proofs.Query.MapOrder
import LinkShelf.Proofs.Query.Meaning
import LinkShelf.Proofs.Query.NamedDays
import LinkShelf.Proofs.Query.Sites
import LinkShelf.Proofs.Query.Stages
import LinkShelf.Proofs.Query.Tagged
import LinkShelf.Proofs.Query.WrittenBack
import LinkShelf.Proofs.Reports
import LinkShelf.Proofs.Storage.Contents
import LinkShelf.Proofs.Storage.Disk
import LinkShelf.Proofs.Storage.Edits
import LinkShelf.Proofs.Storage.Entries
import LinkShelf.Proofs.Storage.EqualEntries
import LinkShelf.Proofs.Storage.FallibleMap
import LinkShelf.Proofs.Storage.FileOrder
import LinkShelf.Proofs.Storage.FileSystem
import LinkShelf.Proofs.Storage.Frame
import LinkShelf.Proofs.Storage.Interruption
import LinkShelf.Proofs.Storage.Mirror
import LinkShelf.Proofs.Storage.NamedFiles
import LinkShelf.Proofs.Storage.PathText
import LinkShelf.Proofs.Storage.RecordName
import LinkShelf.Proofs.Storage.Reliable
import LinkShelf.Proofs.Storage.Unobstructed
import LinkShelf.Proofs.Storage.Writing
import LinkShelf.Proofs.Store.Backend
import LinkShelf.Proofs.Store.Completion
import LinkShelf.Proofs.Store.CreationTimes
import LinkShelf.Proofs.Store.Durability
import LinkShelf.Proofs.Store.Failures
import LinkShelf.Proofs.Store.History
import LinkShelf.Proofs.Store.Interruption
import LinkShelf.Proofs.Store.Journal
import LinkShelf.Proofs.Store.Merging
import LinkShelf.Proofs.Store.Migration
import LinkShelf.Proofs.Store.Opening
import LinkShelf.Proofs.Store.RemovalByValue
import LinkShelf.Proofs.Store.Reopening
import LinkShelf.Proofs.Store.Shelf
import LinkShelf.Proofs.Store.Steps
import LinkShelf.Proofs.Store.Upkeep
import LinkShelf.Proofs.Store.Visits
import LinkShelf.Proofs.Text.Blank
import LinkShelf.Proofs.Text.Digits
import LinkShelf.Proofs.Text.Encoding
import LinkShelf.Proofs.Text.Folding
import LinkShelf.Proofs.Text.Lower
import LinkShelf.Proofs.Text.Pieces
import LinkShelf.Proofs.Toml.RoundTrip
import LinkShelf.Proofs.Toml.Scalars
import LinkShelf.Proofs.Url.Authority
import LinkShelf.Proofs.Url.DotFree
import LinkShelf.Proofs.Url.DotSegments
import LinkShelf.Proofs.Url.Escapes
import LinkShelf.Proofs.Url.Layout
import LinkShelf.Proofs.Url.MissingScheme
import LinkShelf.Proofs.Url.NormalForm
import LinkShelf.Proofs.Url.NormalServer
import LinkShelf.Proofs.Url.Octets
import LinkShelf.Proofs.Url.PlainAddress
import LinkShelf.Proofs.Url.RemoveDotSegments
import LinkShelf.Proofs.Url.Respelling
import LinkShelf.Proofs.Url.Server
import LinkShelf.Proofs.Url.Settling
import LinkShelf.Proofs.Url.Spelling
import LinkShelf.Proofs.Url.Web
