import SqliteScanner.Affinity
import SqliteScanner.Aggregates.ArgExtreme
import SqliteScanner.Aggregates.Frames
import SqliteScanner.Aggregates.Quantile
import SqliteScanner.Aggregates.StringAgg
import SqliteScanner.CatalogCache.Coherence
import SqliteScanner.DateArithmetic
import SqliteScanner.DateTrunc
import SqliteScanner.Delete
import SqliteScanner.Expressions.Writer
import SqliteScanner.NumericComparison
import SqliteScanner.Pushdown.Conversions
import SqliteScanner.Pushdown.Disjunction
import SqliteScanner.Pushdown.ScalarSubquery
import SqliteScanner.Pushdown.SelectAliases
import SqliteScanner.Pushdown.Update
import SqliteScanner.Quoting
import SqliteScanner.RemoteFile.CachedFile
import SqliteScanner.Scalars.BitOperators
import SqliteScanner.Scalars.NullPropagation
import SqliteScanner.Scalars.Padding
import SqliteScanner.Scalars.RoundInteger
import SqliteScanner.Scalars.SkipNulls
import SqliteScanner.Scalars.Substring
import SqliteScanner.SchemaLookup
import SqliteScanner.SchemaRoundTrip
import SqliteScanner.SetOperation.Compound
import SqliteScanner.SinkScan
import SqliteScanner.TableScan
import SqliteScanner.Transactions
import SqliteScanner.VfsOpen
import SqliteScanner.ViewDefinition
