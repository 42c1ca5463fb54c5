import SqlxMssql.Migrate.Databases
import SqlxMssql.Migrate.MigrationPair
import SqlxMssql.Migrate.Statements
import SqlxMssql.Migrate.MigrationsTable
import SqlxMssql.Migrate.Ledger
import SqlxMssql.Migrate.Lifecycle
import SqlxMssql.Text.Nesting
import SqlxMssql.Text.Merging
import SqlxMssql.Text.SecondPass
import SqlxMssql.Text.Boundaries
import SqlxMssql.Connection.Draining
import SqlxMssql.Connection.NestedTransactions
import SqlxMssql.Connection.Streams
import SqlxMssql.Connection.Recovery
import SqlxMssql.Connection.Handles
import SqlxMssql.Connection.Requests
import SqlxMssql.Connection.ParameterOrder
import SqlxMssql.Temporal.SameInstant
import SqlxMssql.Temporal.Claimed
import SqlxMssql.Temporal.Refusals
import SqlxMssql.Spatial.RoundTrip
import SqlxMssql.Spatial.AxisOrder
import SqlxMssql.Spatial.Descent
import SqlxMssql.Spatial.References
import SqlxMssql.Spatial.Reservations
import SqlxMssql.Any.Carriers
import SqlxMssql.Any.ColumnNames
import SqlxMssql.Options.Settings
import SqlxMssql.Temporal.TimesOfDay
import SqlxMssql.Types.DeclaredSizes
import SqlxMssql.Types.ExactIntegers
import SqlxMssql.Connection.CheckedQueries
import SqlxMssql.Temporal.Exchange
import SqlxMssql.Spatial.Normal
