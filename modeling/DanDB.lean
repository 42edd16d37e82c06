import DanDB.Buffer.PoolRuns
import DanDB.Wal.WalSessions
import DanDB.Storage.Crash
import DanDB.Storage.SessionRollback
import DanDB.Storage.HeaderCodec
import DanDB.Storage.Allocation
import DanDB.Storage.Accounting
import DanDB.Storage.FlatRuns
import DanDB.BTree.Find
import DanDB.Execution.Database
import DanDB.Execution.CreateTable
import DanDB.Execution.KeyOrder
import DanDB.Record.RowRoundTrip
import DanDB.Cli.Repl
import DanDB.Sql.Spelling
import DanDB.BTree.PageEdits
import DanDB.Execution.ComparisonScans
import DanDB.Catalog.TreeWalks
import DanDB.BTree.Cycles
import DanDB.BTree.Pressure
import DanDB.BTree.TreeStoreRuns
import DanDB.Catalog.Lookup
import DanDB.Execution.StatementRuns
