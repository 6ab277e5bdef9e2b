import Archivum.DeepTree
import Archivum.TornHeader
import Archivum.ShippingRuns
import Archivum.LyingSyncs
import Archivum.TableDefFormat
import Archivum.HoldRules
import Archivum.Rollback
import Archivum.Monitor
import Archivum.KeyRefresh
import Archivum.QueueAccess
import Archivum.EntryHistory
import Archivum.PeriodRules
import Archivum.Acknowledgements
import Archivum.MealRuns
import Archivum.PosixGrammar
import Archivum.ZoneTransitions
import Archivum.TreeCheckRules
import Archivum.TreeCheckBounds
import Archivum.ReaderScan
import Archivum.TextFormats
import Archivum.FreeListRuns
import Archivum.ChecksumBursts
import Archivum.LogReopening
import Archivum.OverflowChains
import Archivum.Migrations
import Archivum.Accounts
