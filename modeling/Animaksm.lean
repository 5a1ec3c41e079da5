import Animaksm.Lib.FiniteMap
import Animaksm.Lib.Run
import Animaksm.Lib.Progress
import Animaksm.Lib.Loop
import Animaksm.Lib.FlatMemory
import Animaksm.Lib.Scan
import Animaksm.Lib.RefPool
import Animaksm.Lib.Log
import Animaksm.Lib.Text
import Animaksm.Lib.Hex
import Animaksm.Lib.Words
import Animaksm.Lib.Affixes
import Animaksm.Lib.LastWins
import Animaksm.Lib.Recency
import Animaksm.Lib.Ranking
import Animaksm.Lib.Filling
import Animaksm.Lib.Alignment
import Animaksm.Lib.Spacing
import Animaksm.Lib.Threads
import Animaksm.Lib.GrowOnly
import Animaksm.Proxy.Fingerprint
import Animaksm.Proxy.Bloom
import Animaksm.Proxy.Dedup
import Animaksm.Proxy.TableCalls
import Animaksm.Proxy.LruRecords
import Animaksm.Proxy.LruOrder
import Animaksm.Proxy.Backend
import Animaksm.Proxy.Engine
import Animaksm.Proxy.Placement
import Animaksm.Proxy.Ownership
import Animaksm.Proxy.Memory
import Animaksm.Proxy.Session
import Animaksm.Proxy.ReadYourWrites
import Animaksm.Proxy.SharedPage
import Animaksm.Proxy.ExactOwnership
import Animaksm.Proxy.FailedWrite
import Animaksm.Proxy.Capacity
import Animaksm.Proxy.Completeness
import Animaksm.Proxy.BlockDevice
import Animaksm.Proxy.RequestArithmetic
import Animaksm.Proxy.FlatDevice
import Animaksm.Proxy.FailingDevice
import Animaksm.Proxy.Interleaving
import Animaksm.Proxy.Accounting
import Animaksm.Proxy.Sections
import Animaksm.Proxy.Isolation
import Animaksm.Proxy.ReadInterval
import Animaksm.Proxy.Production
import Animaksm.Proxy.SlotBudget
import Animaksm.Proxy.TableThreads
import Animaksm.Proxy.LruRaces
import Animaksm.Proxy.BloomThreads
import Animaksm.Proxy.FinalReference
import Animaksm.Proxy.SlotAllocation
import Animaksm.Proxy.SlotThreads
import Animaksm.Proxy.PageFile
import Animaksm.Proxy.Startup
import Animaksm.Proxy.SwapCleanup
import Animaksm.Common.Psi
import Animaksm.Common.Ksm
import Animaksm.Common.KsmWrites
import Animaksm.Common.RateLimit
import Animaksm.Common.KsmConfig
import Animaksm.Common.Procfs
import Animaksm.Common.KsmStat
import Animaksm.Common.StatFiles
import Animaksm.Common.Maps
import Animaksm.Common.PsiText
import Animaksm.Common.StatusText
import Animaksm.Common.Snapshot
import Animaksm.Common.Stepwise
import Animaksm.Common.KernelParams
import Animaksm.Common.Restore
import Animaksm.Common.CrashSafety
import Animaksm.Common.PartialRestore
import Animaksm.Daemon.Governor
import Animaksm.Daemon.LevelSafety
import Animaksm.Daemon.Applications
import Animaksm.Daemon.Hysteresis
import Animaksm.Daemon.Stabilization
import Animaksm.Daemon.PressureResponse
import Animaksm.Daemon.Deferral
import Animaksm.Daemon.ProfitBackOff
import Animaksm.Daemon.Dwell
import Animaksm.Daemon.Convergence
import Animaksm.Daemon.LevelTracking
import Animaksm.Daemon.Readings
import Animaksm.Daemon.Ptrace
import Animaksm.Daemon.Release
import Animaksm.Daemon.Signals
import Animaksm.Daemon.SignalTally
import Animaksm.Daemon.Vdso
import Animaksm.Daemon.Madvise
import Animaksm.Daemon.Scanner
import Animaksm.Daemon.Decisions
import Animaksm.Daemon.Tasks
import Animaksm.Daemon.Independence
import Animaksm.Daemon.Reselection
import Animaksm.Daemon.Batch
import Animaksm.Daemon.Marking
import Animaksm.Daemon.MarkingRate
import Animaksm.Daemon.Selection
import Animaksm.Daemon.ScannerFiles
import Animaksm.Daemon.Collapse
import Animaksm.Daemon.Lifecycle
import Animaksm.Daemon.Config
import Animaksm.Daemon.RestoreLast
import Animaksm.Daemon.Recovery
import Animaksm.Daemon.DryRun
