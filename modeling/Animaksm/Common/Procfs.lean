import Mathlib.Data.List.Infix
import Mathlib.Data.UInt

/-!
# Processes as /proc shows them

What the scanner reads of a process: its status, its mappings and its KSM
statistics. Addresses wrap around as they do in the daemon's release build.
-/

namespace Animaksm.Common

/-- Process memory status from /proc/PID/status. -/
structure ProcessStatus where
  pid : UInt32
  name : String
  anonRssKb : Nat

/-- A single entry from /proc/PID/maps. -/
structure MapsEntry where
  start : UInt64
  stop : UInt64
  perms : String
  offset : UInt64
  dev : String
  inode : UInt64
  pathname : String

/-- Per-process KSM statistics from /proc/PID/ksm_stat. -/
structure KsmProcStat where
  rmapItems : Nat
  mergingPages : Nat
  processProfit : Int
  mergeAny : Bool
  mergeable : Bool

/-- A text contains another one. -/
def textContains (text pattern : String) : Bool := decide (pattern.toList <:+: text.toList)

/-- A text starts with another one. -/
def startsWith (text pattern : String) : Bool := decide (pattern.toList <+: text.toList)

namespace MapsEntry

/-- Size of this mapping in bytes. -/
def size (entry : MapsEntry) : UInt64 := entry.stop - entry.start

/-- Whether this is an anonymous read-write private mapping (KSM candidate). -/
def isAnonRw (entry : MapsEntry) : Bool :=
  textContains entry.perms "rw" && !decide ('s' ∈ entry.perms.toList) &&
    decide (entry.pathname = "") && decide (entry.inode = 0)

/-- Whether this mapping has execute permission (should be skipped). -/
def hasExec (entry : MapsEntry) : Bool := decide ('x' ∈ entry.perms.toList)

/-- Whether this is a special kernel mapping (vdso, vvar, vsyscall). -/
def isSpecial (entry : MapsEntry) : Bool :=
  startsWith entry.pathname "[vdso]" || startsWith entry.pathname "[vvar" ||
    startsWith entry.pathname "[vsyscall]" || startsWith entry.pathname "[stack" ||
    startsWith entry.pathname "[heap]"

/-- The mappings the scanner marks and collapses. -/
def eligible (entry : MapsEntry) : Bool := entry.isAnonRw && !entry.hasExec && !entry.isSpecial

end MapsEntry

/-- Check if a process name matches any pattern in the blocklist. -/
def isBlocklisted (name : String) (blocklist : List String) : Bool :=
  blocklist.any fun pattern => textContains name pattern

end Animaksm.Common
