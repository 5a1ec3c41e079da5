import Animaksm.Common.KsmConfig

/-!
# Reading the KSM statistics

The statistics files as text, and the record they are parsed into. Eight of the files
are mandatory: the first of them that cannot be read or holds no number of its type is
reported. The others count as zero then. What the kernel shows is read back.
-/

namespace Animaksm.Common

/-- The statistics files of the KSM directory. -/
inductive StatFile where
  | pagesShared
  | pagesSharing
  | pagesUnshared
  | pagesVolatile
  | pagesScanned
  | pagesSkipped
  | fullScans
  | generalProfit
  | ksmZeroPages
  | stableNodeChains
  | stableNodeDups
  deriving DecidableEq, Repr

/-- The name of a file. -/
def StatFile.name : StatFile → String
  | .pagesShared => "pages_shared"
  | .pagesSharing => "pages_sharing"
  | .pagesUnshared => "pages_unshared"
  | .pagesVolatile => "pages_volatile"
  | .pagesScanned => "pages_scanned"
  | .pagesSkipped => "pages_skipped"
  | .fullScans => "full_scans"
  | .generalProfit => "general_profit"
  | .ksmZeroPages => "ksm_zero_pages"
  | .stableNodeChains => "stable_node_chains"
  | .stableNodeDups => "stable_node_dups"

/-- Statistics read from KSM sysfs. -/
structure KsmStats where
  pagesShared : Nat
  pagesSharing : Nat
  pagesUnshared : Nat
  pagesVolatile : Nat
  pagesScanned : Nat
  pagesSkipped : Nat
  fullScans : Nat
  generalProfit : Int
  ksmZeroPages : Nat
  stableNodeChains : Nat
  stableNodeDups : Nat
  deriving DecidableEq, Repr

/-- A statistics file that could not be read. -/
structure StatError (ε : Type) where
  path : StatFile
  source : IoError ε
  deriving DecidableEq, Repr

namespace KsmStats

variable {ε : Type}

/-- The files of the directory by their names. -/
abbrev Files (ε : Type) := String → Except ε (List Char)

/-- Read a file and parse its content. -/
def readNumber {α : Type} (parse : List Char → Option α) (message : List Char → String) (files : Files ε)
    (file : StatFile) : Except (StatError ε) α :=
  match files file.name with
  | .error source => .error ⟨file, .os source⟩
  | .ok content =>
    match parse content with
    | some value => .ok value
    | none => .error ⟨file, .invalidData (message content)⟩

def readU64 : Files ε → StatFile → Except (StatError ε) Nat :=
  readNumber parseU64 fun content =>
    "cannot parse '" ++ String.ofList (Text.trim content) ++ "' as u64"

def readI64 : Files ε → StatFile → Except (StatError ε) Int :=
  readNumber (fun content => Text.parseInt (2 ^ 63) (Text.trim content)) fun content =>
    "cannot parse '" ++ String.ofList (Text.trim content) ++ "' as i64"

/-- Read all KSM statistics. -/
def readStats (files : Files ε) : Except (StatError ε) KsmStats := do
  let pagesShared ← readU64 files .pagesShared
  let pagesSharing ← readU64 files .pagesSharing
  let pagesUnshared ← readU64 files .pagesUnshared
  let pagesVolatile ← readU64 files .pagesVolatile
  let pagesScanned ← readU64 files .pagesScanned
  let pagesSkipped ← readU64 files .pagesSkipped
  let fullScans ← readU64 files .fullScans
  let generalProfit ← readI64 files .generalProfit
  .ok {
    pagesShared, pagesSharing, pagesUnshared, pagesVolatile, pagesScanned, pagesSkipped, fullScans
    generalProfit
    ksmZeroPages := (readU64 files .ksmZeroPages).toOption.getD 0
    stableNodeChains := (readU64 files .stableNodeChains).toOption.getD 0
    stableNodeDups := (readU64 files .stableNodeDups).toOption.getD 0 }

/-! ## Errors -/

/-- The mandatory files, in the order they are read. -/
def mandatory : List StatFile :=
  [.pagesShared, .pagesSharing, .pagesUnshared, .pagesVolatile, .pagesScanned, .pagesSkipped, .fullScans,
    .generalProfit]

def errorOf {α β : Type} : Except α β → Option α
  | .error e => some e
  | .ok _ => none

/-- The error of a file, if it has one. -/
def error? (files : Files ε) (file : StatFile) : Option (StatError ε) :=
  if file = .generalProfit then errorOf (readI64 files file) else errorOf (readU64 files file)

/-- The errors of the mandatory files. -/
def errors (files : Files ε) : List (StatError ε) := mandatory.flatMap fun file => (error? files file).toList

/-- A sequence of readings ends with the first error. -/
theorem errorOf_bind {ε' α β : Type} (x : Except ε' α) {f : α → Except ε' β} {rest : List ε'}
    (h : ∀ a, errorOf (f a) = rest.head?) : errorOf (x >>= f) = ((errorOf x).toList ++ rest).head? := by
  cases x with
  | error e => rfl
  | ok a => exact h a

/-- The statistics are read unless a mandatory file has an error, and the first error is reported. -/
theorem errorOf_readStats (files : Files ε) : errorOf (readStats files) = (errors files).head? := by
  refine errorOf_bind _ fun _ => errorOf_bind _ fun _ => errorOf_bind _ fun _ => errorOf_bind _ fun _ =>
    errorOf_bind _ fun _ => errorOf_bind _ fun _ => errorOf_bind _ fun _ => errorOf_bind _ fun _ => rfl

/-- A mandatory file with an error keeps the statistics from being read. -/
theorem readStats_error {files : Files ε} {file : StatFile} (hfile : file ∈ mandatory)
    (herror : (error? files file).isSome) : ∃ e, readStats files = .error e := by
  obtain ⟨e, he⟩ := Option.isSome_iff_exists.mp herror
  have hmem : e ∈ errors files :=
    List.mem_flatMap.mpr ⟨file, hfile, by rw [he]; exact List.mem_singleton_self e⟩
  obtain ⟨first, hfirst⟩ := Option.isSome_iff_exists.mp
    (List.isSome_head?.mpr (List.ne_nil_of_mem hmem))
  have herrors := errorOf_readStats files
  rw [hfirst] at herrors
  cases hstats : readStats files with
  | error e' => exact ⟨e', rfl⟩
  | ok stats => rw [hstats] at herrors; cases herrors

/-! ## What the kernel shows -/

/-- A counter by its file. -/
def count (stats : KsmStats) : StatFile → Nat
  | .pagesShared => stats.pagesShared
  | .pagesSharing => stats.pagesSharing
  | .pagesUnshared => stats.pagesUnshared
  | .pagesVolatile => stats.pagesVolatile
  | .pagesScanned => stats.pagesScanned
  | .pagesSkipped => stats.pagesSkipped
  | .fullScans => stats.fullScans
  | .generalProfit => 0
  | .ksmZeroPages => stats.ksmZeroPages
  | .stableNodeChains => stats.stableNodeChains
  | .stableNodeDups => stats.stableNodeDups

/-- The content of a file. -/
def content (stats : KsmStats) (file : StatFile) : List Char :=
  (if file = .generalProfit then Text.showInt stats.generalProfit
    else Nat.toDigits 10 (stats.count file)) ++ ['\n']

/-- The numbers fit into their types. -/
structure Bounded (stats : KsmStats) : Prop where
  count : ∀ file, stats.count file < 2 ^ 64
  profit : -(2 ^ 63 : Int) ≤ stats.generalProfit ∧ stats.generalProfit < (2 ^ 63 : Int)

/-- The files show the statistics; one that is not mandatory may be missing where its count is zero. -/
structure ShownIn (stats : KsmStats) (files : Files ε) : Prop where
  mandatory : ∀ file ∈ mandatory, files file.name = .ok (stats.content file)
  optional : ∀ file ∉ KsmStats.mandatory, files file.name = .ok (stats.content file) ∨
    stats.count file = 0 ∧ ∃ e, files file.name = .error e

/-- The statistics files, in the order they are read. -/
def allFiles : List StatFile := mandatory ++ [.ksmZeroPages, .stableNodeChains, .stableNodeDups]

/-- A directory that shows the statistics in all the files. -/
def toFiles (stats : KsmStats) : Files Unit := fun name =>
  match allFiles.find? fun file => file.name = name with
  | some file => .ok (stats.content file)
  | none => .error ()

theorem toFiles_name (stats : KsmStats) (file : StatFile) :
    stats.toFiles file.name = .ok (stats.content file) := by
  cases file <;> rfl

theorem shownIn_toFiles (stats : KsmStats) : stats.ShownIn stats.toFiles where
  mandatory file _ := stats.toFiles_name file
  optional file _ := .inl (stats.toFiles_name file)

variable {stats : KsmStats} {files : Files ε}

theorem readU64_content (h : stats.Bounded) {file : StatFile} (hfile : file ≠ .generalProfit)
    (hread : files file.name = .ok (stats.content file)) :
    readU64 files file = .ok (stats.count file) := by
  have hshows : Text.Shows (Nat.toDigits 10 (stats.count file)) (stats.content file) := by
    rw [content, if_neg hfile]
    exact Text.shows_newline _
  rw [readU64, readNumber, hread]
  simp only [parseU64_eq (h.count file) hshows]

theorem readI64_content (h : stats.Bounded)
    (hread : files StatFile.generalProfit.name = .ok (stats.content .generalProfit)) :
    readI64 files .generalProfit = .ok stats.generalProfit := by
  have hword := (Text.isWord_showInt stats.generalProfit).2
  have htrim : Text.trim (stats.content .generalProfit) = Text.showInt stats.generalProfit := by
    refine (Text.shows_newline _).trim_eq (fun c hc => ?_) (fun c hc => ?_)
    · rw [hword c (List.mem_of_mem_head? hc)]
      exact Bool.false_ne_true
    · rw [hword c (List.mem_of_mem_getLast? hc)]
      exact Bool.false_ne_true
  have hparse : Text.parseInt (2 ^ 63) (Text.showInt stats.generalProfit) = some stats.generalProfit :=
    Text.parseInt_showInt h.profit.1 h.profit.2
  rw [readI64, readNumber, hread]
  simp only [htrim, hparse]

theorem readU64_optional (h : stats.Bounded) (hshown : stats.ShownIn files) {file : StatFile}
    (hfile : file ∉ mandatory) : (readU64 files file).toOption.getD 0 = stats.count file := by
  have hprofit : file ≠ .generalProfit := fun heq => hfile (heq ▸ by decide)
  rcases hshown.optional file hfile with hread | ⟨hzero, e, hread⟩
  · rw [readU64_content h hprofit hread]
    rfl
  · rw [readU64, readNumber, hread, hzero]
    rfl

/-- What the kernel shows is read back. -/
theorem readStats_eq (h : stats.Bounded) (hshown : stats.ShownIn files) :
    readStats files = .ok stats := by
  have hnumber : ∀ {file : StatFile}, file ∈ mandatory → file ≠ .generalProfit →
      readU64 files file = .ok (stats.count file) :=
    fun hfile hprofit => readU64_content h hprofit (hshown.mandatory _ hfile)
  rw [readStats, hnumber (by decide) (by decide), hnumber (by decide) (by decide),
    hnumber (by decide) (by decide), hnumber (by decide) (by decide), hnumber (by decide) (by decide),
    hnumber (by decide) (by decide), hnumber (by decide) (by decide),
    readI64_content h (hshown.mandatory _ (by decide)), readU64_optional h hshown (by decide),
    readU64_optional h hshown (by decide), readU64_optional h hshown (by decide)]
  rfl

end KsmStats

end Animaksm.Common
