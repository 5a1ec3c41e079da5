import Animaksm.Common.Maps
import Animaksm.Lib.Affixes
import Animaksm.Lib.LastWins

/-!
# The list of processes and their status

The numeric entries of `/proc`, and the parser of `/proc/PID/status`, which keeps four of
the lines. What the kernel prints for a process is read back, whatever other lines
stand between these.
-/

namespace Animaksm.Common

/-! ## The list of processes -/

/-- A decimal number of 32 bits. -/
def parseDecU32 (text : List Char) : Option UInt32 := (Text.parseNat (2 ^ 32) text).map UInt32.ofNat

theorem parseDecU32_toDigits (n : UInt32) : parseDecU32 (Nat.toDigits 10 n.toNat) = some n := by
  rw [parseDecU32, Text.parseNat_toDigits n.toNat_lt, Option.map_some, UInt32.ofNat_toNat]

/-- List all PIDs: the names of the directory that are numbers. An entry that cannot be read is
passed over. -/
def listPidsFrom (readDir : String → Except String (List (Except String (List Char))))
    (procPath : String) : Except ProcfsError (List UInt32) :=
  match readDir procPath with
  | .error e => .error ⟨0, "cannot read " ++ procPath ++ ": " ++ e⟩
  | .ok entries => .ok (entries.filterMap fun entry => entry.toOption.bind parseDecU32)

/-! ## The parser of a status -/

/-- The status of a process with the sizes that are only shown. -/
structure FullStatus extends ProcessStatus where
  vmRssKb : Nat
  vmSwapKb : Nat

def parseKbValue (value : List Char) : Nat :=
  (Text.parseNat (2 ^ 64) (Text.trim (Text.trimEndMatches " kB".toList (Text.trim value)))).getD 0

/-- Nothing known of a process but its number. -/
def FullStatus.unknown (pid : UInt32) : FullStatus := ⟨⟨pid, "", 0⟩, 0, 0⟩

/-- Keep the value of a known line. -/
def FullStatus.readLine (status : FullStatus) (line : List Char) : FullStatus :=
  match line.dropPrefix? "Name:".toList with
  | some value => { status with name := String.ofList (Text.trim value) }
  | none =>
    match line.dropPrefix? "VmRSS:".toList with
    | some value => { status with vmRssKb := parseKbValue value }
    | none =>
      match line.dropPrefix? "RssAnon:".toList with
      | some value => { status with anonRssKb := parseKbValue value }
      | none =>
        match line.dropPrefix? "VmSwap:".toList with
        | some value => { status with vmSwapKb := parseKbValue value }
        | none => status

/-- Read process status from /proc/PID/status. -/
def readProcessStatusFrom (readToString : String → Except String (List Char)) (procPath : String)
    (pid : UInt32) : Except ProcfsError FullStatus :=
  let path := procPath ++ "/" ++ toString pid ++ "/status"
  match readToString path with
  | .error e => .error ⟨pid, "cannot read " ++ path ++ ": " ++ e⟩
  | .ok content => .ok ((Text.lines content).foldl FullStatus.readLine (.unknown pid))

/-! ## What the kernel prints -/

/-- The keys the parser knows. -/
def statusKeys : List (List Char) :=
  ["Name:".toList, "VmRSS:".toList, "RssAnon:".toList, "VmSwap:".toList]

/-- A line that the parser does not know. -/
structure OtherLine where
  text : List Char
  noFeed : '\n' ∉ text
  noKey : ∀ key ∈ statusKeys, ¬ key <+: text

/-- The resident memory of a process, with the lines printed around it. -/
structure ResidentMemory where
  vmRssKb : UInt64
  anonRssKb : UInt64
  vmSwapKb : UInt64
  before : List OtherLine
  between : List OtherLine

/-- What the kernel shows of a process; a kernel thread has no memory of its own. -/
structure StatusReport where
  name : List Char
  noFeed : '\n' ∉ name
  memory : Option ResidentMemory
  head : List OtherLine
  tail : List OtherLine

/-- A size is printed in eight columns. -/
def kbLine (key : List Char) (size : UInt64) : List Char :=
  key ++ '\t' :: ((Nat.toDigits 10 size.toNat).leftpad 8 ' ' ++ " kB".toList)

/-- The lines of the resident memory. -/
def ResidentMemory.lines (memory : ResidentMemory) : List (List Char) :=
  memory.before.map OtherLine.text ++
    [kbLine "VmRSS:".toList memory.vmRssKb, kbLine "RssAnon:".toList memory.anonRssKb] ++
    memory.between.map OtherLine.text ++ [kbLine "VmSwap:".toList memory.vmSwapKb]

namespace StatusReport

/-- The lines of a status. -/
def lines (report : StatusReport) : List (List Char) :=
  ("Name:".toList ++ '\t' :: report.name) :: report.head.map OtherLine.text ++
    report.memory.elim [] ResidentMemory.lines ++ report.tail.map OtherLine.text

/-- The file of a status. -/
def text (report : StatusReport) : List Char := report.lines.flatMap (· ++ ['\n'])

/-- A size of the resident memory; without memory it is zero. -/
def sizeKb (report : StatusReport) (size : ResidentMemory → UInt64) : Nat :=
  report.memory.elim 0 fun memory => (size memory).toNat

/-- What the parser should return for a status. -/
def status (report : StatusReport) (pid : UInt32) : FullStatus where
  pid := pid
  name := String.ofList (Text.trim report.name)
  anonRssKb := report.sizeKb ResidentMemory.anonRssKb
  vmRssKb := report.sizeKb ResidentMemory.vmRssKb
  vmSwapKb := report.sizeKb ResidentMemory.vmSwapKb

end StatusReport

/-! ## Sizes -/

theorem parseKbValue_kbLine (size : UInt64) :
    parseKbValue ('\t' :: ((Nat.toDigits 10 size.toNat).leftpad 8 ' ' ++ " kB".toList)) = size.toNat := by
  have hword := Text.isWord_toDigits size.toNat
  have htrim : Text.trim ('\t' :: ((Nat.toDigits 10 size.toNat).leftpad 8 ' ' ++ " kB".toList)) =
      Nat.toDigits 10 size.toNat ++ " kB".toList := by
    rw [List.leftpad, List.append_assoc]
    refine (Text.trim_blank_append (List.forall_mem_singleton.mpr rfl) _).trans
      ((Text.trim_blank_append (Mapping.blank_replicate _) _).trans (Text.trim_eq_self ?_ ?_))
    · rw [List.head?_append_of_ne_nil _ hword.1]
      exact fun c hc => hword.2 c (List.mem_of_mem_head? hc)
    · rw [List.getLast?_append_of_ne_nil _ (by decide)]
      exact fun c hc => by cases hc; rfl
  have hsuffix : ¬ " kB".toList <:+ Nat.toDigits 10 size.toNat := fun h =>
    absurd (hword.2 ' ' (h.subset (by decide))) (by decide)
  rw [parseKbValue, htrim, Text.trimEndMatches_append hsuffix,
    Text.trim_eq_self (fun c hc => hword.2 c (List.mem_of_mem_head? hc))
      (fun c hc => hword.2 c (List.mem_of_mem_getLast? hc)),
    Text.parseNat_toDigits size.toNat_lt, Option.getD_some]

/-! ## Lines -/

/-- No key begins with another one. -/
theorem statusKeys_incomparable : ∀ key ∈ statusKeys, ∀ other ∈ statusKeys, key <+: other → key = other := by
  decide

/-- The value of a line with a key. -/
def valueOf (key line : List Char) : Option (List Char) := (Text.stripReturn line).dropPrefix? key

variable {key other : List Char}

theorem valueOf_other (hkey : key ∈ statusKeys) (line : OtherLine) : valueOf key line.text = none :=
  Text.dropPrefix?_stripReturn (line.noKey key hkey)

theorem valueOf_self (key value : List Char) :
    valueOf key (key ++ '\t' :: value) = some ('\t' :: Text.stripReturn value) := by
  rw [valueOf, Text.stripReturn_append_cons (by decide), Text.dropPrefix?_append]

theorem valueOf_ne (hkey : key ∈ statusKeys) (hother : other ∈ statusKeys) (hne : key ≠ other)
    (value : List Char) : valueOf key (other ++ '\t' :: value) = none := by
  rw [valueOf, Text.stripReturn_append_cons (by decide)]
  exact Text.dropPrefix?_of_other (List.prefix_append _ _)
    (fun h => hne (statusKeys_incomparable key hkey other hother h))
    (fun h => hne (statusKeys_incomparable other hother key hkey h).symm)

theorem stripReturn_kb (size : UInt64) :
    Text.stripReturn ((Nat.toDigits 10 size.toNat).leftpad 8 ' ' ++ " kB".toList) =
      (Nat.toDigits 10 size.toNat).leftpad 8 ' ' ++ " kB".toList := by
  refine if_neg fun h => ?_
  rw [List.getLast?_append_of_ne_nil _ (by decide)] at h
  cases h

/-! ## The record -/

theorem dropPrefix?_ne {line value : List Char} (hkey : key ∈ statusKeys) (hother : other ∈ statusKeys)
    (hne : key ≠ other) (h : line.dropPrefix? other = some value) : line.dropPrefix? key = none :=
  Text.dropPrefix?_of_other (Text.prefix_of_dropPrefix? h)
    (fun hle => hne (statusKeys_incomparable key hkey other hother hle))
    (fun hle => hne (statusKeys_incomparable other hother key hkey hle).symm)

/-- Each field is set by the lines with its key. -/
theorem FullStatus.readLine_fields (status : FullStatus) (line : List Char) :
    (status.readLine line).pid = status.pid ∧
    (status.readLine line).name = ((line.dropPrefix? "Name:".toList).map fun value =>
      String.ofList (Text.trim value)).getD status.name ∧
    (status.readLine line).vmRssKb =
      ((line.dropPrefix? "VmRSS:".toList).map parseKbValue).getD status.vmRssKb ∧
    (status.readLine line).anonRssKb =
      ((line.dropPrefix? "RssAnon:".toList).map parseKbValue).getD status.anonRssKb ∧
    (status.readLine line).vmSwapKb =
      ((line.dropPrefix? "VmSwap:".toList).map parseKbValue).getD status.vmSwapKb := by
  -- The key that a line has keeps it from having one of the later keys.
  have hother : ∀ key ∈ statusKeys, ∀ other ∈ statusKeys, key ≠ other → ∀ value,
      line.dropPrefix? other = some value → line.dropPrefix? key = none :=
    fun key hkey other hother hne value h => dropPrefix?_ne hkey hother hne h
  unfold readLine
  cases hname : line.dropPrefix? "Name:".toList with
  | some value =>
    rw [hother _ (by decide) _ (by decide) (by decide) value hname,
      hother _ (by decide) _ (by decide) (by decide) value hname,
      hother _ (by decide) _ (by decide) (by decide) value hname]
    exact ⟨rfl, rfl, rfl, rfl, rfl⟩
  | none =>
    cases hrss : line.dropPrefix? "VmRSS:".toList with
    | some value =>
      rw [hother "RssAnon:".toList (by decide) _ (by decide) (by decide) value hrss,
        hother "VmSwap:".toList (by decide) _ (by decide) (by decide) value hrss]
      exact ⟨rfl, rfl, rfl, rfl, rfl⟩
    | none =>
      cases hanon : line.dropPrefix? "RssAnon:".toList with
      | some value =>
        rw [hother "VmSwap:".toList (by decide) _ (by decide) (by decide) value hanon]
        exact ⟨rfl, rfl, rfl, rfl, rfl⟩
      | none =>
        cases line.dropPrefix? "VmSwap:".toList with
        | some value => exact ⟨rfl, rfl, rfl, rfl, rfl⟩
        | none => exact ⟨rfl, rfl, rfl, rfl, rfl⟩

/-- No line changes the process a status belongs to. -/
theorem FullStatus.foldl_readLine_pid (ls : List (List Char)) (status : FullStatus) :
    (ls.foldl FullStatus.readLine status).pid = status.pid := by
  induction ls generalizing status with
  | nil => rfl
  | cons line ls ih => exact (ih _).trans (status.readLine_fields line).1

namespace StatusReport

variable (report : StatusReport)

/-- The values of a key among the lines of a status. -/
theorem filterMap_valueOf (hkey : key ∈ statusKeys) :
    report.lines.filterMap (valueOf key) =
      (valueOf key ("Name:".toList ++ '\t' :: report.name)).toList ++
        report.memory.elim [] fun memory =>
          (valueOf key (kbLine "VmRSS:".toList memory.vmRssKb)).toList ++
            (valueOf key (kbLine "RssAnon:".toList memory.anonRssKb)).toList ++
              (valueOf key (kbLine "VmSwap:".toList memory.vmSwapKb)).toList := by
  have hothers : ∀ others : List OtherLine, (others.map OtherLine.text).filterMap (valueOf key) = [] := by
    intro others
    rw [List.filterMap_map, List.filterMap_eq_nil_iff]
    exact fun line _ => valueOf_other hkey line
  have hcons : ∀ line ls, (line :: ls).filterMap (valueOf key) =
      (valueOf key line).toList ++ ls.filterMap (valueOf key) := by
    intro line ls
    rw [List.filterMap_cons]
    cases valueOf key line <;> rfl
  rw [lines, List.filterMap_append, List.filterMap_append, hcons, hothers, hothers, List.append_nil,
    List.append_nil]
  cases report.memory with
  | none => rfl
  | some memory =>
    simp only [Option.elim, ResidentMemory.lines, List.filterMap_append, hcons, hothers, List.nil_append,
      List.append_nil, List.filterMap_nil]

theorem noFeed_kbLine {key : List Char} (hkey : key ∈ statusKeys) (size : UInt64) :
    '\n' ∉ kbLine key size := by
  have hfeed : ∀ key ∈ statusKeys, '\n' ∉ key := by decide
  have hdigits := Text.isWord_toDigits size.toNat
  simp only [kbLine, List.mem_append, List.mem_cons, List.leftpad, List.mem_replicate, not_or]
  refine ⟨hfeed key hkey, by decide, ⟨fun h => absurd h.2 (by decide), fun h => ?_⟩, by decide⟩
  exact absurd (hdigits.2 _ h) (by decide)

/-- The lines of the file are those of the status, without their returns. -/
theorem lines_text : Text.lines report.text = report.lines.map Text.stripReturn := by
  refine Text.lines_flatMap_feed fun line hline => ?_
  have hothers : ∀ others : List OtherLine, line ∈ others.map OtherLine.text → '\n' ∉ line := by
    intro others hmem
    obtain ⟨other, -, rfl⟩ := List.mem_map.mp hmem
    exact other.noFeed
  rw [lines, List.mem_append, List.mem_append, List.mem_cons] at hline
  rcases hline with ((rfl | hline) | hline) | hline
  · rw [List.mem_append, List.mem_cons, not_or, not_or]
    exact ⟨by decide, by decide, report.noFeed⟩
  · exact hothers _ hline
  · cases hmemory : report.memory with
    | none =>
      rw [hmemory] at hline
      cases hline
    | some memory =>
      rw [hmemory] at hline
      simp only [Option.elim, ResidentMemory.lines, List.mem_append, List.mem_cons, List.not_mem_nil,
        or_false] at hline
      rcases hline with ((hline | rfl | rfl) | hline) | rfl
      · exact hothers _ hline
      · exact noFeed_kbLine (by decide) _
      · exact noFeed_kbLine (by decide) _
      · exact hothers _ hline
      · exact noFeed_kbLine (by decide) _
  · exact hothers _ hline

/-- A field is filled from the values of its key. -/
theorem foldl_readLine {β : Type} (field : FullStatus → β) (parse : List Char → β) (key : List Char)
    (h : ∀ status (line : List Char), field (status.readLine line) =
      ((line.dropPrefix? key).map parse).getD (field status)) (pid : UInt32) :
    field ((Text.lines report.text).foldl FullStatus.readLine (.unknown pid)) =
      ((report.lines.filterMap (valueOf key)).map parse).getLast?.getD (field (.unknown pid)) := by
  rw [LastWins.foldl_field h, lines_text, List.filterMap_map, List.map_filterMap]
  rfl

/-- A size is read back, and is zero for a process without memory. -/
theorem foldl_readLine_size (field : FullStatus → Nat) {key : List Char} (hkey : key ∈ statusKeys)
    (hname : key ≠ "Name:".toList)
    (h : ∀ status (line : List Char), field (status.readLine line) =
      ((line.dropPrefix? key).map parseKbValue).getD (field status))
    (size : ResidentMemory → UInt64)
    (hsize : ∀ memory : ResidentMemory,
      (valueOf key (kbLine "VmRSS:".toList memory.vmRssKb)).toList ++
        (valueOf key (kbLine "RssAnon:".toList memory.anonRssKb)).toList ++
          (valueOf key (kbLine "VmSwap:".toList memory.vmSwapKb)).toList =
        [(kbLine key (size memory)).drop key.length])
    (pid : UInt32) (hzero : field (.unknown pid) = 0) :
    field ((Text.lines report.text).foldl FullStatus.readLine (.unknown pid)) = report.sizeKb size := by
  rw [report.foldl_readLine field parseKbValue key h, report.filterMap_valueOf hkey,
    valueOf_ne hkey (by decide) hname, hzero, sizeKb]
  cases report.memory with
  | none => rfl
  | some memory =>
    simp only [Option.elim, hsize, Option.toList_none, List.nil_append, List.map_cons, List.map_nil,
      List.getLast?_singleton, Option.getD_some]
    rw [kbLine, List.drop_left]
    exact parseKbValue_kbLine _

/-- What the kernel shows of a process is read back, its name without the white space around it. -/
theorem foldl_text (pid : UInt32) :
    (Text.lines report.text).foldl FullStatus.readLine (.unknown pid) = report.status pid := by
  have hself : ∀ (key : List Char) (size : UInt64),
      valueOf key (kbLine key size) = some ((kbLine key size).drop key.length) := by
    intro key size
    rw [kbLine, valueOf_self, stripReturn_kb, List.drop_left]
  have hne : ∀ key ∈ statusKeys, ∀ other ∈ statusKeys, key ≠ other → ∀ size,
      valueOf key (kbLine other size) = none :=
    fun key hkey other hother hne size => valueOf_ne hkey hother hne _
  have hname : ((Text.lines report.text).foldl FullStatus.readLine (.unknown pid)).name =
      String.ofList (Text.trim report.name) := by
    rw [report.foldl_readLine (fun status => status.name) _ "Name:".toList fun status line =>
        (status.readLine_fields line).2.1, report.filterMap_valueOf (by decide), valueOf_self]
    have hmemory : (report.memory.elim [] fun memory =>
        (valueOf "Name:".toList (kbLine "VmRSS:".toList memory.vmRssKb)).toList ++
          (valueOf "Name:".toList (kbLine "RssAnon:".toList memory.anonRssKb)).toList ++
            (valueOf "Name:".toList (kbLine "VmSwap:".toList memory.vmSwapKb)).toList) = [] := by
      cases report.memory with
      | none => rfl
      | some memory =>
        dsimp only [Option.elim]
        rw [hne _ (by decide) _ (by decide) (by decide), hne _ (by decide) _ (by decide) (by decide),
          hne _ (by decide) _ (by decide) (by decide)]
        rfl
    rw [hmemory]
    change String.ofList (Text.trim ('\t' :: Text.stripReturn report.name)) = _
    rw [← Text.trim_stripReturn report.name]
    have htab : Text.Blank ['\t'] := List.forall_mem_singleton.mpr rfl
    exact congrArg String.ofList (Text.trim_blank_append htab _)
  have hrss := report.foldl_readLine_size (fun status => status.vmRssKb)
    (show "VmRSS:".toList ∈ statusKeys by decide) (by decide)
    (fun status line => (status.readLine_fields line).2.2.1) ResidentMemory.vmRssKb
    (fun memory => by
      rw [hself, hne _ (by decide) _ (by decide) (by decide), hne _ (by decide) _ (by decide) (by decide)]
      rfl) pid rfl
  have hanon := report.foldl_readLine_size (fun status => status.anonRssKb)
    (show "RssAnon:".toList ∈ statusKeys by decide) (by decide)
    (fun status line => (status.readLine_fields line).2.2.2.1) ResidentMemory.anonRssKb
    (fun memory => by
      rw [hself, hne _ (by decide) _ (by decide) (by decide), hne _ (by decide) _ (by decide) (by decide)]
      rfl) pid rfl
  have hswap := report.foldl_readLine_size (fun status => status.vmSwapKb)
    (show "VmSwap:".toList ∈ statusKeys by decide) (by decide)
    (fun status line => (status.readLine_fields line).2.2.2.2) ResidentMemory.vmSwapKb
    (fun memory => by
      rw [hself, hne _ (by decide) _ (by decide) (by decide), hne _ (by decide) _ (by decide) (by decide)]
      rfl) pid rfl
  have hnumber := FullStatus.foldl_readLine_pid (Text.lines report.text) (.unknown pid)
  generalize (Text.lines report.text).foldl FullStatus.readLine (.unknown pid) = read at *
  obtain ⟨⟨_, name, anonRssKb⟩, vmRssKb, vmSwapKb⟩ := read
  obtain rfl := hnumber
  obtain rfl := hname
  obtain rfl := hrss
  obtain rfl := hanon
  obtain rfl := hswap
  rfl

end StatusReport

/-- A status that the kernel shows is read. -/
theorem readProcessStatusFrom_text {readToString : String → Except String (List Char)}
    {procPath : String} {pid : UInt32} {report : StatusReport}
    (h : readToString (procPath ++ "/" ++ toString pid ++ "/status") = .ok report.text) :
    readProcessStatusFrom readToString procPath pid = .ok (report.status pid) := by
  rw [readProcessStatusFrom, h]
  exact congrArg Except.ok (report.foldl_text pid)

end Animaksm.Common
