import Animaksm.Common.Procfs
import Animaksm.Lib.Text

/-!
# The KSM statistics of a process

The parser of `/proc/PID/ksm_stat` goes over the lines and keeps what it knows. What
the kernel shows of a process is read back field by field.
-/

namespace Animaksm.Common

/-- A truth value, in one of the spellings it comes in. -/
def parseKsmBool (value : List Char) : Bool :=
  let text := ((Text.trim value).rdropWhile (· = ',')).map Char.toLower
  decide (text = "1".toList ∨ text = "yes".toList ∨ text = "true".toList)

namespace KsmProcStat

/-- Nothing known of a process yet. -/
def unknown : KsmProcStat := ⟨0, 0, 0, false, false⟩

/-- Keep the value of a known key. -/
def setField (stat : KsmProcStat) (key value : List Char) : KsmProcStat :=
  if key = "ksm_rmap_items".toList then
    { stat with rmapItems := (Text.parseNat (2 ^ 64) value).getD 0 }
  else if key = "ksm_merging_pages".toList then
    { stat with mergingPages := (Text.parseNat (2 ^ 64) value).getD 0 }
  else if key = "ksm_process_profit".toList then
    { stat with processProfit := (Text.parseInt (2 ^ 63) value).getD 0 }
  else if key = "ksm_merge_any".toList then { stat with mergeAny := parseKsmBool value }
  else if key = "ksm_mergeable".toList then { stat with mergeable := parseKsmBool value }
  else stat

/-- Read one line: a key, with or without a colon, and its value. -/
def readLine (stat : KsmProcStat) (line : List Char) : KsmProcStat :=
  match Text.words line with
  | key :: value :: _ => stat.setField (key.rdropWhile (· = ':')) value
  | _ => stat

end KsmProcStat

/-- Read per-process KSM statistics from the content of the file, if it can be read. -/
def readKsmStatFrom (content : Option (List Char)) : Option KsmProcStat :=
  content.map fun text => (Text.lines text).foldl KsmProcStat.readLine .unknown

/-- What the kernel shows of a process. -/
structure KsmReport where
  rmapItems : UInt64
  zeroPages : Int64
  mergingPages : UInt64
  processProfit : Int64
  mergeAny : Bool
  mergeable : Bool
  deriving DecidableEq

namespace KsmReport

/-- The kernel's spelling of a truth value. -/
def yesNo (value : Bool) : List Char := if value then "yes".toList else "no".toList

/-- The lines of a report, as keys and values. -/
def fields (report : KsmReport) : List (List Char × List Char) :=
  [("ksm_rmap_items".toList, Nat.toDigits 10 report.rmapItems.toNat),
   ("ksm_zero_pages".toList, Text.showInt report.zeroPages.toInt),
   ("ksm_merging_pages".toList, Nat.toDigits 10 report.mergingPages.toNat),
   ("ksm_process_profit".toList, Text.showInt report.processProfit.toInt),
   ("ksm_merge_any:".toList, yesNo report.mergeAny),
   ("ksm_mergeable:".toList, yesNo report.mergeable)]

/-- The text of a report. -/
def text (report : KsmReport) : List Char :=
  (report.fields.map fun field => field.1 ++ ' ' :: field.2).flatMap (· ++ ['\n'])

theorem isWord_yesNo (value : Bool) : Text.IsWord (yesNo value) := by
  cases value
  · decide
  · decide

theorem parseKsmBool_yesNo (value : Bool) : parseKsmBool (yesNo value) = value := by
  cases value <;> decide

/-- The keys and the values of a report are words. -/
theorem isWord_fields (report : KsmReport) :
    ∀ field ∈ report.fields, Text.IsWord field.1 ∧ Text.IsWord field.2 := by
  simp only [fields, List.forall_mem_cons]
  exact ⟨⟨by decide, Text.isWord_toDigits _⟩, ⟨by decide, Text.isWord_showInt _⟩,
    ⟨by decide, Text.isWord_toDigits _⟩, ⟨by decide, Text.isWord_showInt _⟩,
    ⟨by decide, isWord_yesNo _⟩, ⟨by decide, isWord_yesNo _⟩, fun _ h => absurd h List.not_mem_nil⟩

/-- The lines of the text are the fields. -/
theorem lines_text (report : KsmReport) :
    Text.lines report.text = report.fields.map fun field => field.1 ++ ' ' :: field.2 := by
  refine Text.lines_flatMap fun line hline => ?_
  obtain ⟨field, hfield, rfl⟩ := List.mem_map.mp hline
  obtain ⟨hkey, hvalue⟩ := report.isWord_fields field hfield
  exact Text.pair_isLine hkey hvalue

/-- A line of a key and a value sets the field of the key. -/
theorem readLine_pair (stat : KsmProcStat) {key value : List Char} (hkey : Text.IsWord key)
    (hvalue : Text.IsWord value) : stat.readLine (key ++ ' ' :: value) =
      stat.setField (key.rdropWhile (· = ':')) value := by
  rw [KsmProcStat.readLine, Text.words_pair hkey hvalue]

/-- What the kernel shows is read back. -/
theorem readKsmStatFrom_text (report : KsmReport) :
    readKsmStatFrom (some report.text) = some ⟨report.rmapItems.toNat, report.mergingPages.toNat,
      report.processProfit.toInt, report.mergeAny, report.mergeable⟩ := by
  have hfields := report.isWord_fields
  have hnat : ∀ n : UInt64, (Text.parseNat (2 ^ 64) (Nat.toDigits 10 n.toNat)).getD 0 = n.toNat :=
    fun n => by rw [Text.parseNat_toDigits n.toNat_lt, Option.getD_some]
  have hint : ∀ n : Int64, (Text.parseInt (2 ^ 63) (Text.showInt n.toInt)).getD 0 = n.toInt :=
    fun n => by
      rw [Text.parseInt_showInt (Int64.le_toInt n) (Int64.toInt_lt n), Option.getD_some]
  simp only [fields, List.forall_mem_cons] at hfields
  obtain ⟨⟨hk₁, hv₁⟩, ⟨hk₂, hv₂⟩, ⟨hk₃, hv₃⟩, ⟨hk₄, hv₄⟩, ⟨hk₅, hv₅⟩, ⟨hk₆, hv₆⟩, -⟩ := hfields
  rw [readKsmStatFrom, Option.map_some, lines_text, fields]
  simp only [List.map_cons, List.map_nil, List.foldl_cons, List.foldl_nil]
  rw [readLine_pair _ hk₁ hv₁, readLine_pair _ hk₂ hv₂, readLine_pair _ hk₃ hv₃,
    readLine_pair _ hk₄ hv₄, readLine_pair _ hk₅ hv₅, readLine_pair _ hk₆ hv₆]
  -- Each key but the number of zero pages is known.
  change some (KsmProcStat.mk
    ((Text.parseNat (2 ^ 64) (Nat.toDigits 10 report.rmapItems.toNat)).getD 0)
    ((Text.parseNat (2 ^ 64) (Nat.toDigits 10 report.mergingPages.toNat)).getD 0)
    ((Text.parseInt (2 ^ 63) (Text.showInt report.processProfit.toInt)).getD 0)
    (parseKsmBool (yesNo report.mergeAny)) (parseKsmBool (yesNo report.mergeable))) = _
  rw [hnat, hnat, hint, parseKsmBool_yesNo, parseKsmBool_yesNo]

end KsmReport

end Animaksm.Common
