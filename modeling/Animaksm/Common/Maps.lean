import Animaksm.Common.Procfs
import Animaksm.Lib.Hex
import Animaksm.Lib.Words

/-!
# The mappings of a process

The lines of `/proc/PID/maps` as the kernel prints them, and what the parser reads
from them. Bounds, permissions, offset, device and inode come back as they were; the
name comes back trimmed and with its runs of white space collapsed. Texts are lists
of characters.
-/

namespace Animaksm.Common

/-! ## The parser -/

/-- A hexadecimal number of 64 bits. -/
def parseHexU64 (text : List Char) : Option UInt64 := (Text.parseHex (2 ^ 64) text).map UInt64.ofNat

/-- A decimal number of 64 bits. -/
def parseDecU64 (text : List Char) : Option UInt64 := (Text.parseNat (2 ^ 64) text).map UInt64.ofNat

/-- Parse a line of /proc/PID/maps. -/
def parseMapsLine (line : List Char) : Option MapsEntry :=
  match Text.words line with
  | range :: perms :: offset :: dev :: inode :: rest =>
    match range.splitOn '-' with
    | [first, second] =>
      (parseHexU64 first).bind fun start =>
        (parseHexU64 second).bind fun stop =>
          some {
            start := start
            stop := stop
            perms := String.ofList perms
            offset := (parseHexU64 offset).getD 0
            dev := String.ofList dev
            inode := (parseDecU64 inode).getD 0
            pathname := if rest.isEmpty then "" else String.ofList (Text.joinWords rest) }
    | _ => none
  | _ => none

/-- A file under /proc that could not be read. -/
structure ProcfsError where
  pid : UInt32
  detail : String

/-- Read and parse the mappings of a process. -/
def readProcessMapsFrom (readToString : String → Except String (List Char)) (procPath : String)
    (pid : UInt32) : Except ProcfsError (List MapsEntry) :=
  let path := procPath ++ "/" ++ toString pid ++ "/maps"
  match readToString path with
  | .error e => .error ⟨pid, "cannot read " ++ path ++ ": " ++ e⟩
  | .ok content => .ok ((Text.lines content).filterMap parseMapsLine)

/-! ## What the kernel prints -/

/-- The permissions of a mapping. -/
structure Permissions where
  read : Bool
  write : Bool
  exec : Bool
  shared : Bool

/-- The four characters of the permissions. -/
def Permissions.text (perms : Permissions) : List Char :=
  [if perms.read then 'r' else '-', if perms.write then 'w' else '-',
    if perms.exec then 'x' else '-', if perms.shared then 's' else 'p']

/-- The name of a mapping: something other than white space, on one line. -/
structure MappingName where
  text : List Char
  notBlank : ¬ Text.Blank text
  noFeed : '\n' ∉ text

/-- A mapping of a process, with the padding before its name. -/
structure Mapping where
  start : UInt64
  stop : UInt64
  perms : Permissions
  offset : UInt64
  major : Nat
  minor : Nat
  inode : UInt64
  name : Option MappingName
  padding : Nat

namespace Mapping

/-- The device of a mapping. -/
def dev (m : Mapping) : List Char := Text.showHex 2 m.major ++ ':' :: Text.showHex 2 m.minor

/-- The bounds of a mapping. -/
def range (m : Mapping) : List Char :=
  Text.showHex 8 m.start.toNat ++ '-' :: Text.showHex 8 m.stop.toNat

/-- The columns before the name. -/
def columns (m : Mapping) : List (List Char) :=
  [m.range, m.perms.text, Text.showHex 8 m.offset.toNat, m.dev, Nat.toDigits 10 m.inode.toNat]

/-- The padding and the name, if there is one. -/
def tail (m : Mapping) : List Char :=
  match m.name with
  | none => List.replicate m.padding ' '
  | some name => List.replicate (m.padding + 1) ' ' ++ name.text

/-- The line of a mapping, without its line feed. -/
def line (m : Mapping) : List Char := Text.joinWords m.columns ++ m.tail

/-- Whether the mapping is private, anonymous, readable and writable. -/
def isAnonRw (m : Mapping) : Bool :=
  m.perms.read && m.perms.write && !m.perms.shared && m.name.isNone && decide (m.inode = 0)

/-- Whether the name is that of a special mapping. -/
def isSpecial (m : Mapping) : Bool :=
  m.name.any fun name => ["[vdso]", "[vvar", "[vsyscall]", "[stack", "[heap]"].any fun pattern =>
    decide (pattern.toList <+: name.text)

/-- What the parser should return for a mapping. -/
def entry (m : Mapping) : MapsEntry where
  start := m.start
  stop := m.stop
  perms := String.ofList m.perms.text
  offset := m.offset
  dev := String.ofList m.dev
  inode := m.inode
  pathname := m.name.elim "" fun name => String.ofList (Text.collapseRuns (Text.trim name.text))

end Mapping

/-- The file of the mappings of a process. -/
def mapsText (mappings : List Mapping) : List Char := mappings.flatMap fun m => m.line ++ ['\n']

/-! ## Numbers -/

theorem parseHexU64_showHex (width : Nat) (n : UInt64) :
    parseHexU64 (Text.showHex width n.toNat) = some n := by
  rw [parseHexU64, Text.parseHex_showHex n.toNat_lt, Option.map_some, UInt64.ofNat_toNat]

theorem parseDecU64_toDigits (n : UInt64) : parseDecU64 (Nat.toDigits 10 n.toNat) = some n := by
  rw [parseDecU64, Text.parseNat_toDigits n.toNat_lt, Option.map_some, UInt64.ofNat_toNat]

/-! ## Lines -/

namespace Mapping

variable (m : Mapping)

theorem dash_notMem_showHex (width n : Nat) : '-' ∉ Text.showHex width n :=
  fun h => (Text.isHexDigit_of_mem_showHex h).ne.2.2.1 rfl

theorem splitOn_range :
    m.range.splitOn '-' = [Text.showHex 8 m.start.toNat, Text.showHex 8 m.stop.toNat] := by
  rw [range, List.splitOn_append_cons_self_of_not_mem (dash_notMem_showHex _ _),
    List.splitOn_eq_singleton (dash_notMem_showHex _ _)]

/-- Two words with a mark between them are one word. -/
theorem isWord_append_cons {first second : List Char} {mark : Char} (hfirst : Text.IsWord first)
    (hmark : Text.isWhitespace mark = false) (hsecond : Text.IsWord second) :
    Text.IsWord (first ++ mark :: second) := by
  refine ⟨List.append_ne_nil_of_left_ne_nil hfirst.1 _, fun c hc => ?_⟩
  rcases List.mem_append.mp hc with hc | hc
  · exact hfirst.2 c hc
  · rcases List.mem_cons.mp hc with rfl | hc
    · exact hmark
    · exact hsecond.2 c hc

theorem isWord_perms (perms : Permissions) : Text.IsWord perms.text := by
  obtain ⟨_ | _, _ | _, _ | _, _ | _⟩ := perms
  all_goals decide

/-- Every column is a word. -/
theorem isWord_of_mem_columns {m : Mapping} : ∀ column ∈ m.columns, Text.IsWord column := by
  simp only [columns, List.forall_mem_cons]
  refine ⟨?_, isWord_perms m.perms, Text.isWord_showHex _ _, ?_, Text.isWord_toDigits _,
    fun _ h => absurd h List.not_mem_nil⟩
  · exact isWord_append_cons (Text.isWord_showHex _ _) rfl (Text.isWord_showHex _ _)
  · exact isWord_append_cons (Text.isWord_showHex _ _) rfl (Text.isWord_showHex _ _)

theorem blank_replicate (n : Nat) : Text.Blank (List.replicate n ' ') := by
  intro c hc
  rw [List.eq_of_mem_replicate hc]
  rfl

/-- The words of the name. -/
def nameWords : List (List Char) := m.name.elim [] fun name => Text.words name.text

/-- The words of a line are its columns and those of the name. -/
theorem words_line : Text.words m.line = m.columns ++ m.nameWords := by
  have htail : Text.Breaks m.tail := by
    unfold tail
    cases m.name with
    | none => exact fun c hc => blank_replicate m.padding c (List.mem_of_mem_head? hc)
    | some name =>
      rintro c ⟨⟩
      rfl
  have hne : m.columns ≠ [] := List.cons_ne_nil _ _
  rw [line, Text.words_joinWords_append hne isWord_of_mem_columns htail, tail, nameWords]
  cases m.name with
  | none => rw [Text.words_blank (blank_replicate m.padding)]; rfl
  | some name => rw [Text.words_blank_append (blank_replicate _)]; rfl

/-- The name of an entry is joined from the words of the name. -/
theorem pathname_entry : m.entry.pathname = String.ofList (Text.joinWords m.nameWords) := by
  rw [nameWords, entry]
  cases m.name with
  | none => rfl
  | some name =>
    dsimp only [Option.elim]
    rw [Text.joinWords_words]

/-- Without words the joined name is empty. -/
theorem joined_eq (ws : List (List Char)) :
    (if ws.isEmpty then "" else String.ofList (Text.joinWords ws)) =
      String.ofList (Text.joinWords ws) := by
  cases ws <;> rfl

/-- A line with the words of a mapping is parsed to its entry. -/
theorem parseMapsLine_of_words {line : List Char} (h : Text.words line = m.columns ++ m.nameWords) :
    parseMapsLine line = some m.entry := by
  have hwords : Text.words line = m.range :: m.perms.text :: Text.showHex 8 m.offset.toNat :: m.dev ::
      Nat.toDigits 10 m.inode.toNat :: m.nameWords := h
  rw [parseMapsLine, hwords]
  dsimp only
  rw [splitOn_range]
  dsimp only
  rw [parseHexU64_showHex, parseHexU64_showHex, parseHexU64_showHex, parseDecU64_toDigits, joined_eq,
    ← pathname_entry]
  rfl

/-- Only a mapping without a name has an entry without one. -/
theorem pathname_eq_empty_iff : m.entry.pathname = "" ↔ m.name = none := by
  rw [pathname_entry, nameWords]
  cases m.name with
  | none => exact iff_of_true rfl rfl
  | some name =>
    refine iff_of_false (fun h => Text.joinWords_words_ne_nil name.notBlank ?_) (Option.some_ne_none name)
    simpa using congrArg String.toList h

theorem contains_perms (perms : Permissions) :
    textContains (String.ofList perms.text) "rw" = (perms.read && perms.write) := by
  obtain ⟨_ | _, _ | _, _ | _, _ | _⟩ := perms
  all_goals decide

theorem mem_perms (perms : Permissions) :
    decide ('s' ∈ (String.ofList perms.text).toList) = perms.shared ∧
      decide ('x' ∈ (String.ofList perms.text).toList) = perms.exec := by
  obtain ⟨_ | _, _ | _, _ | _, _ | _⟩ := perms
  all_goals decide

theorem isAnonRw_entry : m.entry.isAnonRw = m.isAnonRw := by
  have hname : decide (m.entry.pathname = "") = m.name.isNone := by
    rw [Bool.eq_iff_iff, decide_eq_true_iff, Option.isNone_iff_eq_none]
    exact m.pathname_eq_empty_iff
  rw [MapsEntry.isAnonRw, hname, isAnonRw, ← contains_perms, ← (mem_perms m.perms).1]
  rfl

theorem hasExec_entry : m.entry.hasExec = m.perms.exec := (mem_perms m.perms).2

/-- A name that does not begin with white space is special exactly when its entry is. -/
theorem isSpecial_entry
    (h : ∀ name ∈ m.name, ∀ c ∈ name.text.head?, Text.isWhitespace c = false) :
    m.entry.isSpecial = m.isSpecial := by
  have hstarts : ∀ pattern : String, Text.IsWord pattern.toList →
      startsWith m.entry.pathname pattern =
        m.name.any fun name => decide (pattern.toList <+: name.text) := by
    rintro pattern ⟨hne, hpattern⟩
    rw [startsWith, pathname_entry, String.toList_ofList, nameWords]
    cases hname : m.name with
    | none => exact decide_eq_false fun hprefix => hne (List.prefix_nil.mp hprefix)
    | some name =>
      exact decide_eq_decide.mpr (Text.prefix_joinWords_words (h name hname) hpattern)
  rw [MapsEntry.isSpecial, hstarts "[vdso]" (by decide), hstarts "[vvar" (by decide),
    hstarts "[vsyscall]" (by decide), hstarts "[stack" (by decide), hstarts "[heap]" (by decide),
    isSpecial]
  cases m.name with
  | none => rfl
  | some name => simp only [Option.any_some, List.any_cons, List.any_nil, Bool.or_false, Bool.or_assoc]

theorem noFeed_line : '\n' ∉ m.line := by
  rw [line, List.mem_append]
  rintro (h | h)
  · rcases Text.mem_joinWords h with h | ⟨column, hcolumn, h⟩
    · exact absurd h (by decide)
    · exact absurd ((isWord_of_mem_columns column hcolumn).2 _ h) (by decide)
  · unfold tail at h
    split at h
    · exact absurd (List.eq_of_mem_replicate h) (by decide)
    next name _ =>
      rcases List.mem_append.mp h with h | h
      · exact absurd (List.eq_of_mem_replicate h) (by decide)
      · exact name.noFeed h

end Mapping

/-- The lines of a file are those of its mappings, without their returns. -/
theorem lines_mapsText (mappings : List Mapping) :
    Text.lines (mapsText mappings) = mappings.map fun m => Text.stripReturn m.line := by
  induction mappings with
  | nil => rfl
  | cons m mappings ih =>
    rw [mapsText, List.flatMap_cons, List.append_assoc, List.singleton_append,
      Text.lines_cons m.noFeed_line, List.map_cons]
    exact congrArg (List.cons (Text.stripReturn m.line)) ih

/-- The entries of a file are those of its mappings, in order. -/
theorem parse_mapsText (mappings : List Mapping) :
    (Text.lines (mapsText mappings)).filterMap parseMapsLine = mappings.map Mapping.entry := by
  have hparse : (parseMapsLine ∘ fun m : Mapping => Text.stripReturn m.line) = some ∘ Mapping.entry := by
    funext m
    rw [Function.comp_apply, Function.comp_apply]
    exact m.parseMapsLine_of_words ((Text.words_stripReturn m.line).trans m.words_line)
  rw [lines_mapsText, List.filterMap_map, hparse, List.filterMap_eq_map]

/-- A printed mapping is parsed to its bounds, permissions, offset, device and inode, and to its name
without the white space around it and with its runs of white space collapsed. The name is empty for a
mapping without one only, and the predicates on the entry are those of the mapping, the one on special
names for names that do not begin with white space. A file is read as the entries of its lines. -/
theorem maps_recovered (m : Mapping) (mappings : List Mapping) (procPath : String) (pid : UInt32) :
    parseMapsLine m.line = some m.entry ∧
    (m.entry.pathname = "" ↔ m.name = none) ∧
    m.entry.isAnonRw = m.isAnonRw ∧
    m.entry.hasExec = m.perms.exec ∧
    ((∀ name ∈ m.name, ∀ c ∈ name.text.head?, Text.isWhitespace c = false) →
      m.entry.isSpecial = m.isSpecial) ∧
    ∀ readToString,
      readToString (procPath ++ "/" ++ toString pid ++ "/maps") = .ok (mapsText mappings) →
      readProcessMapsFrom readToString procPath pid = .ok (mappings.map Mapping.entry) := by
  refine ⟨m.parseMapsLine_of_words m.words_line, m.pathname_eq_empty_iff, m.isAnonRw_entry,
    m.hasExec_entry, m.isSpecial_entry, fun readToString hread => ?_⟩
  rw [readProcessMapsFrom, hread]
  exact congrArg Except.ok (parse_mapsText mappings)

end Animaksm.Common
