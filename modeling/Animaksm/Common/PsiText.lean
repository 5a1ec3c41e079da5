import Animaksm.Common.Psi
import Animaksm.Common.Maps
import Animaksm.Lib.LastWins
import Animaksm.Lib.Words

/-!
# The pressure file

The parser of `/proc/pressure/memory` goes over the lines and, on each, over the
tokens. On every text it takes the last line of each kind and on it the last token of
each key, and what the kernel prints is read back. Averages are read by a function
that is left open.
-/

namespace Animaksm.Common

variable {K : Type} [Average K]

/-! ## The parser -/

/-- No pressure. -/
def PsiLine.zero : PsiLine K := ⟨0.0, 0.0, 0.0, 0⟩

/-- No pressure of either kind. -/
def PsiStats.zero : PsiStats K := ⟨.zero, .zero⟩

/-- Take the value of a token with a known key; a malformed one counts as zero. -/
def PsiLine.setToken (parseAverage : List Char → Option K) (psiLine : PsiLine K) (token : List Char) :
    PsiLine K :=
  match Text.splitOnce '=' token with
  | none => psiLine
  | some (key, value) =>
    if key = "avg10".toList then { psiLine with avg10 := (parseAverage value).getD 0.0 }
    else if key = "avg60".toList then { psiLine with avg60 := (parseAverage value).getD 0.0 }
    else if key = "avg300".toList then { psiLine with avg300 := (parseAverage value).getD 0.0 }
    else if key = "total".toList then { psiLine with total := (parseDecU64 value).getD 0 }
    else psiLine

/-- Parse the tokens after the first word. -/
def PsiStats.parseLine (parseAverage : List Char → Option K) (line : List Char) : PsiLine K :=
  ((Text.words line).drop 1).foldl (PsiLine.setToken parseAverage) .zero

/-- Take a line of a known kind. -/
def PsiStats.readLine (parseAverage : List Char → Option K) (stats : PsiStats K) (line : List Char) :
    PsiStats K :=
  let line := Text.trim line
  if line = [] then stats
  else
    let parsed := parseLine parseAverage line
    if "some".toList <+: line then { stats with some := parsed }
    else if "full".toList <+: line then { stats with full := parsed }
    else stats

/-- Parse PSI file content. -/
def PsiStats.parse (parseAverage : List Char → Option K) (content : List Char) : PsiStats K :=
  (Text.lines content).foldl (readLine parseAverage) .zero

/-! ## What it takes of a text -/

/-- The value a token has for a key. -/
def tokenValue (key : String) (token : List Char) : Option (List Char) :=
  (Text.splitOnce '=' token).bind fun pair => if pair.1 = key.toList then some pair.2 else none

/-- The last value of a key on a line. -/
def lastValue (key : String) (line : List Char) : Option (List Char) :=
  (((Text.words line).drop 1).filterMap (tokenValue key)).getLast?

/-- The last line that begins with a word. -/
def lastLine (kind : String) (content : List Char) : Option (List Char) :=
  (((Text.lines content).map Text.trim).filter fun line => kind.toList <+: line).getLast?

section Tokens

variable {parseAverage : List Char → Option K}

/-- What a token does to each field. -/
theorem setToken_fields (psiLine : PsiLine K) (token : List Char) :
    let average := fun key => (tokenValue key token).map fun value => (parseAverage value).getD 0.0
    let psiLine' := psiLine.setToken parseAverage token
    psiLine'.avg10 = (average "avg10").getD psiLine.avg10 ∧
    psiLine'.avg60 = (average "avg60").getD psiLine.avg60 ∧
    psiLine'.avg300 = (average "avg300").getD psiLine.avg300 ∧
    psiLine'.total = ((tokenValue "total" token).map fun value => (parseDecU64 value).getD 0).getD
      psiLine.total := by
  dsimp only
  unfold PsiLine.setToken
  cases hsplit : Text.splitOnce '=' token with
  | none =>
    have hnone : ∀ key, tokenValue key token = none := fun key => by rw [tokenValue, hsplit]; rfl
    simp only [hnone, Option.map_none, Option.getD_none, and_self]
  | some pair =>
    obtain ⟨key, value⟩ := pair
    have hvalue : ∀ known : String, tokenValue known token =
        if key = known.toList then some value else none := fun known => by rw [tokenValue, hsplit]; rfl
    simp only [hvalue]
    split_ifs <;> simp_all

/-- Each field of a line is the last value of its key, and zero without one or with a malformed one. -/
theorem parseLine_fields (line : List Char) :
    let average := fun key => ((lastValue key line).bind parseAverage).getD 0.0
    let psiLine := PsiStats.parseLine parseAverage line
    psiLine.avg10 = average "avg10" ∧ psiLine.avg60 = average "avg60" ∧
    psiLine.avg300 = average "avg300" ∧
    psiLine.total = ((lastValue "total" line).bind parseDecU64).getD 0 := by
  -- the last token of a key decides, also when its value is malformed
  have hlast : ∀ {β : Type} (read : List Char → Option β) (default : β) (key : String),
      ((((Text.words line).drop 1).filterMap fun token => (tokenValue key token).map fun value =>
        (read value).getD default).getLast?).getD default =
      ((lastValue key line).bind read).getD default := by
    intro β read default key
    rw [lastValue, ← List.map_filterMap, List.getLast?_map]
    cases (((Text.words line).drop 1).filterMap (tokenValue key)).getLast? <;> rfl
  refine ⟨?_, ?_, ?_, ?_⟩
  · exact (LastWins.foldl_field (fun l token => (setToken_fields l token).1) _ _).trans (hlast ..)
  · exact (LastWins.foldl_field (fun l token => (setToken_fields l token).2.1) _ _).trans (hlast ..)
  · exact (LastWins.foldl_field (fun l token => (setToken_fields l token).2.2.1) _ _).trans (hlast ..)
  · exact (LastWins.foldl_field (fun l token => (setToken_fields l token).2.2.2) _ _).trans (hlast ..)

/-- What a line has for its kind, if it begins with that. -/
def lineValue (parseAverage : List Char → Option K) (kind : String) (line : List Char) :
    Option (PsiLine K) :=
  if kind.toList <+: Text.trim line then some (PsiStats.parseLine parseAverage (Text.trim line))
  else none

/-- No line begins with both kinds. -/
theorem not_full_of_some {line : List Char} (h : "some".toList <+: line) : ¬ "full".toList <+: line := by
  intro hfull
  obtain ⟨rest, rfl⟩ := h
  exact absurd (List.cons_prefix_cons.mp hfull).1 (by decide)

/-- What a line does to each kind. -/
theorem readLine_kinds (stats : PsiStats K) (line : List Char) :
    (stats.readLine parseAverage line).some = (lineValue parseAverage "some" line).getD stats.some ∧
    (stats.readLine parseAverage line).full = (lineValue parseAverage "full" line).getD stats.full := by
  unfold PsiStats.readLine lineValue
  dsimp only
  by_cases hblank : Text.trim line = []
  · have hstarts : ∀ {kind : List Char}, kind ≠ [] → ¬ kind <+: Text.trim line :=
      fun hkind h => hkind (List.prefix_nil.mp (hblank ▸ h))
    rw [if_pos hblank, if_neg (hstarts (by decide)), if_neg (hstarts (by decide))]
    exact ⟨rfl, rfl⟩
  rw [if_neg hblank]
  by_cases hsome : "some".toList <+: Text.trim line
  · rw [if_pos hsome, if_pos hsome, if_neg (not_full_of_some hsome)]
    exact ⟨rfl, rfl⟩
  rw [if_neg hsome, if_neg hsome]
  by_cases hfull : "full".toList <+: Text.trim line
  · rw [if_pos hfull, if_pos hfull]
    exact ⟨rfl, rfl⟩
  · rw [if_neg hfull, if_neg hfull]
    exact ⟨rfl, rfl⟩

/-- On every text the parser takes for each kind the last line that begins with it, and on a line for
each key the last value. What is missing or malformed counts as zero, and nothing is an error. -/
theorem parse_spec (parseAverage : List Char → Option K) (content line : List Char) :
    (PsiStats.parse parseAverage content).some =
      (lastLine "some" content).elim .zero (PsiStats.parseLine parseAverage) ∧
    (PsiStats.parse parseAverage content).full =
      (lastLine "full" content).elim .zero (PsiStats.parseLine parseAverage) ∧
    (PsiStats.parseLine parseAverage line).avg10 =
      ((lastValue "avg10" line).bind parseAverage).getD 0.0 ∧
    (PsiStats.parseLine parseAverage line).avg60 =
      ((lastValue "avg60" line).bind parseAverage).getD 0.0 ∧
    (PsiStats.parseLine parseAverage line).avg300 =
      ((lastValue "avg300" line).bind parseAverage).getD 0.0 ∧
    (PsiStats.parseLine parseAverage line).total =
      ((lastValue "total" line).bind parseDecU64).getD 0 := by
  have hlast : ∀ kind, (((Text.lines content).filterMap (lineValue parseAverage kind)).getLast?).getD
      .zero = (lastLine kind content).elim .zero (PsiStats.parseLine parseAverage) := by
    intro kind
    have hmap : (Text.lines content).filterMap (lineValue parseAverage kind) =
        (((Text.lines content).map Text.trim).filter fun line => kind.toList <+: line).map
          (PsiStats.parseLine parseAverage) := by
      rw [← List.filterMap_eq_filter, List.filterMap_map, List.map_filterMap]
      congr 1
      funext line
      rw [lineValue, Function.comp_apply, Option.guard]
      split_ifs <;> simp_all
    rw [hmap, List.getLast?_map, lastLine]
    cases ((((Text.lines content).map Text.trim).filter fun line => kind.toList <+: line).getLast?) <;> rfl
  refine ⟨?_, ?_, parseLine_fields line⟩
  · exact (LastWins.foldl_field (fun s line => (readLine_kinds s line).1) _ _).trans (hlast "some")
  · exact (LastWins.foldl_field (fun s line => (readLine_kinds s line).2) _ _).trans (hlast "full")

end Tokens

/-! ## What the kernel prints -/

/-- A number of hundredths, with two decimals. -/
def showHundredths (n : Nat) : List Char :=
  Nat.toDigits 10 (n / 100) ++ ['.', Nat.digitChar (n / 10 % 10), Nat.digitChar (n % 10)]

/-- A row of the file: averages in hundredths of a per cent, and the total in microseconds. -/
structure PsiRow where
  avg10 : Nat
  avg60 : Nat
  avg300 : Nat
  total : UInt64
  deriving DecidableEq

/-- The rows of the file. -/
structure PsiReport where
  some : PsiRow
  full : PsiRow
  deriving DecidableEq

namespace PsiRow

/-- The keys and the values of a row. -/
def pairs (row : PsiRow) : List (String × List Char) :=
  [("avg10", showHundredths row.avg10), ("avg60", showHundredths row.avg60),
    ("avg300", showHundredths row.avg300), ("total", Nat.toDigits 10 row.total.toNat)]

/-- The words of a row. -/
def tokens (kind : String) (row : PsiRow) : List (List Char) :=
  kind.toList :: row.pairs.map fun pair => pair.1.toList ++ '=' :: pair.2

def text (kind : String) (row : PsiRow) : List Char := Text.joinWords (row.tokens kind)

/-- The row with its averages as numbers. -/
def line (value : Nat → K) (row : PsiRow) : PsiLine K :=
  ⟨value row.avg10, value row.avg60, value row.avg300, row.total⟩

end PsiRow

namespace PsiReport

def text (report : PsiReport) : List Char :=
  [report.some.text "some", report.full.text "full"].flatMap (· ++ ['\n'])

/-- The report with its averages as numbers. -/
def stats (value : Nat → K) (report : PsiReport) : PsiStats K :=
  ⟨report.some.line value, report.full.line value⟩

end PsiReport

theorem not_isWhitespace_digitChar {d : Nat} (h : d < 10) : Text.isWhitespace (Nat.digitChar d) = false := by
  revert d
  decide

theorem isWord_showHundredths (n : Nat) : Text.IsWord (showHundredths n) := by
  refine ⟨by simp [showHundredths], fun c hc => ?_⟩
  rw [showHundredths, List.mem_append] at hc
  rcases hc with hc | hc
  · exact (Text.isWord_toDigits _).2 c hc
  · simp only [List.mem_cons, List.not_mem_nil, or_false] at hc
    rcases hc with rfl | rfl | rfl
    · rfl
    · exact not_isWhitespace_digitChar (Nat.mod_lt _ (by decide))
    · exact not_isWhitespace_digitChar (Nat.mod_lt _ (by decide))

namespace PsiRow

/-- The words of a row are words. -/
theorem isWord_tokens {kind : String} (hkind : Text.IsWord kind.toList) (row : PsiRow) :
    ∀ token ∈ row.tokens kind, Text.IsWord token := by
  have hpair : ∀ {key : String} {value : List Char}, Text.IsWord key.toList → Text.IsWord value →
      Text.IsWord (key.toList ++ '=' :: value) := by
    intro key value hkey hvalue
    refine ⟨List.append_ne_nil_of_right_ne_nil _ (List.cons_ne_nil _ _), fun c hc => ?_⟩
    rcases List.mem_append.mp hc with hc | hc
    · exact hkey.2 c hc
    · rcases List.mem_cons.mp hc with rfl | hc
      · rfl
      · exact hvalue.2 c hc
  simp only [tokens, pairs, List.map_cons, List.map_nil, List.forall_mem_cons]
  exact ⟨hkind, hpair (by decide) (isWord_showHundredths _), hpair (by decide) (isWord_showHundredths _),
    hpair (by decide) (isWord_showHundredths _), hpair (by decide) (Text.isWord_toDigits _),
    fun _ h => absurd h List.not_mem_nil⟩

/-- The words of the text are the tokens. -/
theorem words_text {kind : String} (hkind : Text.IsWord kind.toList) (row : PsiRow) :
    Text.words (row.text kind) = row.tokens kind := by
  have hbreaks : Text.Breaks [] := fun _ h => by cases h
  have hwords := Text.words_joinWords_append (List.cons_ne_nil _ _) (row.isWord_tokens hkind) hbreaks
  rw [List.append_nil] at hwords
  exact hwords.trans (List.append_nil _)

/-- A token with its key is taken. -/
theorem setToken_pair {parseAverage : List Char → Option K} (psiLine : PsiLine K) {key : String}
    (hkey : '=' ∉ key.toList) (value : List Char) :
    psiLine.setToken parseAverage (key.toList ++ '=' :: value) =
      if key.toList = "avg10".toList then { psiLine with avg10 := (parseAverage value).getD 0.0 }
      else if key.toList = "avg60".toList then { psiLine with avg60 := (parseAverage value).getD 0.0 }
      else if key.toList = "avg300".toList then { psiLine with avg300 := (parseAverage value).getD 0.0 }
      else if key.toList = "total".toList then { psiLine with total := (parseDecU64 value).getD 0 }
      else psiLine := by
  rw [PsiLine.setToken, Text.splitOnce_append_cons hkey]

/-- The text of a row is parsed as the row. -/
theorem parseLine_text {parseAverage : List Char → Option K} {value : Nat → K}
    (hvalue : ∀ n, parseAverage (showHundredths n) = some (value n)) {kind : String}
    (hkind : Text.IsWord kind.toList) (row : PsiRow) :
    PsiStats.parseLine parseAverage (row.text kind) = row.line value := by
  have htotal : parseDecU64 (Nat.toDigits 10 row.total.toNat) = some row.total :=
    parseDecU64_toDigits row.total
  rw [PsiStats.parseLine, row.words_text hkind, tokens, List.drop_one, List.tail_cons]
  simp only [pairs, List.map_cons, List.map_nil, List.foldl_cons, List.foldl_nil]
  rw [setToken_pair _ (by decide), setToken_pair _ (by decide), setToken_pair _ (by decide),
    setToken_pair _ (by decide), hvalue, hvalue, hvalue, htotal]
  rfl

/-- The text of a row begins with its kind. -/
theorem text_eq (kind : String) (row : PsiRow) :
    row.text kind = kind.toList ++ ' ' :: Text.joinWords ((row.tokens kind).drop 1) :=
  Text.joinWords_cons (List.cons_ne_nil _ _) _

/-- The text of a row is taken for its kind. -/
theorem lineValue_text {parseAverage : List Char → Option K} {value : Nat → K}
    (hvalue : ∀ n, parseAverage (showHundredths n) = some (value n)) {kind : String}
    (hkind : Text.IsWord kind.toList) (row : PsiRow) :
    lineValue parseAverage kind (row.text kind) = some (row.line value) := by
  have htrim : Text.trim (row.text kind) = row.text kind :=
    Text.trim_joinWords (row.isWord_tokens hkind)
  have hprefix : kind.toList <+: row.text kind := by
    rw [text_eq]
    exact List.prefix_append ..
  rw [lineValue, htrim, if_pos hprefix, row.parseLine_text hvalue hkind]

/-- The text of a row is not taken for a kind that begins in another way. -/
theorem lineValue_text_of_ne (parseAverage : List Char → Option K) {kind other : String} {c d : Char}
    {front back : List Char} (hkind : kind.toList = c :: front) (hother : other.toList = d :: back)
    (hne : d ≠ c) (hword : Text.IsWord kind.toList) (row : PsiRow) :
    lineValue parseAverage other (row.text kind) = none := by
  have htrim : Text.trim (row.text kind) = row.text kind :=
    Text.trim_joinWords (row.isWord_tokens hword)
  have hprefix : ¬ other.toList <+: row.text kind := by
    rw [text_eq, hkind, hother, List.cons_append]
    exact fun h => hne (List.cons_prefix_cons.mp h).1
  rw [lineValue, htrim, if_neg hprefix]

end PsiRow

/-- Of the text of a report the parser makes the report, with its averages as they are read. -/
theorem parse_text {parseAverage : List Char → Option K} {value : Nat → K}
    (hvalue : ∀ n, parseAverage (showHundredths n) = some (value n)) (report : PsiReport) :
    PsiStats.parse parseAverage report.text = report.stats value := by
  have hsome : Text.IsWord "some".toList := by decide
  have hfull : Text.IsWord "full".toList := by decide
  have hlines : Text.lines report.text = [report.some.text "some", report.full.text "full"] := by
    refine Text.lines_flatMap ?_
    simp only [List.forall_mem_cons]
    exact ⟨Text.joinWords_isLine (report.some.isWord_tokens hsome),
      Text.joinWords_isLine (report.full.isWord_tokens hfull), fun _ h => absurd h List.not_mem_nil⟩
  have hkinds := fun stats line => @readLine_kinds _ _ parseAverage stats line
  rw [PsiStats.parse, hlines, List.foldl_cons, List.foldl_cons, List.foldl_nil]
  have hsomeLine : (((PsiStats.zero : PsiStats K).readLine parseAverage
      (report.some.text "some")).readLine parseAverage (report.full.text "full")).some =
      report.some.line value := by
    rw [(hkinds ..).1, (hkinds ..).1, report.full.lineValue_text_of_ne parseAverage rfl rfl
      (by decide) hfull, report.some.lineValue_text hvalue hsome]
    rfl
  have hfullLine : (((PsiStats.zero : PsiStats K).readLine parseAverage
      (report.some.text "some")).readLine parseAverage (report.full.text "full")).full =
      report.full.line value := by
    rw [(hkinds ..).2, report.full.lineValue_text hvalue hfull]
    rfl
  rw [PsiReport.stats, ← hsomeLine, ← hfullLine]

/-! ## Exact averages -/

/-- The number of a text of digits. -/
def readDigits (text : List Char) : Option Nat :=
  if text ≠ [] ∧ text.all Char.isDigit then some (Nat.ofDigitChars 10 text 0) else none

/-- A decimal fraction, exactly. -/
def parseExact (text : List Char) : Option ℚ :=
  (Text.splitOnce '.' text).bind fun pair =>
    (readDigits pair.1).bind fun whole =>
      (readDigits pair.2).map fun fraction : Nat => (whole : ℚ) + fraction / 10 ^ pair.2.length

theorem readDigits_toDigits (n : Nat) : readDigits (Nat.toDigits 10 n) = some n := by
  have hdigits : (Nat.toDigits 10 n).all Char.isDigit = true :=
    List.all_eq_true.mpr fun _ hc => Text.isDigit_of_mem_toDigits hc
  rw [readDigits, if_pos ⟨Nat.toDigits_ne_nil, hdigits⟩, Nat.ofDigitChars_ten_toDigits]

theorem readDigits_pair {tens ones : Nat} (htens : tens < 10) (hones : ones < 10) :
    readDigits [Nat.digitChar tens, Nat.digitChar ones] = some (10 * tens + ones) := by
  have hall : ∀ tens < 10, ∀ ones < 10,
      readDigits [Nat.digitChar tens, Nat.digitChar ones] = some (10 * tens + ones) := by decide
  exact hall tens htens ones hones

/-- A number of hundredths is read exactly. -/
theorem parseExact_showHundredths (n : Nat) : parseExact (showHundredths n) = some (n / 100 : ℚ) := by
  have hpoint : '.' ∉ Nat.toDigits 10 (n / 100) := fun hmem =>
    absurd (Text.isDigit_of_mem_toDigits hmem) (by decide)
  have hpair := @readDigits_pair (n / 10 % 10) (n % 10) (Nat.mod_lt _ (by decide))
    (Nat.mod_lt _ (by decide))
  have hvalue : (n : ℚ) = 100 * (n / 100 : Nat) + (10 * (n / 10 % 10) + n % 10 : Nat) := by
    have hnat : n = 100 * (n / 100) + (10 * (n / 10 % 10) + n % 10) := by omega
    exact_mod_cast hnat
  rw [parseExact, showHundredths, Text.splitOnce_append_cons hpoint, Option.bind_some,
    readDigits_toDigits, Option.bind_some, hpair, Option.map_some, Option.some_inj, hvalue]
  simp only [List.length_cons, List.length_nil]
  grind

end Animaksm.Common
