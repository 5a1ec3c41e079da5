import Mathlib.Data.List.DropRight

/-!
# Trimmed text, lines, words and decimal numbers

Texts are lists of characters. A value shown with white space after it is found
again by trimming, lines and words are found again where they were put together,
and a number below the limit of its type is parsed back from its decimal digits.
-/

namespace Text

/-- The characters with the Unicode property `White_Space`. -/
def isWhitespace (c : Char) : Bool :=
  let n := c.toNat
  decide (9 ≤ n ∧ n ≤ 13 ∨ n = 32 ∨ n = 0x85 ∨ n = 0xA0 ∨ n = 0x1680 ∨ 0x2000 ≤ n ∧ n ≤ 0x200A ∨
    n = 0x2028 ∨ n = 0x2029 ∨ n = 0x202F ∨ n = 0x205F ∨ n = 0x3000)

/-- The text without leading and trailing white space. -/
def trim (text : List Char) : List Char := (text.dropWhile isWhitespace).rdropWhile isWhitespace

/-- Accumulate decimal digits, with overflow at the limit as a failure. -/
def parseDigits (limit : Nat) : Nat → List Char → Option Nat
  | acc, [] => some acc
  | acc, c :: cs =>
    if c.isDigit ∧ 10 * acc + (c.toNat - '0'.toNat) < limit then
      parseDigits limit (10 * acc + (c.toNat - '0'.toNat)) cs
    else none

/-- The text without a leading plus sign. -/
def stripPlus : List Char → List Char
  | '+' :: digits => digits
  | text => text

/-- Parse an unsigned decimal number below the limit, with an optional plus sign. -/
def parseNat (limit : Nat) (text : List Char) : Option Nat :=
  if stripPlus text = [] then none else parseDigits limit 0 (stripPlus text)

/-- A text that shows a value, with nothing but white space after it. -/
def Shows (value text : List Char) : Prop :=
  ∃ tail, (∀ c ∈ tail, isWhitespace c) ∧ text = value ++ tail

variable {value text digits : List Char} {limit n : Nat}

/-- A value on a line of its own is shown. -/
theorem shows_newline (value : List Char) : Shows value (value ++ ['\n']) :=
  ⟨['\n'], List.forall_mem_singleton.mpr rfl, rfl⟩

/-- Trimming finds a value that neither begins nor ends with white space. -/
theorem Shows.trim_eq (h : Shows value text) (hhead : ∀ c ∈ value.head?, ¬ isWhitespace c)
    (hlast : ∀ c ∈ value.getLast?, ¬ isWhitespace c) : trim text = value := by
  obtain ⟨tail, htail, rfl⟩ := h
  cases value with
  | nil => rw [trim, List.nil_append, List.dropWhile_eq_nil_iff.mpr htail, List.rdropWhile_nil]
  | cons c cs =>
    have hfront : (c :: cs ++ tail).dropWhile isWhitespace = c :: cs ++ tail :=
      List.dropWhile_cons_of_neg (hhead c rfl)
    rw [trim, hfront, List.rdropWhile, List.reverse_append, List.dropWhile_append_of_pos]
    · exact List.rdropWhile_eq_self_iff.mpr fun hne => hlast _ (List.getLast?_eq_some_getLast hne)
    · exact fun d hd => htail d (List.mem_reverse.mp hd)

/-- Digits only add to the number read so far. -/
theorem le_ofDigitChars (acc : Nat) : acc ≤ Nat.ofDigitChars 10 digits acc := by
  induction digits generalizing acc with
  | nil => rw [Nat.ofDigitChars_nil]
  | cons c cs ih =>
    rw [Nat.ofDigitChars_cons]
    exact le_trans (by omega) (ih _)

/-- A number below the limit is read from its digits. -/
theorem parseDigits_eq {acc : Nat} (hdigits : ∀ c ∈ digits, c.isDigit)
    (hlimit : Nat.ofDigitChars 10 digits acc < limit) :
    parseDigits limit acc digits = some (Nat.ofDigitChars 10 digits acc) := by
  induction digits generalizing acc with
  | nil => rw [parseDigits, Nat.ofDigitChars_nil]
  | cons c cs ih =>
    obtain ⟨hc, hcs⟩ := List.forall_mem_cons.mp hdigits
    rw [Nat.ofDigitChars_cons] at hlimit ⊢
    rw [parseDigits, if_pos ⟨hc, lt_of_le_of_lt (le_ofDigitChars _) hlimit⟩, ih hcs hlimit]

/-- The decimal digits of a number are digits. -/
theorem isDigit_of_mem_toDigits {c : Char} (h : c ∈ Nat.toDigits 10 n) : c.isDigit :=
  Nat.isDigit_of_mem_toDigits (by decide) (by decide) h

theorem stripPlus_eq (h : '+' ∉ text) : stripPlus text = text := by
  unfold stripPlus
  split
  next => exact absurd List.mem_cons_self h
  next => rfl

/-- A number below the limit is parsed back from its decimal digits. -/
theorem parseNat_toDigits (h : n < limit) : parseNat limit (Nat.toDigits 10 n) = some n := by
  have hplus : '+' ∉ Nat.toDigits 10 n := fun hmem =>
    absurd (isDigit_of_mem_toDigits hmem) (by decide)
  have hvalue : Nat.ofDigitChars 10 (Nat.toDigits 10 n) 0 = n := Nat.ofDigitChars_ten_toDigits
  rw [parseNat, stripPlus_eq hplus, if_neg Nat.toDigits_ne_nil,
    parseDigits_eq (fun _ => isDigit_of_mem_toDigits) (hvalue.trans_lt h), hvalue]

/-- A digit is neither white space nor a bracket. -/
theorem not_isWhitespace_of_isDigit {c : Char} (h : c.isDigit) : ¬ isWhitespace c := by
  have hrange : 48 ≤ c.toNat ∧ c.toNat ≤ 57 := by
    simpa [Char.isDigit, UInt32.le_iff_toNat_le] using h
  simp only [isWhitespace, decide_eq_true_eq]
  omega

/-- A number shown in decimal is found by trimming. -/
theorem Shows.trim_toDigits (h : Shows (Nat.toDigits 10 n) text) : trim text = Nat.toDigits 10 n :=
  h.trim_eq
    (fun _ hc => not_isWhitespace_of_isDigit (isDigit_of_mem_toDigits (List.mem_of_mem_head? hc)))
    (fun _ hc => not_isWhitespace_of_isDigit (isDigit_of_mem_toDigits (List.mem_of_mem_getLast? hc)))

/-! ## Lines and words -/

/-- A line without the return before its line feed. -/
def stripReturn (line : List Char) : List Char :=
  if line.getLast? = some '\r' then line.dropLast else line

/-- The lines of a text; the end of the last one is optional. -/
def lines (text : List Char) : List (List Char) :=
  let pieces := text.splitOn '\n'
  pieces.dropLast.map stripReturn ++ pieces.getLast?.toList.filter (· ≠ [])

/-- The words of a text, without the white space around them. -/
def words (text : List Char) : List (List Char) := (text.splitOnP isWhitespace).filter (· ≠ [])

/-- A text that is one word. -/
def IsWord (word : List Char) : Prop := word ≠ [] ∧ ∀ c ∈ word, isWhitespace c = false

instance (word : List Char) : Decidable (IsWord word) :=
  decidable_of_iff (word ≠ [] ∧ word.all (fun c => !isWhitespace c)) (by simp [IsWord])

variable {line rest word first second : List Char}

/-- A line stands before the lines that follow it. -/
theorem lines_append (hfeed : '\n' ∉ line) (hreturn : line.getLast? ≠ some '\r') (rest : List Char) :
    lines (line ++ '\n' :: rest) = line :: lines rest := by
  have hne : rest.splitOn '\n' ≠ [] := List.splitOn_ne_nil _ _
  rw [lines, List.splitOn_append_cons_self_of_not_mem hfeed]
  rw [List.dropLast_cons_of_ne_nil hne, List.map_cons, List.getLast?_cons_of_ne_nil hne, stripReturn,
    if_neg hreturn]
  rfl

/-- Lines that are each ended by a line feed are the lines of the text. -/
theorem lines_flatMap {ls : List (List Char)}
    (h : ∀ line ∈ ls, '\n' ∉ line ∧ line.getLast? ≠ some '\r') :
    lines (ls.flatMap (· ++ ['\n'])) = ls := by
  induction ls with
  | nil => rfl
  | cons line ls ih =>
    obtain ⟨⟨hfeed, hreturn⟩, hrest⟩ := List.forall_mem_cons.mp h
    rw [List.flatMap_cons, List.append_assoc, List.singleton_append, lines_append hfeed hreturn,
      ih hrest]

theorem words_of_isWord (h : IsWord word) : words word = [word] := by
  rw [words, List.splitOnP_eq_singleton h.2, List.filter_cons_of_pos (by simpa using h.1),
    List.filter_nil]

/-- Two words with a space between them. -/
theorem words_pair (hfirst : IsWord first) (hsecond : IsWord second) :
    words (first ++ ' ' :: second) = [first, second] := by
  have hrest := words_of_isWord hsecond
  rw [words] at hrest ⊢
  rw [List.splitOnP_append_cons_of_forall_mem hfirst.2 ' ' rfl,
    List.filter_cons_of_pos (by simpa using hfirst.1), hrest]

/-- Two words with a space between them make a line. -/
theorem pair_isLine (hfirst : IsWord first) (hsecond : IsWord second) :
    '\n' ∉ first ++ ' ' :: second ∧ (first ++ ' ' :: second).getLast? ≠ some '\r' := by
  constructor
  · rw [List.mem_append, List.mem_cons]
    rintro (hmem | heq | hmem)
    · exact absurd (hfirst.2 _ hmem) (by decide)
    · exact absurd heq (by decide)
    · exact absurd (hsecond.2 _ hmem) (by decide)
  · rw [List.getLast?_append_of_ne_nil _ (List.cons_ne_nil _ _),
      List.getLast?_cons_of_ne_nil hsecond.1]
    exact fun hlast => absurd (hsecond.2 _ (List.mem_of_getLast? hlast)) (by decide)

theorem isWord_toDigits (n : Nat) : IsWord (Nat.toDigits 10 n) :=
  ⟨Nat.toDigits_ne_nil, fun _ hc => Bool.eq_false_iff.mpr
    (not_isWhitespace_of_isDigit (isDigit_of_mem_toDigits hc))⟩

/-- A text occurs after a part without its first character. -/
theorem infix_append_iff {c : Char} {pattern front back : List Char} (h : c ∉ front) :
    c :: pattern <:+: front ++ back ↔ c :: pattern <:+: back := by
  induction front with
  | nil => rfl
  | cons d front ih =>
    obtain ⟨hne, hfront⟩ := List.ne_and_not_mem_of_not_mem_cons h
    rw [List.cons_append, List.infix_cons_iff, List.cons_prefix_cons, ih hfront]
    exact or_iff_right fun hprefix => hne hprefix.1

/-! ## Signed numbers -/

/-- Parse a signed decimal number, at least `-limit` and below `limit`. -/
def parseInt (limit : Nat) : List Char → Option Int
  | '-' :: digits =>
    if digits = [] then none
    else (parseDigits (limit + 1) 0 digits).map fun magnitude : Nat => -(magnitude : Int)
  | text => (parseNat limit text).map Int.ofNat

/-- The decimal digits of a number, with its sign if it is negative. -/
def showInt (n : Int) : List Char :=
  if n < 0 then '-' :: Nat.toDigits 10 n.natAbs else Nat.toDigits 10 n.toNat

theorem isWord_showInt (n : Int) : IsWord (showInt n) := by
  unfold showInt
  split
  · obtain ⟨-, hspace⟩ := isWord_toDigits n.natAbs
    exact ⟨List.cons_ne_nil _ _, List.forall_mem_cons.mpr ⟨rfl, hspace⟩⟩
  · exact isWord_toDigits n.toNat

/-- A number within the limits is parsed back from its digits. -/
theorem parseInt_showInt {n : Int} (hlow : -(limit : Int) ≤ n) (hhigh : n < limit) :
    parseInt limit (showInt n) = some n := by
  have hvalue : ∀ m, Nat.ofDigitChars 10 (Nat.toDigits 10 m) 0 = m :=
    fun m => Nat.ofDigitChars_ten_toDigits
  unfold showInt
  split
  next hneg =>
    have hlimit : Nat.ofDigitChars 10 (Nat.toDigits 10 n.natAbs) 0 < limit + 1 := by
      rw [hvalue]
      omega
    rw [parseInt, if_neg Nat.toDigits_ne_nil,
      parseDigits_eq (fun _ => isDigit_of_mem_toDigits) hlimit, hvalue, Option.map_some,
      Option.some_inj]
    omega
  next hneg =>
    have hminus : ∀ digits, Nat.toDigits 10 n.toNat ≠ '-' :: digits := fun digits heq =>
      absurd (isDigit_of_mem_toDigits (heq ▸ List.mem_cons_self ..)) (by decide)
    rw [parseInt, parseNat_toDigits (by omega), Option.map_some, Option.some_inj]
    · exact Int.toNat_of_nonneg (by omega)
    · exact hminus

end Text
