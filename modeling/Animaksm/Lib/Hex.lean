import Animaksm.Lib.Text

/-!
# Hexadecimal numbers

Numbers in base 16 are parsed with digits of either case and an optional plus sign,
below the limit of their type. A number is parsed back from its lower-case digits,
with any zeros in front of them.
-/

namespace Text

/-- The value of a hexadecimal digit. -/
def hexValue (c : Char) : Option Nat :=
  if '0' ≤ c ∧ c ≤ '9' then some (c.toNat - '0'.toNat)
  else if 'a' ≤ c ∧ c ≤ 'f' then some (c.toNat - 'a'.toNat + 10)
  else if 'A' ≤ c ∧ c ≤ 'F' then some (c.toNat - 'A'.toNat + 10)
  else none

/-- Accumulate hexadecimal digits, with overflow at the limit as a failure. -/
def parseHexDigits (limit : Nat) : Nat → List Char → Option Nat
  | acc, [] => some acc
  | acc, c :: cs =>
    (hexValue c).bind fun d =>
      if 16 * acc + d < limit then parseHexDigits limit (16 * acc + d) cs else none

/-- Parse an unsigned hexadecimal number below the limit, with an optional plus sign. -/
def parseHex (limit : Nat) (text : List Char) : Option Nat :=
  if stripPlus text = [] then none else parseHexDigits limit 0 (stripPlus text)

/-- The lower-case digits of a number, with zeros in front up to a width. -/
def showHex (width n : Nat) : List Char := (Nat.toDigits 16 n).leftpad width '0'

/-- A digit that a number is shown with. -/
def IsHexDigit (c : Char) : Prop := ∃ d < 16, Nat.digitChar d = c

variable {limit n width : Nat} {c : Char}

theorem hexValue_digitChar : ∀ d < 16, hexValue (Nat.digitChar d) = some d := by decide

/-- The last digit of a number and the digits before it. -/
theorem toDigits_hex (h : 16 ≤ n) :
    Nat.toDigits 16 n = Nat.toDigits 16 (n / 16) ++ [Nat.digitChar (n % 16)] := by
  have hmod : n % 16 < 16 := Nat.mod_lt _ (by decide)
  rw [← Nat.toDigits_of_lt_base hmod,
    Nat.toDigits_append_toDigits (by decide) (Nat.div_pos h (by decide)) hmod, Nat.div_add_mod]

theorem isHexDigit_of_mem_toDigits (h : c ∈ Nat.toDigits 16 n) : IsHexDigit c := by
  induction n using Nat.strongRecOn with
  | ind n ih =>
    rcases Nat.lt_or_ge n 16 with hlt | hge
    · rw [Nat.toDigits_of_lt_base hlt, List.mem_singleton] at h
      exact ⟨n, hlt, h.symm⟩
    · rw [toDigits_hex hge, List.mem_append, List.mem_singleton] at h
      rcases h with h | h
      · exact ih (n / 16) (Nat.div_lt_self (by omega) (by decide)) h
      · exact ⟨n % 16, Nat.mod_lt _ (by decide), h.symm⟩

/-- A number is shown with hexadecimal digits. -/
theorem isHexDigit_of_mem_showHex (h : c ∈ showHex width n) : IsHexDigit c := by
  rw [showHex, List.leftpad, List.mem_append] at h
  rcases h with h | h
  · exact ⟨0, by decide, (List.eq_of_mem_replicate h).symm⟩
  · exact isHexDigit_of_mem_toDigits h

theorem showHex_ne_nil (width n : Nat) : showHex width n ≠ [] :=
  List.append_ne_nil_of_right_ne_nil _ Nat.toDigits_ne_nil

/-- A digit is neither white space nor a mark. -/
theorem IsHexDigit.ne (h : IsHexDigit c) : isWhitespace c = false ∧ c ≠ '+' ∧ c ≠ '-' ∧ c ≠ '[' := by
  obtain ⟨d, hd, rfl⟩ := h
  revert d
  decide

theorem isWord_showHex (width n : Nat) : IsWord (showHex width n) :=
  ⟨showHex_ne_nil width n, fun _ hc => (isHexDigit_of_mem_showHex hc).ne.1⟩

/-- Digits are read from left to right. -/
theorem parseHexDigits_append {acc : Nat} {front back : List Char} :
    parseHexDigits limit acc (front ++ back) =
      (parseHexDigits limit acc front).bind fun acc => parseHexDigits limit acc back := by
  induction front generalizing acc with
  | nil => rfl
  | cons c front ih =>
    rw [List.cons_append, parseHexDigits, parseHexDigits]
    cases hexValue c with
    | none => rfl
    | some d =>
      dsimp only [Option.bind_some]
      split
      · exact ih
      · rfl

theorem parseHexDigits_toDigits (h : n < limit) :
    parseHexDigits limit 0 (Nat.toDigits 16 n) = some n := by
  induction n using Nat.strongRecOn with
  | ind n ih =>
    rcases Nat.lt_or_ge n 16 with hlt | hge
    · rw [Nat.toDigits_of_lt_base hlt, parseHexDigits, hexValue_digitChar n hlt, Option.bind_some,
        if_pos (by omega), parseHexDigits]
      exact congrArg some (Nat.zero_add n)
    · have hmod : n % 16 < 16 := Nat.mod_lt _ (by decide)
      have hvalue : 16 * (n / 16) + n % 16 = n := Nat.div_add_mod n 16
      rw [toDigits_hex hge, parseHexDigits_append, ih (n / 16) (by omega) (by omega),
        Option.bind_some, parseHexDigits, hexValue_digitChar _ hmod, Option.bind_some, hvalue,
        if_pos h, parseHexDigits]

/-- Zeros in front do not change a number. -/
theorem parseHexDigits_zeros (h : 0 < limit) (zeros : Nat) (digits : List Char) :
    parseHexDigits limit 0 (List.replicate zeros '0' ++ digits) = parseHexDigits limit 0 digits := by
  induction zeros with
  | zero => rfl
  | succ zeros ih =>
    rw [List.replicate_succ, List.cons_append, parseHexDigits]
    exact (if_pos h).trans ih

/-- A number below the limit is parsed back from its digits. -/
theorem parseHex_showHex (h : n < limit) : parseHex limit (showHex width n) = some n := by
  have hplus : '+' ∉ showHex width n := fun hmem => (isHexDigit_of_mem_showHex hmem).ne.2.1 rfl
  rw [parseHex, stripPlus_eq hplus, if_neg (showHex_ne_nil width n), showHex, List.leftpad,
    parseHexDigits_zeros (Nat.zero_lt_of_lt h), parseHexDigits_toDigits h]

end Text
