import Animaksm.Lib.Words
import Mathlib.Logic.Function.Iterate

/-!
# Prefixes and suffixes

A prefix is taken off a text once, a suffix as often as the text ends with it. White
space around a text does not change what trimming leaves of it.
-/

namespace Text

variable {pattern text front back line : List Char}

/-! ## Prefixes -/

theorem dropPrefix?_append (pattern text : List Char) : (pattern ++ text).dropPrefix? pattern = some text :=
  List.dropPrefix?_append_of_beq text (beq_self_eq_true pattern)

theorem prefix_of_dropPrefix? {rest : List Char} (h : text.dropPrefix? pattern = some rest) :
    pattern <+: text := by
  obtain ⟨front, rfl, hfront⟩ := List.dropPrefix?_eq_some_iff.mp h
  exact eq_of_beq hfront ▸ List.prefix_append _ _

theorem dropPrefix?_eq_none (h : ¬ pattern <+: text) : text.dropPrefix? pattern = none :=
  Option.eq_none_iff_forall_ne_some.mpr fun _ hsome => h (prefix_of_dropPrefix? hsome)

/-- A text begins with one of two prefixes only, unless one of them begins with the other. -/
theorem dropPrefix?_of_other {other : List Char} (h : other <+: text) (hne : ¬ pattern <+: other)
    (hne' : ¬ other <+: pattern) : text.dropPrefix? pattern = none :=
  dropPrefix?_eq_none fun hpattern => (List.prefix_or_prefix_of_prefix hpattern h).elim hne hne'

/-- A line that does not begin with a text does not without its return. -/
theorem dropPrefix?_stripReturn (h : ¬ pattern <+: line) : (stripReturn line).dropPrefix? pattern = none := by
  refine dropPrefix?_eq_none fun hpattern => h (hpattern.trans ?_)
  unfold stripReturn
  split
  · exact List.dropLast_prefix line
  · exact List.prefix_rfl

/-! ## Suffixes -/

/-- The text without a suffix, if it ends with it. -/
def stripSuffix (pattern text : List Char) : List Char := (text.dropSuffix? pattern).getD text

/-- The text without a suffix, as often as it ends with it. -/
def trimEndMatches (pattern text : List Char) : List Char := (stripSuffix pattern)^[text.length] text

theorem stripSuffix_append (text pattern : List Char) : stripSuffix pattern (text ++ pattern) = text := by
  rw [stripSuffix, List.dropSuffix?_eq_some_iff.mpr ⟨pattern, rfl, beq_self_eq_true pattern⟩,
    Option.getD_some]

theorem stripSuffix_of_not (h : ¬ pattern <:+ text) : stripSuffix pattern text = text := by
  have hnone : text.dropSuffix? pattern = none := by
    refine Option.eq_none_iff_forall_ne_some.mpr fun front hsome => h ?_
    obtain ⟨back, rfl, hback⟩ := List.dropSuffix?_eq_some_iff.mp hsome
    exact eq_of_beq hback ▸ List.suffix_append _ _
  rw [stripSuffix, hnone, Option.getD_none]

/-- A suffix behind a text that does not end with it is taken off. -/
theorem trimEndMatches_append (h : ¬ pattern <:+ text) : trimEndMatches pattern (text ++ pattern) = text := by
  cases hlength : (text ++ pattern).length with
  | zero =>
    obtain ⟨rfl, rfl⟩ := List.append_eq_nil_iff.mp (List.length_eq_zero_iff.mp hlength)
    exact absurd List.suffix_rfl h
  | succ n =>
    rw [trimEndMatches, hlength, Function.iterate_succ_apply, stripSuffix_append,
      Function.iterate_fixed (stripSuffix_of_not h)]

/-! ## White space around a text -/

theorem trim_blank_append (h : Blank front) (text : List Char) : trim (front ++ text) = trim text := by
  rw [trim, List.dropWhile_append_of_pos h]
  rfl

theorem rdropWhile_append_blank (h : Blank back) (text : List Char) :
    (text ++ back).rdropWhile isWhitespace = text.rdropWhile isWhitespace := by
  rw [List.rdropWhile, List.reverse_append, List.dropWhile_append_of_pos]
  · rfl
  · exact fun c hc => h c (List.mem_reverse.mp hc)

theorem trim_append_blank (h : Blank back) (text : List Char) : trim (text ++ back) = trim text := by
  rw [trim, trim, List.dropWhile_append]
  split
  next hempty =>
    rw [List.isEmpty_iff.mp hempty, List.dropWhile_eq_nil_iff.mpr h]
  next => exact rdropWhile_append_blank h _

/-- A return at the end of a line is white space. -/
theorem trim_stripReturn (line : List Char) : trim (stripReturn line) = trim line := by
  unfold stripReturn
  split
  next hlast =>
    obtain ⟨front, rfl⟩ := List.getLast?_eq_some_iff.mp hlast
    rw [List.dropLast_concat]
    exact (trim_append_blank (List.forall_mem_singleton.mpr rfl) front).symm
  next => rfl

/-- Lines that are each ended by a line feed are read without their returns. -/
theorem lines_flatMap_feed {ls : List (List Char)} (h : ∀ line ∈ ls, '\n' ∉ line) :
    lines (ls.flatMap (· ++ ['\n'])) = ls.map stripReturn := by
  induction ls with
  | nil => rfl
  | cons line ls ih =>
    obtain ⟨hfeed, hrest⟩ := List.forall_mem_cons.mp h
    rw [List.flatMap_cons, List.append_assoc, List.singleton_append, lines_cons hfeed, List.map_cons,
      ih hrest]

end Text
