import Animaksm.Lib.Text

/-!
# The columns of a line

White space splits a line into words, however much of it there is. The first word is
found without splitting, and the words with one space between them are the line
trimmed and with every run of white space collapsed.
-/

namespace Text

/-- There is nothing but white space. -/
def Blank (text : List Char) : Prop := ∀ c ∈ text, isWhitespace c = true

/-- The text does not go on with a word. -/
def Breaks (rest : List Char) : Prop := ∀ c ∈ rest.head?, isWhitespace c = true

/-- The first column of a line. -/
def FirstColumn (line word : List Char) : Prop :=
  ∃ indent rest, line = indent ++ (word ++ rest) ∧ Blank indent ∧ IsWord word ∧ Breaks rest

/-- The text with each run of white space replaced by one space. -/
def collapseRuns : List Char → List Char
  | [] => []
  | c :: cs =>
    if isWhitespace c then
      if cs.head?.any isWhitespace then collapseRuns cs else ' ' :: collapseRuns cs
    else c :: collapseRuns cs

/-- The words with one space between them. -/
def joinWords (words : List (List Char)) : List Char := [' '].intercalate words

variable {c : Char} {text line word rest front back pattern : List Char}

/-! ## Splitting -/

/-- Words are split at white space. -/
theorem words_append_cons (hc : isWhitespace c) (front back : List Char) :
    words (front ++ c :: back) = words front ++ words back := by
  rw [words, List.splitOnP_append_cons front back hc, List.filter_append]
  rfl

theorem words_cons (hc : isWhitespace c) (text : List Char) : words (c :: text) = words text :=
  words_append_cons hc [] text

/-- White space in front of a text belongs to no word. -/
theorem words_blank_append (h : Blank front) (text : List Char) : words (front ++ text) = words text := by
  induction front with
  | nil => rfl
  | cons c front ih =>
    obtain ⟨hc, hfront⟩ := List.forall_mem_cons.mp h
    rw [List.cons_append, words_cons hc, ih hfront]

theorem words_blank (h : Blank text) : words text = [] := by
  rw [← List.append_nil text, words_blank_append h]
  rfl

/-- White space after a text belongs to no word. -/
theorem words_append_blank (h : Blank back) (text : List Char) : words (text ++ back) = words text := by
  cases back with
  | nil => rw [List.append_nil]
  | cons c back =>
    obtain ⟨hc, hback⟩ := List.forall_mem_cons.mp h
    rw [words_append_cons hc, words_blank hback, List.append_nil]

/-- A word is split off where it ends. -/
theorem words_word_append (hword : IsWord word) (hrest : Breaks rest) :
    words (word ++ rest) = word :: words rest := by
  cases rest with
  | nil =>
    rw [List.append_nil, words_of_isWord hword]
    rfl
  | cons c rest =>
    have hc : isWhitespace c = true := hrest c rfl
    rw [words_append_cons hc, words_of_isWord hword, words_cons hc]
    rfl

/-- A text is blank or has a first column. -/
theorem blank_or_firstColumn (text : List Char) : Blank text ∨ ∃ word, FirstColumn text word := by
  induction text with
  | nil => exact .inl fun _ h => absurd h List.not_mem_nil
  | cons c text ih =>
    by_cases hc : isWhitespace c = true
    · rcases ih with hblank | ⟨word, indent, rest, rfl, hindent, hword, hrest⟩
      · exact .inl (List.forall_mem_cons.mpr ⟨hc, hblank⟩)
      · exact .inr ⟨word, c :: indent, rest, rfl, List.forall_mem_cons.mpr ⟨hc, hindent⟩, hword, hrest⟩
    · have hsplit : text = text.takeWhile (fun d => !isWhitespace d) ++
          text.dropWhile (fun d => !isWhitespace d) := List.takeWhile_append_dropWhile.symm
      refine .inr ⟨c :: text.takeWhile (fun d => !isWhitespace d), [],
        text.dropWhile (fun d => !isWhitespace d), congrArg (List.cons c) hsplit,
        fun _ h => absurd h List.not_mem_nil, ⟨List.cons_ne_nil _ _, ?_⟩, ?_⟩
      · refine List.forall_mem_cons.mpr ⟨Bool.eq_false_iff.mpr hc, fun d hd => ?_⟩
        simpa using List.mem_takeWhile_imp hd
      · intro d hd
        have hnot := List.head?_dropWhile_not (fun d => !isWhitespace d) text
        rw [Option.mem_def.mp hd] at hnot
        simpa using hnot

/-- The first word of a line is its first column. -/
theorem head?_words_eq_some : (words line).head? = some word ↔ FirstColumn line word := by
  have hmp : ∀ word, FirstColumn line word → (words line).head? = some word := by
    rintro word ⟨indent, rest, rfl, hindent, hword, hrest⟩
    rw [words_blank_append hindent, words_word_append hword hrest]
    rfl
  refine ⟨fun h => ?_, hmp word⟩
  rcases blank_or_firstColumn line with hblank | ⟨first, hfirst⟩
  · rw [words_blank hblank] at h
    cases h
  · rw [hmp first hfirst] at h
    exact Option.some_inj.mp h ▸ hfirst

/-- A text that does not begin with white space begins with a word. -/
theorem exists_word (hne : text ≠ []) (hhead : ∀ c ∈ text.head?, isWhitespace c = false) :
    ∃ word rest, text = word ++ rest ∧ IsWord word ∧ Breaks rest := by
  have habsurd : ∀ c text', text = c :: text' → isWhitespace c ≠ true := fun c text' heq hc =>
    absurd ((hhead c (heq ▸ rfl)).symm.trans hc) Bool.false_ne_true
  rcases blank_or_firstColumn text with hblank | ⟨word, indent, rest, heq, hindent, hword, hrest⟩
  · obtain ⟨c, text', rfl⟩ := List.exists_cons_of_ne_nil hne
    exact absurd (hblank c List.mem_cons_self) (habsurd c text' rfl)
  · cases indent with
    | nil => exact ⟨word, rest, heq, hword, hrest⟩
    | cons c indent => exact absurd (hindent c List.mem_cons_self) (habsurd c _ heq)

/-! ## Joining -/

@[simp] theorem joinWords_singleton (word : List Char) : joinWords [word] = word :=
  List.intercalate_singleton

theorem joinWords_cons {ws : List (List Char)} (h : ws ≠ []) (word : List Char) :
    joinWords (word :: ws) = word ++ ' ' :: joinWords ws := by
  rw [joinWords, List.intercalate_cons_of_ne_nil h, List.append_assoc]
  rfl

/-- Joined words are found again, with whatever follows them. -/
theorem words_joinWords_append {ws : List (List Char)} (hne : ws ≠ []) (hws : ∀ w ∈ ws, IsWord w)
    (hrest : Breaks rest) : words (joinWords ws ++ rest) = ws ++ words rest := by
  induction ws with
  | nil => exact absurd rfl hne
  | cons w ws ih =>
    obtain ⟨hw, hws⟩ := List.forall_mem_cons.mp hws
    cases ws with
    | nil =>
      rw [joinWords_singleton]
      exact words_word_append hw hrest
    | cons w' ws =>
      rw [joinWords_cons (List.cons_ne_nil w' ws), List.append_assoc, List.cons_append,
        words_append_cons rfl, ih (List.cons_ne_nil w' ws) hws, words_of_isWord hw]
      rfl

/-- A character of joined words is a space or a character of a word. -/
theorem mem_joinWords {ws : List (List Char)} (h : c ∈ joinWords ws) : c = ' ' ∨ ∃ w ∈ ws, c ∈ w := by
  induction ws with
  | nil => cases h
  | cons w ws ih =>
    cases ws with
    | nil => exact .inr ⟨w, List.mem_cons_self, joinWords_singleton w ▸ h⟩
    | cons w' ws =>
      rw [joinWords_cons (List.cons_ne_nil w' ws), List.mem_append, List.mem_cons] at h
      rcases h with h | h | h
      · exact .inr ⟨w, List.mem_cons_self, h⟩
      · exact .inl h
      · exact (ih h).imp_right fun ⟨w, hw, hc⟩ => ⟨w, List.mem_cons_of_mem _ hw, hc⟩

/-! ## Lines -/

/-- A line stands before the lines that follow it, without its return. -/
theorem lines_cons (hfeed : '\n' ∉ line) (rest : List Char) :
    lines (line ++ '\n' :: rest) = stripReturn line :: lines rest := by
  have hne : rest.splitOn '\n' ≠ [] := List.splitOn_ne_nil _ _
  rw [lines, List.splitOn_append_cons_self_of_not_mem hfeed]
  rw [List.dropLast_cons_of_ne_nil hne, List.map_cons, List.getLast?_cons_of_ne_nil hne]
  rfl

/-- A return at the end of a line belongs to no word. -/
theorem words_stripReturn (line : List Char) : words (stripReturn line) = words line := by
  unfold stripReturn
  split
  next hlast =>
    obtain ⟨front, rfl⟩ := List.getLast?_eq_some_iff.mp hlast
    rw [List.dropLast_concat]
    exact (words_append_blank (List.forall_mem_singleton.mpr rfl) front).symm
  next => rfl

/-- Only a return at the end of what follows is taken off. -/
theorem stripReturn_append_cons (hc : c ≠ '\r') (front rest : List Char) :
    stripReturn (front ++ c :: rest) = front ++ c :: stripReturn rest := by
  cases rest with
  | nil =>
    have hlast : (front ++ [c]).getLast? ≠ some '\r' := by
      rw [List.getLast?_concat]
      exact fun h => hc (Option.some_inj.mp h)
    rw [stripReturn, if_neg hlast]
    rfl
  | cons d rest =>
    have hlast : (front ++ c :: d :: rest).getLast? = (d :: rest).getLast? := by
      rw [List.getLast?_append_cons, List.getLast?_cons_cons]
    rw [stripReturn, stripReturn, hlast]
    split
    · rw [List.dropLast_append_cons, List.dropLast_cons_of_ne_nil (List.cons_ne_nil d rest)]
    · rfl

/-- Taking off a return does not change where a text without one occurs. -/
theorem infix_stripReturn (hreturn : '\r' ∉ pattern) (hne : pattern ≠ []) :
    pattern <:+: stripReturn line ↔ pattern <:+: line := by
  unfold stripReturn
  split
  next hlast =>
    obtain ⟨front, rfl⟩ := List.getLast?_eq_some_iff.mp hlast
    rw [List.dropLast_concat, List.infix_concat_iff]
    refine (or_iff_right fun hsuffix => hreturn ?_).symm
    have hlast := hsuffix.getLast hne
    rw [List.getLast_concat] at hlast
    exact hlast ▸ List.getLast_mem hne
  next => rfl

/-- The first piece of a text ends at the first separator. -/
theorem head?_splitOn (separator : Char) (text : List Char) :
    (text.splitOn separator).head? = some (text.takeWhile (· != separator)) := by
  induction text with
  | nil => rfl
  | cons c text ih =>
    rw [List.splitOn_cons_eq_if_modifyHead, List.takeWhile_cons, bne]
    cases c == separator with
    | true => rfl
    | false =>
      rw [if_neg Bool.false_ne_true, List.head?_modifyHead, ih]
      rfl

/-! ## Collapsed runs -/

theorem collapseRuns_word (hword : ∀ c ∈ word, isWhitespace c = false) (rest : List Char) :
    collapseRuns (word ++ rest) = word ++ collapseRuns rest := by
  induction word with
  | nil => rfl
  | cons c word ih =>
    obtain ⟨hc, hword⟩ := List.forall_mem_cons.mp hword
    rw [List.cons_append, collapseRuns, hc, if_neg Bool.false_ne_true, ih hword]
    rfl

/-- A run before a word becomes one space. -/
theorem collapseRuns_run (hrun : Blank front) (hne : front ≠ [])
    (htext : ∀ c ∈ text.head?, isWhitespace c = false) :
    collapseRuns (front ++ text) = ' ' :: collapseRuns text := by
  induction front with
  | nil => exact absurd rfl hne
  | cons c front ih =>
    obtain ⟨hc, hfront⟩ := List.forall_mem_cons.mp hrun
    rw [List.cons_append, collapseRuns, if_pos hc]
    cases front with
    | nil =>
      have hhead : text.head?.any isWhitespace = false := by
        cases hfirst : text.head? with
        | none => rfl
        | some d => exact htext d hfirst
      rw [List.nil_append, hhead, if_neg Bool.false_ne_true]
    | cons d front =>
      have hhead : (d :: front ++ text).head?.any isWhitespace = true :=
        (List.forall_mem_cons.mp hfront).1
      rw [hhead, if_pos rfl, ih hfront (List.cons_ne_nil _ _)]

/-- A text that begins with a word has words. -/
theorem words_ne_nil (hne : text ≠ []) (hhead : ∀ c ∈ text.head?, isWhitespace c = false) :
    words text ≠ [] := by
  obtain ⟨word, rest, rfl, hword, hrest⟩ := exists_word hne hhead
  rw [words_word_append hword hrest]
  exact List.cons_ne_nil _ _

/-- What comes after the white space in front of a text. -/
theorem head?_dropWhile (text : List Char) :
    ∀ c ∈ (text.dropWhile isWhitespace).head?, isWhitespace c = false := by
  intro c hc
  have hnot := List.head?_dropWhile_not isWhitespace text
  rw [Option.mem_def.mp hc] at hnot
  exact hnot

/-- A text that neither begins nor ends with white space has its words joined by one space. -/
theorem joinWords_words_eq (hhead : ∀ c ∈ text.head?, isWhitespace c = false)
    (hlast : ∀ c ∈ text.getLast?, isWhitespace c = false) :
    joinWords (words text) = collapseRuns text := by
  induction hlength : text.length using Nat.strongRecOn generalizing text with
  | ind n ih =>
    rcases eq_or_ne text [] with rfl | hne
    · rfl
    · obtain ⟨word, rest, rfl, hword, hrest⟩ := exists_word hne hhead
      rw [words_word_append hword hrest, collapseRuns_word hword.2]
      -- The rest is a run of white space before the next word.
      have hsplit : rest.takeWhile isWhitespace ++ rest.dropWhile isWhitespace = rest :=
        List.takeWhile_append_dropWhile
      have hrun : Blank (rest.takeWhile isWhitespace) := fun c hc => List.mem_takeWhile_imp hc
      have hnext := head?_dropWhile rest
      generalize rest.takeWhile isWhitespace = run at hsplit hrun
      generalize rest.dropWhile isWhitespace = next at hsplit hnext
      subst hsplit
      rw [words_blank_append hrun]
      cases next with
      | nil =>
        rcases run.eq_nil_or_concat with rfl | ⟨front, c, rfl⟩
        · exact (joinWords_singleton word).trans (List.append_nil word).symm
        · have hend : c ∈ (word ++ (front.concat c ++ [])).getLast? := by simp
          have hc : isWhitespace c = true := hrun c (by simp)
          exact absurd ((hlast c hend).symm.trans hc) Bool.false_ne_true
      | cons d next =>
        have hrunne : run ≠ [] := by
          rintro rfl
          exact absurd ((hnext d rfl).symm.trans (hrest d rfl)) Bool.false_ne_true
        have hshorter : (d :: next).length < n := by
          have hpos := List.length_pos_iff.mpr hword.1
          rw [← hlength, List.length_append, List.length_append]
          omega
        have hnextlast : ∀ c ∈ (d :: next).getLast?, isWhitespace c = false := by
          intro c hc
          refine hlast c ?_
          rw [← List.append_assoc, List.getLast?_append_of_ne_nil _ (List.cons_ne_nil d next)]
          exact hc
        rw [joinWords_cons (words_ne_nil (List.cons_ne_nil d next) hnext),
          collapseRuns_run hrun hrunne hnext, ih _ hshorter hnext hnextlast rfl]

/-- The words with one space between them are the text, trimmed and with its runs collapsed. -/
theorem joinWords_words (text : List Char) : joinWords (words text) = collapseRuns (trim text) := by
  have hfront : text.takeWhile isWhitespace ++ text.dropWhile isWhitespace = text :=
    List.takeWhile_append_dropWhile
  have hback : trim text ++ (text.dropWhile isWhitespace).rtakeWhile isWhitespace =
      text.dropWhile isWhitespace := List.rdropWhile_append_rtakeWhile
  have hwords : words text = words (trim text) := by
    rw [← words_append_blank (fun c hc => List.mem_rtakeWhile_imp hc) (trim text), hback]
    conv_lhs => rw [← hfront]
    exact words_blank_append (fun c hc => List.mem_takeWhile_imp hc) _
  rw [hwords]
  refine joinWords_words_eq (fun c hc => ?_) fun c hc => ?_
  · refine head?_dropWhile text c ?_
    rw [← hback, List.head?_append, Option.mem_def.mp hc]
    rfl
  · obtain ⟨hne, rfl⟩ := List.mem_getLast?_eq_getLast hc
    exact Bool.eq_false_iff.mpr (List.rdropWhile_last_not _ _ hne)

/-! ## Prefixes -/

/-- A text without white space in front of a line is in front of its first word. -/
theorem prefix_word_append (hpattern : ∀ c ∈ pattern, isWhitespace c = false) (hrest : Breaks rest) :
    pattern <+: word ++ rest ↔ pattern <+: word := by
  induction word generalizing pattern with
  | nil =>
    cases pattern with
    | nil => simp
    | cons p pattern =>
      cases rest with
      | nil => rfl
      | cons c rest =>
        have hp := hpattern p List.mem_cons_self
        have hc := hrest c rfl
        rw [List.nil_append, List.cons_prefix_cons, List.prefix_nil]
        exact iff_of_false (fun h => absurd (hp.symm.trans (h.1 ▸ hc)) Bool.false_ne_true)
          (List.cons_ne_nil p pattern)
  | cons a word ih =>
    cases pattern with
    | nil => simp
    | cons p pattern =>
      rw [List.cons_append, List.cons_prefix_cons, List.cons_prefix_cons,
        ih (List.forall_mem_cons.mp hpattern).2]

/-- The joined words begin with the first of them. -/
theorem exists_joinWords_eq (word rest : List Char) :
    ∃ back, joinWords (word :: words rest) = word ++ back ∧ Breaks back := by
  cases words rest with
  | nil =>
    refine ⟨[], ?_, fun _ h => absurd h (Option.not_mem_none _)⟩
    rw [joinWords_singleton, List.append_nil]
  | cons w ws =>
    refine ⟨' ' :: joinWords (w :: ws), joinWords_cons (List.cons_ne_nil w ws) word, ?_⟩
    rintro c ⟨⟩
    rfl

/-- Only a blank text has no words to join. -/
theorem joinWords_words_ne_nil (h : ¬ Blank text) : joinWords (words text) ≠ [] := by
  obtain ⟨word, indent, rest, rfl, hindent, hword, hrest⟩ := (blank_or_firstColumn text).resolve_left h
  obtain ⟨back, hback, -⟩ := exists_joinWords_eq word rest
  rw [words_blank_append hindent, words_word_append hword hrest, hback]
  exact List.append_ne_nil_of_left_ne_nil hword.1 back

/-- Joining the words of a text keeps what it begins with, unless that is white space. -/
theorem prefix_joinWords_words (hhead : ∀ c ∈ text.head?, isWhitespace c = false)
    (hpattern : ∀ c ∈ pattern, isWhitespace c = false) :
    pattern <+: joinWords (words text) ↔ pattern <+: text := by
  rcases eq_or_ne text [] with rfl | hne
  · rfl
  · obtain ⟨word, rest, rfl, hword, hrest⟩ := exists_word hne hhead
    obtain ⟨back, hback, hbreaks⟩ := exists_joinWords_eq word rest
    rw [words_word_append hword hrest, hback, prefix_word_append hpattern hbreaks,
      prefix_word_append hpattern hrest]

/-! ## Keys and values -/

/-- What stands before and after the first separator. -/
def splitOnce (separator : Char) (text : List Char) : Option (List Char × List Char) :=
  match text.dropWhile (· ≠ separator) with
  | [] => none
  | _ :: rest => some (text.takeWhile (· ≠ separator), rest)

theorem splitOnce_append_cons {separator : Char} {key : List Char} (h : separator ∉ key)
    (value : List Char) : splitOnce separator (key ++ separator :: value) = some (key, value) := by
  have hkey : ∀ c ∈ key, decide (c ≠ separator) = true := fun c hc =>
    decide_eq_true fun heq => h (heq ▸ hc)
  have hdrop : (separator :: value).dropWhile (· ≠ separator) = separator :: value := by simp
  have htake : (separator :: value).takeWhile (· ≠ separator) = [] := by simp
  rw [splitOnce, List.dropWhile_append_of_pos hkey, List.takeWhile_append_of_pos hkey, hdrop, htake,
    List.append_nil]

/-- A text that neither begins nor ends with white space is trimmed already. -/
theorem trim_eq_self (hhead : ∀ c ∈ text.head?, isWhitespace c = false)
    (hlast : ∀ c ∈ text.getLast?, isWhitespace c = false) : trim text = text := by
  have hshows : Shows text text := ⟨[], fun _ h => absurd h List.not_mem_nil, (List.append_nil text).symm⟩
  exact hshows.trim_eq (fun c hc => by rw [hhead c hc]; exact Bool.false_ne_true)
    (fun c hc => by rw [hlast c hc]; exact Bool.false_ne_true)

/-- The first character of joined words is that of the first word. -/
theorem head?_joinWords {ws : List (List Char)} (hws : ∀ w ∈ ws, IsWord w) :
    ∀ c ∈ (joinWords ws).head?, isWhitespace c = false := by
  cases ws with
  | nil => exact fun c hc => by cases hc
  | cons w ws =>
    obtain ⟨hw, -⟩ := List.forall_mem_cons.mp hws
    have hprefix : ∃ rest, joinWords (w :: ws) = w ++ rest := by
      cases ws with
      | nil => exact ⟨[], by rw [joinWords_singleton, List.append_nil]⟩
      | cons w' ws => exact ⟨_, joinWords_cons (List.cons_ne_nil w' ws) w⟩
    obtain ⟨rest, hrest⟩ := hprefix
    rw [hrest, List.head?_append_of_ne_nil _ hw.1]
    exact fun c hc => hw.2 c (List.mem_of_mem_head? hc)

/-- The last character of joined words is that of the last word. -/
theorem getLast?_joinWords {ws : List (List Char)} (hws : ∀ w ∈ ws, IsWord w) :
    ∀ c ∈ (joinWords ws).getLast?, isWhitespace c = false := by
  induction ws with
  | nil => exact fun c hc => by cases hc
  | cons w ws ih =>
    obtain ⟨hw, hws⟩ := List.forall_mem_cons.mp hws
    cases ws with
    | nil =>
      rw [joinWords_singleton]
      exact fun c hc => hw.2 c (List.mem_of_mem_getLast? hc)
    | cons w' ws =>
      have hne : joinWords (w' :: ws) ≠ [] := by
        intro hnil
        have hbreaks : Breaks [] := fun _ h => by cases h
        have hwords := words_joinWords_append (List.cons_ne_nil w' ws) hws hbreaks
        rw [hnil] at hwords
        cases hwords
      rw [joinWords_cons (List.cons_ne_nil w' ws), List.getLast?_append_of_ne_nil _ (List.cons_ne_nil _ _),
        List.getLast?_cons_of_ne_nil hne]
      exact ih hws

theorem trim_joinWords {ws : List (List Char)} (hws : ∀ w ∈ ws, IsWord w) :
    trim (joinWords ws) = joinWords ws :=
  trim_eq_self (head?_joinWords hws) (getLast?_joinWords hws)

/-- Joined words make a line. -/
theorem joinWords_isLine {ws : List (List Char)} (hws : ∀ w ∈ ws, IsWord w) :
    '\n' ∉ joinWords ws ∧ (joinWords ws).getLast? ≠ some '\r' := by
  constructor
  · intro hmem
    rcases mem_joinWords hmem with heq | ⟨w, hw, hmem⟩
    · exact absurd heq (by decide)
    · exact absurd ((hws w hw).2 _ hmem) (by decide)
  · exact fun hlast => absurd (getLast?_joinWords hws _ hlast) (by decide)

end Text
