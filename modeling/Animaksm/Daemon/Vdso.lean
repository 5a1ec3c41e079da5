import Animaksm.Common.Maps
import Animaksm.Lib.Scan

/-!
# The syscall instruction of the vDSO

The search takes the first line of the mappings that mentions the vDSO and scans the
range on it. The name of a file can mention the vDSO too, and the search then
returns an address of that file.
-/

namespace Animaksm.Common

namespace Mapping

/-- The addresses of a mapping. -/
def addresses (m : Mapping) : Set Nat := Set.Ico m.start.toNat m.stop.toNat

/-- Whether the mapping is named as the vDSO is. -/
def isVdso (m : Mapping) : Bool := m.name.any fun name => decide (name.text = "[vdso]".toList)

/-- Whether the name of the mapping mentions the vDSO. -/
def mentionsVdso (m : Mapping) : Bool :=
  m.name.any fun name => decide ("[vdso]".toList <:+: name.text)

variable {m : Mapping}

/-- The size of a range does not wrap around when its bounds are in order. -/
theorem start_add_size (h : m.start ≤ m.stop) :
    m.start.toNat + (m.stop - m.start).toNat = m.stop.toNat := by
  have hle := UInt64.le_iff_toNat_le.mp h
  rw [UInt64.toNat_sub_of_le _ _ h]
  omega

/-! ## Lines that mention the vDSO -/

/-- No column of a line has a bracket. -/
theorem bracket_notMem_columns : '[' ∉ Text.joinWords m.columns := by
  have hhex : ∀ width n, '[' ∉ Text.showHex width n :=
    fun width n h => (Text.isHexDigit_of_mem_showHex h).ne.2.2.2 rfl
  have hperms : '[' ∉ m.perms.text := by
    obtain ⟨_ | _, _ | _, _ | _, _ | _⟩ := m.perms
    all_goals decide
  intro h
  rcases Text.mem_joinWords h with h | ⟨column, hcolumn, h⟩
  · exact absurd h (by decide)
  · simp only [columns, List.mem_cons, List.not_mem_nil, or_false] at hcolumn
    rcases hcolumn with rfl | rfl | rfl | rfl | rfl
    · simp [range, hhex] at h
    · exact hperms h
    · exact hhex _ _ h
    · simp [dev, hhex] at h
    · exact absurd (Text.isDigit_of_mem_toDigits h) (by decide)

/-- A line mentions the vDSO when the name on it does. -/
theorem infix_line : "[vdso]".toList <:+: Text.stripReturn m.line ↔ m.mentionsVdso = true := by
  have hspace : ∀ n, '[' ∉ List.replicate n ' ' := fun n h =>
    absurd (List.eq_of_mem_replicate h) (by decide)
  have hpattern : "[vdso]".toList = '[' :: "vdso]".toList := rfl
  rw [Text.infix_stripReturn (by decide) (by decide), hpattern, line,
    Text.infix_append_iff bracket_notMem_columns, tail, mentionsVdso]
  cases m.name with
  | none =>
    refine iff_of_false (fun h => hspace m.padding ?_) Bool.false_ne_true
    exact h.subset List.mem_cons_self
  | some name =>
    dsimp only
    rw [Text.infix_append_iff (hspace _), Option.any_some, decide_eq_true_iff, hpattern]

/-- A line begins with the range of its mapping. -/
theorem exists_stripReturn_line (m : Mapping) :
    ∃ rest, Text.stripReturn m.line = m.range ++ ' ' :: rest := by
  rw [line, columns, Text.joinWords_cons (List.cons_ne_nil _ _), List.append_assoc, List.cons_append,
    Text.stripReturn_append_cons (by decide)]
  exact ⟨_, rfl⟩

end Mapping

/-- The mappings of a process, of which no two have an address in common. -/
structure ProcessMaps where
  mappings : List Mapping
  apart : mappings.Pairwise fun m m' => ∀ a ∈ m.addresses, a ∉ m'.addresses

/-- An address of two mappings makes them one. -/
theorem ProcessMaps.eq_of_mem (maps : ProcessMaps) {m m' : Mapping} {a : Nat}
    (hm : m ∈ maps.mappings) (hm' : m' ∈ maps.mappings) (ha : a ∈ m.addresses)
    (ha' : a ∈ m'.addresses) : m = m' := by
  by_contra hne
  have hsymm : Std.Symm fun m m' : Mapping => ∀ a ∈ m.addresses, a ∉ m'.addresses :=
    ⟨fun _ _ h a ha' ha => h a ha ha'⟩
  exact maps.apart.forall hm hm' hne a ha ha'

end Animaksm.Common

namespace Animaksm.Daemon

open Common

/-! ## The search -/

/-- What the target's memory file answers. -/
structure Target where
  openMem : Except String Unit
  seek : UInt64 → Except String Unit
  memory : Nat → Except String UInt8

/-- What a search returned, and how many bytes of the memory it asked for. -/
structure Search where
  outcome : Except String UInt64
  asked : Nat

/-- The first line that mentions the vDSO. -/
def vdsoLine (maps : List Char) : Option (List Char) :=
  (Text.lines maps).find? fun l => decide ("[vdso]".toList <:+: l)

/-- The start and the size of the range on the line of the vDSO. -/
def vdsoRange (maps : List Char) : Except String (UInt64 × UInt64) :=
  match vdsoLine maps with
  | none => .error "no [vdso] mapping found"
  | some line =>
    match (line.splitOn '-').head?.bind parseHexU64 with
    | none => .error "bad vdso start"
    | some vdsoStart =>
      match ((line.splitOn '-')[1]?.bind fun s => (Text.words s).head?).bind parseHexU64 with
      | none => .error "bad vdso end"
      | some vdsoEnd =>
        if vdsoEnd < vdsoStart then .error "vdso end before start"
        else if 10 * 1024 * 1024 < vdsoEnd - vdsoStart then .error "vdso size too large"
        else .ok (vdsoStart, vdsoEnd - vdsoStart)

/-- Find a `syscall` instruction (0x0F 0x05) in the target process's vDSO. -/
def findSyscallInVdso (readToString : Except String (List Char)) (target : Target) (pid : UInt32) :
    Search :=
  match readToString with
  | .error e => ⟨.error ("read maps: " ++ e), 0⟩
  | .ok maps =>
    match vdsoRange maps with
    | .error e => ⟨.error e, 0⟩
    | .ok (vdsoStart, sz) =>
      match target.openMem with
      | .error e => ⟨.error ("open /proc/" ++ toString pid ++ "/mem: " ++ e), 0⟩
      | .ok _ =>
        match target.seek vdsoStart with
        | .error e => ⟨.error ("seek: " ++ e), 0⟩
        | .ok _ =>
          match Scan.readExact target.memory vdsoStart.toNat sz.toNat with
          | .error e => ⟨.error ("read vdso: " ++ e), sz.toNat⟩
          | .ok buf =>
            match Scan.position 0x0f 0x05 buf with
            | none => ⟨.error "no syscall instruction in vdso", sz.toNat⟩
            | some off => ⟨.ok (vdsoStart + UInt64.ofNat off), sz.toNat⟩

/-! ## What the search reads -/

namespace Target

variable (target : Target)

/-- The addresses of `syscall` instructions in a mapping. -/
def syscalls (m : Mapping) : Set Nat :=
  Scan.pairs target.memory 0x0f 0x05 m.start.toNat m.stop.toNat

/-- The search gets to the end of a mapping: its range is one of at most 10 MiB, and its memory can be
read. -/
structure Reads (m : Mapping) : Prop where
  ordered : m.start ≤ m.stop
  small : m.stop - m.start ≤ 10 * 1024 * 1024
  opened : target.openMem = .ok ()
  sought : target.seek m.start = .ok ()
  readable : ∀ a ∈ m.addresses, ∃ b, target.memory a = .ok b

end Target

variable {mappings : List Mapping} {target : Target} {m : Mapping} {pid : UInt32} {a : UInt64}

/-- The line of the vDSO is that of the first mapping that mentions it. -/
theorem vdsoLine_mapsText : vdsoLine (mapsText mappings) =
    (mappings.find? Mapping.mentionsVdso).map fun m => Text.stripReturn m.line := by
  have hmentions : ((fun l => decide ("[vdso]".toList <:+: l)) ∘ fun m : Mapping =>
      Text.stripReturn m.line) = Mapping.mentionsVdso := by
    funext m
    rw [Function.comp_apply, Bool.eq_iff_iff, decide_eq_true_iff]
    exact Mapping.infix_line
  rw [vdsoLine, lines_mapsText, List.find?_map, hmentions]

/-- The first piece of a line is the start of its range. -/
theorem start_of_line (m : Mapping) :
    ((Text.stripReturn m.line).splitOn '-').head?.bind parseHexU64 = some m.start := by
  obtain ⟨rest, hline⟩ := m.exists_stripReturn_line
  rw [hline, Mapping.range, List.append_assoc, List.cons_append,
    List.splitOn_append_cons_self_of_not_mem (Mapping.dash_notMem_showHex _ _)]
  exact parseHexU64_showHex 8 m.start

/-- The first word of the second piece of a line is the end of its range, whatever stands after it. -/
theorem stop_of_line (m : Mapping) :
    (((Text.stripReturn m.line).splitOn '-')[1]?.bind fun s => (Text.words s).head?).bind
      parseHexU64 = some m.stop := by
  obtain ⟨rest, hline⟩ := m.exists_stripReturn_line
  have hdash : ∀ c ∈ Text.showHex 8 m.stop.toNat, (c != '-') = true := fun c hc =>
    bne_iff_ne.mpr fun heq => Mapping.dash_notMem_showHex _ _ (heq ▸ hc)
  rw [hline, Mapping.range, List.append_assoc, List.cons_append,
    List.splitOn_append_cons_self_of_not_mem (Mapping.dash_notMem_showHex _ _),
    List.getElem?_cons_succ, ← List.head?_eq_getElem?, Text.head?_splitOn,
    List.takeWhile_append_of_pos hdash, Option.bind_some, List.takeWhile_cons_of_pos (by decide),
    Text.words_word_append (Text.isWord_showHex _ _)]
  · exact parseHexU64_showHex 8 m.stop
  · rintro c ⟨⟩
    rfl

/-- The range of the vDSO is that of the first mapping that mentions it, if it is one of at most
10 MiB. -/
theorem vdsoRange_eq_ok {range : UInt64 × UInt64} :
    vdsoRange (mapsText mappings) = .ok range ↔
      ∃ m, mappings.find? Mapping.mentionsVdso = some m ∧ m.start ≤ m.stop ∧
        m.stop - m.start ≤ 10 * 1024 * 1024 ∧ range = (m.start, m.stop - m.start) := by
  rw [vdsoRange, vdsoLine_mapsText]
  cases mappings.find? Mapping.mentionsVdso with
  | none => simp
  | some m =>
    simp only [Option.map_some, start_of_line, stop_of_line, Option.some_inj, exists_eq_left']
    split
    next hlt => exact iff_of_false (fun h => by cases h) fun h => UInt64.not_le.mpr hlt h.1
    next hle =>
      split
      next hlarge => exact iff_of_false (fun h => by cases h) fun h => UInt64.not_le.mpr hlarge h.2.1
      next hsmall =>
        rw [Except.ok.injEq]
        exact ⟨fun h => ⟨UInt64.not_lt.mp hle, UInt64.not_lt.mp hsmall, h.symm⟩, fun h => h.2.2.symm⟩

/-- A search that gets to the end of the mapping returns the first instruction in it. -/
theorem findSyscallInVdso_of_reads {maps : List Char} (h : target.Reads m)
    (hrange : vdsoRange maps = .ok (m.start, m.stop - m.start)) :
    (findSyscallInVdso (.ok maps) target pid).outcome = .ok a ↔
      IsLeast (target.syscalls m) a.toNat := by
  have hend := Mapping.start_add_size h.ordered
  obtain ⟨buf, hbuf⟩ : ∃ buf, Scan.readExact target.memory m.start.toNat (m.stop - m.start).toNat =
      .ok buf := Scan.exists_readExact_iff.mpr fun b hlow hhigh => h.readable b ⟨hlow, hend ▸ hhigh⟩
  have hposition : ∀ off, Scan.position 0x0f 0x05 buf = some off ↔
      IsLeast (target.syscalls m) (m.start.toNat + off) := fun off => by
    rw [Scan.position_eq_some_iff hbuf, hend, Target.syscalls]
  simp only [findSyscallInVdso, hrange, h.opened, h.sought, hbuf]
  cases hpos : Scan.position 0x0f 0x05 buf with
  | none =>
    refine iff_of_false (fun h => by cases h) fun hleast => ?_
    obtain ⟨off, hoff⟩ := Nat.exists_eq_add_of_le hleast.1.1
    rw [hoff, ← hposition, hpos] at hleast
    cases hleast
  | some off =>
    have hleast := (hposition off).mp hpos
    have hinside : m.start.toNat + off + 1 < m.stop.toNat := hleast.1.2.1
    have hstop := m.stop.toNat_lt
    have haddress : (m.start + UInt64.ofNat off).toNat = m.start.toNat + off := by
      rw [UInt64.toNat_add, UInt64.toNat_ofNat']
      omega
    rw [Except.ok.injEq, ← UInt64.toNat_inj, haddress]
    exact ⟨fun heq => heq ▸ hleast, fun ha => hleast.unique ha⟩

/-- The search returns the first instruction in the first mapping that mentions the vDSO. -/
theorem findSyscallInVdso_eq_ok :
    (findSyscallInVdso (.ok (mapsText mappings)) target pid).outcome = .ok a ↔
      ∃ m, mappings.find? Mapping.mentionsVdso = some m ∧ target.Reads m ∧
        IsLeast (target.syscalls m) a.toNat := by
  constructor
  · intro h
    have hsearch := h
    rw [findSyscallInVdso] at h
    cases hrange : vdsoRange (mapsText mappings) with
    | error e =>
      rw [hrange] at h
      cases h
    | ok range =>
      obtain ⟨m, hfind, hordered, hsmall, rfl⟩ := vdsoRange_eq_ok.mp hrange
      simp only [hrange] at h
      cases hopen : target.openMem with
      | error e =>
        rw [hopen] at h
        cases h
      | ok _ =>
        cases hseek : target.seek m.start with
        | error e =>
          rw [hopen, hseek] at h
          cases h
        | ok _ =>
          cases hread : Scan.readExact target.memory m.start.toNat (m.stop - m.start).toNat with
          | error e =>
            rw [hopen, hseek, hread] at h
            cases h
          | ok buf =>
            have hreadable := Scan.exists_readExact_iff.mp ⟨buf, hread⟩
            have hreads : target.Reads m := ⟨hordered, hsmall, hopen, hseek,
              fun b hb => hreadable b hb.1 ((Mapping.start_add_size hordered).symm ▸ hb.2)⟩
            exact ⟨m, hfind, hreads, (findSyscallInVdso_of_reads hreads hrange).mp hsearch⟩
  · rintro ⟨m, hfind, hreads, hleast⟩
    have hrange := vdsoRange_eq_ok.mpr ⟨m, hfind, hreads.ordered, hreads.small, rfl⟩
    exact (findSyscallInVdso_of_reads hreads hrange).mpr hleast

/-- The search asks for nothing, or for the range of the vDSO. -/
theorem findSyscallInVdso_asked (maps : List Char) :
    (findSyscallInVdso (.ok maps) target pid).asked = 0 ∨
      ∃ range, vdsoRange maps = .ok range ∧
        (findSyscallInVdso (.ok maps) target pid).asked = range.2.toNat := by
  cases hrange : vdsoRange maps with
  | error e => exact .inl (by simp only [findSyscallInVdso, hrange])
  | ok range =>
    simp only [findSyscallInVdso, hrange]
    cases target.openMem with
    | error e => exact .inl rfl
    | ok _ =>
      cases target.seek range.1 with
      | error e => exact .inl rfl
      | ok _ =>
        refine .inr ⟨range, rfl, ?_⟩
        cases Scan.readExact target.memory range.1.toNat range.2.toNat with
        | error e => rfl
        | ok buf =>
          dsimp only
          cases Scan.position 0x0f 0x05 buf <;> rfl

/-! ## The instruction that is found -/

/-- What a search should return: the first instruction of the mapping named as the vDSO is, or an error
if there is none, after reading at most 10 MiB, all of them in one mapping. -/
structure Search.Meets (search : Search) (maps : ProcessMaps) (target : Target) : Prop where
  found : ∀ a, search.outcome = .ok a →
    ∃ m ∈ maps.mappings, m.isVdso = true ∧ IsLeast (target.syscalls m) a.toNat
  refused : (¬ ∃ m ∈ maps.mappings, m.isVdso = true ∧ (target.syscalls m).Nonempty) →
    ∃ e, search.outcome = .error e
  bounded : search.asked ≤ 10 * 1024 * 1024
  noUnderflow : search.asked = 0 ∨ ∃ m ∈ maps.mappings, m.start.toNat + search.asked = m.stop.toNat

/-- What is read is one mapping of at most 10 MiB. -/
theorem findSyscallInVdso_bounded :
    (findSyscallInVdso (.ok (mapsText mappings)) target pid).asked = 0 ∨
      ∃ m ∈ mappings, m.start.toNat +
          (findSyscallInVdso (.ok (mapsText mappings)) target pid).asked = m.stop.toNat ∧
        (findSyscallInVdso (.ok (mapsText mappings)) target pid).asked ≤ 10 * 1024 * 1024 := by
  refine (findSyscallInVdso_asked _).imp_right fun ⟨range, hrange, hasked⟩ => ?_
  obtain ⟨m, hfind, hordered, hsmall, rfl⟩ := vdsoRange_eq_ok.mp hrange
  rw [hasked]
  exact ⟨m, List.mem_of_find?_eq_some hfind, Mapping.start_add_size hordered,
    UInt64.le_iff_toNat_le.mp hsmall⟩

/-- An address that is returned is the first instruction of some mapping of the vDSO when every mapping
that the search gets to the end of is one. -/
theorem meets_of_isVdso {maps : ProcessMaps}
    (h : ∀ m, maps.mappings.find? Mapping.mentionsVdso = some m → target.Reads m →
      (target.syscalls m).Nonempty → m.isVdso = true) :
    (findSyscallInVdso (.ok (mapsText maps.mappings)) target pid).Meets maps target := by
  have hfound : ∀ a, (findSyscallInVdso (.ok (mapsText maps.mappings)) target pid).outcome = .ok a →
      ∃ m ∈ maps.mappings, m.isVdso = true ∧ IsLeast (target.syscalls m) a.toNat := by
    intro a ha
    obtain ⟨m, hfind, hreads, hleast⟩ := findSyscallInVdso_eq_ok.mp ha
    exact ⟨m, List.mem_of_find?_eq_some hfind, h m hfind hreads ⟨_, hleast.1⟩, hleast⟩
  refine ⟨hfound, fun hnone => ?_, ?_, ?_⟩
  · cases houtcome : (findSyscallInVdso (.ok (mapsText maps.mappings)) target pid).outcome with
    | error e => exact ⟨e, rfl⟩
    | ok a =>
      obtain ⟨m, hm, hvdso, hleast⟩ := hfound a houtcome
      exact absurd ⟨m, hm, hvdso, _, hleast.1⟩ hnone
  · rcases findSyscallInVdso_bounded with hzero | ⟨m, -, -, hsmall⟩
    · rw [hzero]
      exact Nat.zero_le _
    · exact hsmall
  · exact findSyscallInVdso_bounded.imp_right fun ⟨m, hm, hsize, _⟩ => ⟨m, hm, hsize⟩

/-- A search that meets its purpose takes an instruction from no mapping but the vDSO. -/
theorem Search.Meets.isVdso {maps : ProcessMaps}
    (h : (findSyscallInVdso (.ok (mapsText maps.mappings)) target pid).Meets maps target)
    (hfind : maps.mappings.find? Mapping.mentionsVdso = some m) (hreads : target.Reads m)
    (hpair : (target.syscalls m).Nonempty) : m.isVdso = true := by
  have hleast : IsLeast (target.syscalls m) (sInf (target.syscalls m)) :=
    ⟨Nat.sInf_mem hpair, fun _ => Nat.sInf_le⟩
  generalize sInf (target.syscalls m) = off at hleast
  have hlt : off < 2 ^ 64 := by
    have hinside : off + 1 < m.stop.toNat := hleast.1.2.1
    have hstop := m.stop.toNat_lt
    omega
  obtain ⟨a, rfl⟩ : ∃ a : UInt64, a.toNat = off := ⟨UInt64.ofNat off, UInt64.toNat_ofNat_of_lt hlt⟩
  have hok : (findSyscallInVdso (.ok (mapsText maps.mappings)) target pid).outcome = .ok a :=
    findSyscallInVdso_eq_ok.mpr ⟨m, hfind, hreads, hleast⟩
  obtain ⟨m', hm', hvdso, hleast'⟩ := h.found a hok
  have hmem : ∀ {m : Mapping}, IsLeast (target.syscalls m) a.toNat → a.toNat ∈ m.addresses :=
    fun h => ⟨h.1.1, Nat.lt_of_succ_lt h.1.2.1⟩
  have heq := maps.eq_of_mem (List.mem_of_find?_eq_some hfind) hm' (hmem hleast) (hmem hleast')
  exact heq ▸ hvdso

/-- The search returns the first `syscall` instruction of the vDSO, or an error if there is none, as long
as the first mapping with `[vdso]` in its name is the vDSO, or one without an instruction that can be
read. -/
theorem findSyscallInVdso_meets_iff (maps : ProcessMaps) (target : Target) (pid : UInt32) :
    (findSyscallInVdso (.ok (mapsText maps.mappings)) target pid).Meets maps target ↔
      ∀ m, maps.mappings.find? Mapping.mentionsVdso = some m → target.Reads m →
        (target.syscalls m).Nonempty → m.isVdso = true :=
  ⟨fun h _ => h.isVdso, meets_of_isVdso⟩

/-- The code of a library that mentions the vDSO in its name. -/
def libraryMapping : Mapping where
  start := 0x55d0c0000000
  stop := 0x55d0c0001000
  perms := ⟨true, false, true, false⟩
  offset := 0
  major := 8
  minor := 2
  inode := 131
  name := some ⟨"/tmp/[vdso].so".toList, fun h => absurd (h '[' (by decide)) (by decide), by decide⟩
  padding := 10

/-- The vDSO itself. -/
def vdsoMapping : Mapping where
  start := 0x7ffc5b9f2000
  stop := 0x7ffc5b9f4000
  perms := ⟨true, false, true, false⟩
  offset := 0
  major := 0
  minor := 0
  inode := 0
  name := some ⟨"[vdso]".toList, fun h => absurd (h '[' (by decide)) (by decide), by decide⟩
  padding := 10

/-- The library is mapped before the vDSO. -/
def shadowedMaps : ProcessMaps where
  mappings := [libraryMapping, vdsoMapping]
  apart := List.pairwise_pair.mpr fun _ hlibrary hvdso =>
    absurd (hvdso.1.trans_lt hlibrary.2) (by decide)

/-- A memory of `syscall` instructions. -/
def syscallTarget : Target where
  openMem := .ok ()
  seek _ := .ok ()
  memory a := .ok (if a % 2 = 0 then 0x0f else 0x05)

theorem not_findSyscallInVdso_meets :
    ¬ (findSyscallInVdso (.ok (mapsText shadowedMaps.mappings)) syscallTarget 1).Meets shadowedMaps
      syscallTarget := by
  intro h
  have hreads : syscallTarget.Reads libraryMapping :=
    ⟨by decide, by decide, rfl, rfl, fun _ _ => ⟨_, rfl⟩⟩
  have hpair : 0x55d0c0000000 ∈ syscallTarget.syscalls libraryMapping :=
    ⟨by decide, by decide, rfl, rfl⟩
  exact absurd (h.isVdso rfl hreads ⟨_, hpair⟩) (by decide)

end Animaksm.Daemon
