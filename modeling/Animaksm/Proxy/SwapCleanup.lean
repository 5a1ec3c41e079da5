import Animaksm.Lib.Words

/-!
# Cleanup after a crash

The ublk devices of a `swapon` listing are recognised by the first column of a line:
one of two names and a number. The cleanup takes exactly these off swap, one after
the other. Texts are lists of characters.
-/

namespace Animaksm.Proxy

/-- The device of a line of `swapon` output. -/
def ubdDeviceInLine (line : List Char) : Option (List Char) :=
  (Text.words line).head?.bind fun name =>
    ((name.dropPrefix? "/dev/ublkb".toList).or (name.dropPrefix? "/dev/ubd".toList)).bind fun rest =>
      if rest.isEmpty || !rest.all Char.isDigit then none else some name

/-- The active ublk swap devices of a `swapon` output. -/
def ubdDevicesInSwaponOutput (stdout : List Char) : List (List Char) :=
  (Text.lines stdout).filterMap ubdDeviceInLine

/-- The commands the cleanup runs; an error is the text of a command that could not be run. -/
structure SwapCommands (W : Type) where
  swapon : W → Except String (List Char) × W
  /-- Whether `swapoff` ran and ended with code 0. -/
  swapoff : List Char → W → Bool × W

namespace SwapCommands

variable {W : Type}

/-- Take each device off swap, with the lines printed. -/
def swapoffEach (C : SwapCommands W) : List (List Char) → W → List String × W
  | [], world => ([], world)
  | ubd :: devices, world =>
    let (status, world) := C.swapoff ubd world
    let (printed, world) := C.swapoffEach devices world
    (("swapoff " ++ String.ofList ubd ++ if status then " ok" else " FAILED") :: printed, world)

/-- The first part of the cleanup: take the devices of the prior run off swap. -/
def cleanupAfterCrash (C : SwapCommands W) (world : W) : List String × W :=
  match C.swapon world with
  | (.ok stdout, world) => C.swapoffEach (ubdDevicesInSwaponOutput stdout) world
  | (.error e, world) => (["Could not enumerate swap devices (swapon --show): " ++ e], world)

/-- The commands next to the devices `swapoff` was run on. -/
def logged (C : SwapCommands W) : SwapCommands (W × List (List Char)) where
  swapon world := ((C.swapon world.1).1, (C.swapon world.1).2, world.2)
  swapoff ubd world := ((C.swapoff ubd world.1).1, (C.swapoff ubd world.1).2, world.2 ++ [ubd])

end SwapCommands

/-! ## The devices of a listing -/

/-- A device of the kernel driver: one of its names and a number. -/
def IsUblkDevice (name : List Char) : Prop :=
  ∃ digits, digits ≠ [] ∧ (∀ c ∈ digits, c.isDigit = true) ∧
    (name = "/dev/ublkb".toList ++ digits ∨ name = "/dev/ubd".toList ++ digits)

variable {line name pattern rest : List Char}

theorem dropPrefix?_iff : name.dropPrefix? pattern = some rest ↔ name = pattern ++ rest := by
  rw [List.dropPrefix?_eq_some_iff]
  constructor
  · rintro ⟨pattern', rfl, hpattern⟩
    rw [eq_of_beq hpattern]
  · rintro rfl
    exact ⟨pattern, rfl, beq_self_eq_true pattern⟩

/-- The two names have no device in common. -/
theorem dropPrefix?_ublkb (h : name = "/dev/ubd".toList ++ rest) :
    name.dropPrefix? "/dev/ublkb".toList = none := by
  subst h
  rfl

/-- What the two names are tried for, in this order: a device of either name. -/
theorem dropPrefix?_or_iff :
    (name.dropPrefix? "/dev/ublkb".toList).or (name.dropPrefix? "/dev/ubd".toList) = some rest ↔
      name = "/dev/ublkb".toList ++ rest ∨ name = "/dev/ubd".toList ++ rest := by
  rw [Option.or_eq_some_iff, dropPrefix?_iff, dropPrefix?_iff]
  constructor
  · exact Or.imp_right And.right
  · exact Or.imp_right fun h => ⟨dropPrefix?_ublkb h, h⟩

/-- A line has a device exactly when its first column is one. -/
theorem ubdDeviceInLine_eq_some :
    ubdDeviceInLine line = some name ↔ Text.FirstColumn line name ∧ IsUblkDevice name := by
  rw [ubdDeviceInLine, Option.bind_eq_some_iff]
  constructor
  · rintro ⟨first, hfirst, hbind⟩
    obtain ⟨digits, hdigits, hsome⟩ := Option.bind_eq_some_iff.mp hbind
    split_ifs at hsome with hbad
    obtain rfl : first = name := Option.some_inj.mp hsome
    rw [Bool.or_eq_true, List.isEmpty_iff, Bool.not_eq_true', not_or, Bool.not_eq_false,
      List.all_eq_true] at hbad
    exact ⟨Text.head?_words_eq_some.mp hfirst, digits, hbad.1, hbad.2, dropPrefix?_or_iff.mp hdigits⟩
  · rintro ⟨hcolumn, digits, hne, hdigits, hname⟩
    have hgood : ¬ (digits.isEmpty || !digits.all Char.isDigit) = true := by
      rw [Bool.or_eq_true, List.isEmpty_iff, Bool.not_eq_true', not_or, Bool.not_eq_false,
        List.all_eq_true]
      exact ⟨hne, hdigits⟩
    refine ⟨name, Text.head?_words_eq_some.mpr hcolumn, Option.bind_eq_some_iff.mpr
      ⟨digits, dropPrefix?_or_iff.mpr hname, if_neg hgood⟩⟩

/-- The return at the end of a line makes no difference. -/
theorem ubdDeviceInLine_stripReturn (line : List Char) :
    ubdDeviceInLine (Text.stripReturn line) = ubdDeviceInLine line := by
  rw [ubdDeviceInLine, ubdDeviceInLine, Text.words_stripReturn]

/-- The devices are those of the pieces between line feeds, in order. -/
theorem ubdDevices_eq (stdout : List Char) :
    ubdDevicesInSwaponOutput stdout = (stdout.splitOn '\n').filterMap ubdDeviceInLine := by
  have hne : stdout.splitOn '\n' ≠ [] := List.splitOn_ne_nil _ _
  rw [ubdDevicesInSwaponOutput, Text.lines]
  generalize stdout.splitOn '\n' = pieces at hne
  rw [List.getLast?_eq_some_getLast hne, List.filterMap_append, List.filterMap_map]
  conv_rhs => rw [← List.dropLast_append_getLast hne, List.filterMap_append]
  congr 1
  · exact List.filterMap_congr fun line _ => ubdDeviceInLine_stripReturn line
  · cases pieces.getLast hne with
    | nil => rfl
    | cons c line => rfl

/-! ## The cleanup -/

namespace SwapCommands

variable {W : Type} (C : SwapCommands W)

theorem swapoffEach_log (devices : List (List Char)) (world : W) (log : List (List Char)) :
    (C.logged.swapoffEach devices (world, log)).2.2 = log ++ devices := by
  induction devices generalizing world log with
  | nil => exact (List.append_nil log).symm
  | cons ubd devices ih =>
    rw [swapoffEach]
    exact (ih _ _).trans (List.append_assoc log [ubd] devices)

/-- The devices that the cleanup takes off swap are the first columns of the listing that are a name
of the kernel driver and a number, in the order of the lines and once a line. -/
theorem cleanup_exact (stdout : List Char) :
    ∃ deviceOf : List Char → Option (List Char),
      (∀ line name, deviceOf line = some name ↔ Text.FirstColumn line name ∧ IsUblkDevice name) ∧
      ubdDevicesInSwaponOutput stdout = (stdout.splitOn '\n').filterMap deviceOf ∧
      ∀ world world', C.swapon world = (.ok stdout, world') →
        (C.logged.cleanupAfterCrash (world, [])).2.2 = (stdout.splitOn '\n').filterMap deviceOf := by
  refine ⟨ubdDeviceInLine, fun line name => ubdDeviceInLine_eq_some, ubdDevices_eq stdout,
    fun world world' hswapon => ?_⟩
  have hlogged : C.logged.swapon (world, []) = (.ok stdout, (world', [])) := by
    simp only [logged, hswapon]
  rw [cleanupAfterCrash, hlogged]
  exact (C.swapoffEach_log _ world' []).trans (ubdDevices_eq stdout)

end SwapCommands

end Animaksm.Proxy
