import Mathlib.Data.UInt
import Animaksm.Common.Ksm
import Animaksm.Lib.Text

/-!
# Reading the KSM configuration

The parameter files as text, and the configuration they are parsed into. A mode
file lists every mode with the active one in brackets.
-/

namespace Animaksm.Common

/-- The KSM directory, with readable files as well. -/
structure KsmDir (ε D : Type) extends Sysfs ε D where
  readToString : KsmFile → D → Except ε String

/-- KSM configuration state (the writable parameters). -/
structure KsmConfig where
  run : Nat
  pagesToScan : Nat
  sleepMillisecs : Nat
  maxPageSharing : Nat
  smartScan : Nat
  advisorMode : String
  advisorTargetScanTime : Nat
  advisorMaxCpu : Nat
  advisorMinPagesToScan : Nat
  advisorMaxPagesToScan : Nat
  deriving DecidableEq, Repr

/-- The number in a file's content: the digits before a closing bracket. -/
def parseU64 (content : List Char) : Option Nat :=
  Text.parseNat (2 ^ 64) (((Text.trim content).dropWhile (· = '[')).takeWhile (· ≠ ']'))

/-- The active value of a file's content: what stands in brackets, if anything does. -/
def activeValue (content : List Char) : List Char :=
  let trimmed := Text.trim content
  match trimmed.dropWhile (· ≠ '[') with
  | [] => trimmed
  | _ :: rest => if ']' ∈ rest then Text.trim (rest.takeWhile (· ≠ ']')) else trimmed

namespace KsmController

variable {ε D : Type}

def readU64 (fs : KsmDir ε D) (file : KsmFile) (dir : D) : Except (AnimaksmError ε) Nat :=
  match fs.readToString file dir with
  | .error source => .error (.sysfs file (.os source))
  | .ok content =>
    match parseU64 content.toList with
    | some value => .ok value
    | none => .error (.sysfs file (.invalidData
        ("cannot parse '" ++ String.ofList (Text.trim content.toList) ++ "' as u64")))

def readString (fs : KsmDir ε D) (file : KsmFile) (dir : D) : Except (AnimaksmError ε) String :=
  match fs.readToString file dir with
  | .error source => .error (.sysfs file (.os source))
  | .ok content => .ok (String.ofList (activeValue content.toList))

/-- Read all KSM configuration parameters. -/
def readConfig (fs : KsmDir ε D) (dir : D) : Except (AnimaksmError ε) KsmConfig := do
  let run ← readU64 fs (.param .run) dir
  let pagesToScan ← readU64 fs (.param .pagesToScan) dir
  let sleepMillisecs ← readU64 fs (.param .sleepMillisecs) dir
  let maxPageSharing ← readU64 fs (.param .maxPageSharing) dir
  .ok {
    run, pagesToScan, sleepMillisecs, maxPageSharing
    smartScan := (readU64 fs .smartScan dir).toOption.getD 1
    advisorMode := (readString fs (.param .advisorMode) dir).toOption.getD ""
    advisorTargetScanTime := (readU64 fs (.param .advisorTargetScanTime) dir).toOption.getD 200
    advisorMaxCpu := (readU64 fs (.param .advisorMaxCpu) dir).toOption.getD 70
    advisorMinPagesToScan := (readU64 fs (.param .advisorMinPagesToScan) dir).toOption.getD 500
    advisorMaxPagesToScan := (readU64 fs (.param .advisorMaxPagesToScan) dir).toOption.getD 30000 }

end KsmController

/-- A number shown in decimal is read back, if it fits. -/
theorem parseU64_eq {n : Nat} {content : List Char} (hn : n < 2 ^ 64)
    (h : Text.Shows (Nat.toDigits 10 n) content) : parseU64 content = some n := by
  have hbracket : ∀ c, c.isDigit = false → c ∉ Nat.toDigits 10 n := fun c hc hmem =>
    absurd (Text.isDigit_of_mem_toDigits hmem) (by rw [hc]; exact Bool.false_ne_true)
  have hopen : (Nat.toDigits 10 n).dropWhile (· = '[') = Nat.toDigits 10 n := by
    refine List.dropWhile_eq_self_iff.mpr fun hlen => ?_
    have hne : (Nat.toDigits 10 n)[0] ≠ '[' := fun heq =>
      hbracket '[' rfl (heq ▸ List.getElem_mem hlen)
    simpa using hne
  have hclose : (Nat.toDigits 10 n).takeWhile (· ≠ ']') = Nat.toDigits 10 n := by
    refine List.takeWhile_eq_self_iff.mpr fun c hc => ?_
    have hne : c ≠ ']' := fun heq => hbracket ']' rfl (heq ▸ hc)
    simpa using hne
  rw [parseU64, h.trim_toDigits, hopen, hclose, Text.parseNat_toDigits hn]

end Animaksm.Common
