import Animaksm.Daemon.Lifecycle

/-!
# The configuration of the daemon

The sections of the configuration file, their defaults, and the checks that a file has to pass
before anything runs on it. The text is parsed outside; what the parser makes of it is an input.
-/

namespace Animaksm.Daemon

open Animaksm.Common

structure GeneralConfig where
  logLevel : String
  pollIntervalMs : Nat
  stateDir : String

/-- The section of the governor: what the governor reads, and what is only checked or named. -/
structure GovernorSection (K : Type) extends GovernorConfig K where
  enabled : Bool
  advisorScanTimeRange : Nat × Nat
  maxPageSharingRange : Nat × Nat
  /-- Path to KSM sysfs directory. -/
  ksmPath : String

/-- The section of the scanner: what the scanner reads, and what is only checked or named. -/
structure ScannerSection (K : Type) extends ScannerConfig where
  enabled : Bool
  intervalSecs : Nat
  duplicateRatioThreshold : K
  targetCgroups : List String

structure SwapProxyConfig (K : Type) where
  enabled : Bool
  deviceSizeGb : Nat
  fingerprint : String
  dedupTableMaxEntries : Nat
  zramBackend : String
  bloomCapacity : Nat
  bloomFalsePositiveRate : K
  pageStorePath : String

/-- Top-level configuration. -/
structure AnimaksmConfig (K : Type) where
  general : GeneralConfig
  governor : GovernorSection K
  scanner : ScannerSection K
  swapProxy : SwapProxyConfig K

/-- A setting that is checked. -/
inductive CheckedField where
  | psiSomeThreshold
  | psiFullThreshold
  | advisorScanTimeRange
  | maxPageSharingRange
  | minAnonRssMb
  | duplicateRatioThreshold
  | deviceSizeGb
  | dedupTableMaxEntries
  deriving DecidableEq

namespace CheckedField

/-- The order of the checks. -/
def inOrder : List CheckedField :=
  [.psiSomeThreshold, .psiFullThreshold, .advisorScanTimeRange, .maxPageSharingRange, .minAnonRssMb,
    .duplicateRatioThreshold, .deviceSizeGb, .dedupTableMaxEntries]

theorem mem_inOrder (field : CheckedField) : field ∈ inOrder := by
  cases field with
  | _ => decide

/-- Where the setting stands in the file. -/
def path : CheckedField → String
  | .psiSomeThreshold => "governor.psi_some_threshold"
  | .psiFullThreshold => "governor.psi_full_threshold"
  | .advisorScanTimeRange => "governor.advisor_scan_time_range"
  | .maxPageSharingRange => "governor.max_page_sharing_range"
  | .minAnonRssMb => "scanner.min_anon_rss_mb"
  | .duplicateRatioThreshold => "scanner.duplicate_ratio_threshold"
  | .deviceSizeGb => "swap_proxy.device_size_gb"
  | .dedupTableMaxEntries => "swap_proxy.dedup_table_max_entries"

/-- What is asked of the setting. -/
def demand : CheckedField → String
  | .psiSomeThreshold | .psiFullThreshold => " must be between 0 and 100"
  | .advisorScanTimeRange | .maxPageSharingRange => ": min must be < max"
  | .duplicateRatioThreshold => " must be in (0, 1]"
  | .minAnonRssMb | .deviceSizeGb | .dedupTableMaxEntries => " must be > 0"

/-- The text of the error. -/
def message (field : CheckedField) : String := field.path ++ field.demand

end CheckedField

namespace AnimaksmConfig

variable {K : Type} [Average K]

/-- The configuration without a file. -/
def default : AnimaksmConfig K where
  general := ⟨"info", 2000, "/var/lib/animaksm"⟩
  governor :=
    { enabled := true
      useAdvisor := true
      psiSomeThreshold := 5.0
      psiFullThreshold := 2.0
      advisorScanTimeRange := (30, 600)
      maxPageSharingRange := (256, 1024)
      hysteresisReadings := 4
      minLevelDurationSecs := 30
      stabilizationSecs := 30
      ksmPath := "/sys/kernel/mm/ksm" }
  scanner :=
    { enabled := true
      intervalSecs := 30
      minAnonRssMb := 100
      duplicateRatioThreshold := 0.15
      maxMergeablePerProcessMb := 512
      blocklist := ["animaksm", "ksmd", "systemd", "sshd"]
      targetCgroups := []
      maxCandidatesPerCycle := 5 }
  swapProxy :=
    { enabled := false
      deviceSizeGb := 8
      fingerprint := "xxh3-128"
      dedupTableMaxEntries := 1000000
      zramBackend := "/dev/zram0"
      bloomCapacity := 1000000
      bloomFalsePositiveRate := 0.01
      pageStorePath := "/var/lib/animaksm/pagestore.dat" }

/-- The value of the setting is refused. As comparisons, these let a threshold pass that is not a number. -/
def Refuses (config : AnimaksmConfig K) : CheckedField → Prop
  | .psiSomeThreshold => config.governor.psiSomeThreshold < 0.0 ∨ 100.0 < config.governor.psiSomeThreshold
  | .psiFullThreshold => config.governor.psiFullThreshold < 0.0 ∨ 100.0 < config.governor.psiFullThreshold
  | .advisorScanTimeRange =>
      config.governor.advisorScanTimeRange.1 ≥ config.governor.advisorScanTimeRange.2
  | .maxPageSharingRange => config.governor.maxPageSharingRange.1 ≥ config.governor.maxPageSharingRange.2
  | .minAnonRssMb => config.scanner.minAnonRssMb = 0
  | .duplicateRatioThreshold =>
      config.scanner.duplicateRatioThreshold ≤ 0.0 ∨ 1.0 < config.scanner.duplicateRatioThreshold
  | .deviceSizeGb => config.swapProxy.deviceSizeGb = 0
  | .dedupTableMaxEntries => config.swapProxy.dedupTableMaxEntries = 0

instance (config : AnimaksmConfig K) : DecidablePred config.Refuses
  | .psiSomeThreshold | .psiFullThreshold | .duplicateRatioThreshold => inferInstanceAs (Decidable (_ ∨ _))
  | .advisorScanTimeRange | .maxPageSharingRange => inferInstanceAs (Decidable (_ ≥ _))
  | .minAnonRssMb | .deviceSizeGb | .dedupTableMaxEntries => inferInstanceAs (Decidable (_ = _))

/-- Check settings one after the other, up to the first that is refused. -/
def check (config : AnimaksmConfig K) : List CheckedField → Except String Unit
  | [] => .ok ()
  | field :: rest => if config.Refuses field then .error field.message else config.check rest

/-- Validate configuration values are within safe ranges. -/
def validate (config : AnimaksmConfig K) : Except String Unit := config.check CheckedField.inOrder

/-- Load a configuration from a file, which may be unreadable or not parse. -/
def load (readToString : Except String String) (fromStr : String → Except String (AnimaksmConfig K)) :
    Except String (AnimaksmConfig K) := do
  let content ← readToString
  let config ← fromStr content
  config.validate
  return config

/-- Without a file the defaults hold. -/
def loadConfigOrDefault (found : Bool) (readToString : Except String String)
    (fromStr : String → Except String (AnimaksmConfig K)) : Except String (AnimaksmConfig K) :=
  if found then load readToString fromStr else .ok default

/-- What the daemon runs on. -/
def daemon (config : AnimaksmConfig K) (dryRun : Bool) : DaemonConfig K where
  governorEnabled := config.governor.enabled
  governor := config.governor.toGovernorConfig
  scannerEnabled := config.scanner.enabled
  scanner := config.scanner.toScannerConfig
  dryRun := dryRun

variable {config : AnimaksmConfig K} {fields : List CheckedField}

theorem check_ok_iff : config.check fields = .ok () ↔ ∀ field ∈ fields, ¬ config.Refuses field := by
  induction fields with
  | nil => exact ⟨fun _ _ h => absurd h List.not_mem_nil, fun _ => rfl⟩
  | cons field rest ih =>
    rw [List.forall_mem_cons, check]
    split
    next hrefused => exact ⟨(by cases ·), fun h => absurd hrefused h.1⟩
    next hsafe => exact ih.trans ⟨fun h => ⟨hsafe, h⟩, fun h => h.2⟩

/-- The error is that of the first setting that is refused. -/
theorem check_error {message : String} (h : config.check fields = .error message) :
    ∃ before field after, fields = before ++ field :: after ∧ (∀ earlier ∈ before, ¬ config.Refuses earlier) ∧
      config.Refuses field ∧ message = field.message := by
  induction fields with
  | nil => cases h
  | cons field rest ih =>
    rw [check] at h
    split at h
    next hrefused =>
      exact ⟨[], field, rest, rfl, fun _ hmem => absurd hmem List.not_mem_nil, hrefused,
        (Except.error.inj h).symm⟩
    next hsafe =>
      obtain ⟨before, later, after, rfl, hbefore, hrefused, hmessage⟩ := ih h
      exact ⟨field :: before, later, after, rfl, List.forall_mem_cons.mpr ⟨hsafe, hbefore⟩, hrefused, hmessage⟩

theorem validate_ok_iff : config.validate = .ok () ↔ ∀ field, ¬ config.Refuses field :=
  check_ok_iff.trans ⟨fun h field => h field field.mem_inOrder, fun h field _ => h field⟩

/-- Every error begins with the path of a setting that is refused. -/
theorem validate_error {message : String} (h : config.validate = .error message) :
    ∃ field, config.Refuses field ∧ field.path.toList <+: message.toList := by
  obtain ⟨_, field, _, -, -, hrefused, rfl⟩ := check_error h
  refine ⟨field, hrefused, ?_⟩
  rw [CheckedField.message, String.toList_append]
  exact List.prefix_append _ _

/-- The defaults pass their own checks. -/
theorem validate_default : (default : AnimaksmConfig ℚ).validate = .ok () := by
  decide +kernel

/-- Nothing runs on a setting that is refused, whether there is a file or not. -/
theorem not_refuses_of_loadConfigOrDefault {found : Bool} {readToString : Except String String}
    {fromStr : String → Except String (AnimaksmConfig ℚ)} {config : AnimaksmConfig ℚ}
    (h : loadConfigOrDefault found readToString fromStr = .ok config) (field : CheckedField) :
    ¬ config.Refuses field := by
  refine validate_ok_iff.mp ?_ field
  unfold loadConfigOrDefault at h
  split at h
  · unfold load at h
    cases readToString with
    | error message => cases h
    | ok content =>
      cases hparsed : fromStr content with
      | error message =>
        simp only [bind, Except.bind, hparsed] at h
        cases h
      | ok parsed =>
        cases hvalid : parsed.validate with
        | error message =>
          simp only [bind, Except.bind, hparsed, hvalid] at h
          cases h
        | ok =>
          simp only [bind, Except.bind, hparsed, hvalid] at h
          cases h
          exact hvalid
  · cases h
    exact validate_default

/-- A daemon on a loaded configuration takes no process for a candidate that has less than one MB of
anonymous memory, whatever its file says. -/
theorem anonRss_of_candidate {found : Bool} {readToString : Except String String}
    {fromStr : String → Except String (AnimaksmConfig ℚ)} {config : AnimaksmConfig ℚ} {dryRun : Bool}
    {status : ProcessStatus} {candidate : Candidate}
    (h : loadConfigOrDefault found readToString fromStr = .ok config)
    (hcandidate : l1CandidateFromStatus status (config.daemon dryRun).scanner = some candidate) :
    1024 ≤ status.anonRssKb := by
  have hpositive : config.scanner.minAnonRssMb ≠ 0 := not_refuses_of_loadConfigOrDefault h .minAnonRssMb
  unfold l1CandidateFromStatus at hcandidate
  split at hcandidate
  · cases hcandidate
  · split at hcandidate
    · cases hcandidate
    · split at hcandidate
      · cases hcandidate
      next hlarge =>
        have hmin : (config.daemon dryRun).scanner.minAnonRssMb = config.scanner.minAnonRssMb := rfl
        omega

end AnimaksmConfig

end Animaksm.Daemon
