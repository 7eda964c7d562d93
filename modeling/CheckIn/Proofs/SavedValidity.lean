/-
# What saving leaves of a valid configuration

A configuration can be valid with durations that a file cannot hold: a file has whole seconds, and
fewer than `2 ^ 63` of them.  An inactivity timeout that is too long is not saved at all.  Any
other valid configuration is saved and loaded up to what is beyond the whole seconds, and what is
loaded is valid again exactly if neither duration was shorter than a second.  Then it drives the
service with the whole seconds of the two durations (`Config.saved_valid`).  Half a second between
two polls is valid, but not what is left of it (`Config.not_saved_valid`).
-/
import CheckIn.Proofs.Resolution
import CheckIn.Proofs.SavedConfig

namespace CheckIn

/-! ## Whole seconds -/

namespace Duration

lemma isZero_eq_true_iff {d : Duration} : d.isZero = true ↔ d.nanos = 0 := decide_eq_true_iff

/-- Nothing is left of a duration below one second. -/
lemma isZero_truncated_iff {d : Duration} : d.truncated.isZero = true ↔ d.seconds = 0 := by
  rw [isZero_eq_true_iff, nanos_truncated, Nat.mul_eq_zero]
  exact or_iff_left (by decide)

lemma truncated_le (d : Duration) : d.truncated ≤ d := by
  show d.truncated.nanos ≤ d.nanos
  rw [nanos_truncated]
  exact Nat.div_mul_le_self _ _

/-- Only a number of whole seconds is left as it is. -/
lemma truncated_eq_iff {d : Duration} : d.truncated = d ↔ d.subsecondNanos = 0 := by
  constructor
  · intro h
    have hnanos := congrArg nanos h
    rw [nanos_truncated] at hnanos
    rw [subsecondNanos, ← hnanos]
    exact Nat.mul_mod_left _ _
  · exact truncated_eq_self

end Duration

/-! ## Validity -/

namespace Config

variable {config : Config}

/-- The whole seconds of a valid configuration are valid if there are any. -/
lemma valid_truncated_iff (h : config.Valid) :
    config.truncated.Valid ↔ 1 ≤ config.pollFrequency.seconds ∧
      1 ≤ config.inactivityTimeout.seconds := by
  have hne : ∀ d : Duration, d.truncated.isZero ≠ true ↔ 1 ≤ d.seconds := by
    intro d
    rw [Ne, Duration.isZero_truncated_iff]
    omega
  rw [← hne, ← hne]
  constructor
  · intro h'
    exact ⟨h'.pollFrequency_ne_zero, h'.inactivityTimeout_ne_zero⟩
  · rintro ⟨hfrequency, htimeout⟩
    have hle : config.pollFrequency.truncated ≤ maxPollFrequency :=
      Nat.le_trans (Duration.truncated_le _) h.pollFrequency_le
    exact ⟨h.edgeId, h.endpointId, h.controllerUrl, hfrequency, hle, htimeout, h.tunnelServer⟩

/-- A valid interval is short enough to be written. -/
lemma fits_iff_of_valid (h : config.Valid) :
    config.Fits ↔ config.inactivityTimeout.seconds < 0x8000000000000000 := by
  refine and_iff_right ?_
  have hseconds : config.pollFrequency.seconds ≤ maxPollFrequency.seconds :=
    Nat.div_le_div_right h.pollFrequency_le
  have hday : maxPollFrequency.seconds < 0x8000000000000000 := by decide
  omega

end Config

/-! ## Driving the service -/

namespace Service

/-- A service polls at an interval, which is also the time that a request may take unless another
one was given, and closes a tunnel that has not been used for some time. -/
structure KeepsTo (service : Service) (setup : Setup) (every unused : Duration) : Prop where
  interval : Duration.ofBinary64? service.cadence.interval = some every
  period : service.cadence.ticker.period = every.nanos
  timeout : service.cadence.timeout = setup.timeout.getD every
  inactivity : service.reaper.timeout = unused

/-- A valid configuration in whole seconds drives the service with its durations. -/
lemma exists_keepsTo {config : Config} {setup : Setup} (hwhole : config.HasWholeSeconds)
    (hvalid : config.validate = .ok ()) (hclock : Config.maxPollFrequency.nanos ≤ setup.clockEnd) :
    ∃ service, spawn config setup = .ok service ∧
      service.KeepsTo setup config.pollFrequency config.inactivityTimeout := by
  obtain ⟨s, hs⟩ := hwhole
  have hzero := (Config.validate_eq_ok_iff.mp hvalid).pollFrequency_ne_zero
  have hle := (Config.validate_eq_ok_iff.mp hvalid).pollFrequency_le
  obtain ⟨world, hworld, hspawn⟩ := @spawn_of_validate config setup hvalid
  have hticker : Ticker.start setup.clockEnd world.nanos config.pollFrequency.toBinary64 =
      .ok (.every config.pollFrequency.nanos world.nanos) := by
    rw [hworld]
    rw [hs] at hzero hle ⊢
    exact start_wholeSeconds hzero hle (le_of_eq_of_le (Nat.zero_add _) hclock)
  obtain ⟨service, hservice⟩ := exists_spawnWithSource hticker
  obtain ⟨period, hperiod, -, hcadence⟩ := exists_period_of_spawn hservice
  obtain ⟨cadence, hstarted, rfl⟩ := exists_cadence_of_spawn hservice
  rw [Cadence.start, hticker] at hstarted
  obtain rfl : ⟨config.pollFrequency.toBinary64, .every config.pollFrequency.nanos world.nanos,
      setup.timeout.getD config.pollFrequency⟩ = cadence := Except.ok.inj hstarted
  -- the ticker was started with the interval that the double stands for
  have hsame : period = config.pollFrequency :=
    Duration.ext (congrArg (fun cadence => cadence.ticker.period) hcadence).symm
  rw [hsame] at hperiod
  exact ⟨_, hspawn.trans hservice, hperiod, rfl, rfl, rfl⟩

end Service

/-! ## Saving and loading -/

namespace Config

/-- A valid configuration whose inactivity timeout is too long for a file is not saved, and
nothing is written.  Any other one is saved to a writable path and loaded from there without what
is beyond the whole seconds of its durations.  What is loaded is valid exactly if both durations
are at least a second, and then it drives the service with their whole seconds.  These are the
durations themselves if they have no nanoseconds beyond. -/
theorem saved_valid {config : Config} (hvalid : config.validate = .ok ()) (files : FileSystem)
    {path : String} (hpath : files.Writable path) :
    (0x8000000000000000 ≤ config.inactivityTimeout.seconds →
      save files path config = (.error (.serialize tooLong), files)) ∧
    (config.inactivityTimeout.seconds < 0x8000000000000000 →
      ∃ saved, save files path config = (.ok (), saved) ∧
        load saved path = .ok config.truncated ∧
        (config.truncated.validate = .ok () ↔
          1 ≤ config.pollFrequency.seconds ∧ 1 ≤ config.inactivityTimeout.seconds) ∧
        (config.truncated.validate = .ok () → ∀ setup : Service.Setup,
          maxPollFrequency.nanos ≤ setup.clockEnd →
            ∃ service, Service.spawn config.truncated setup = .ok service ∧
              service.KeepsTo setup config.pollFrequency.truncated
                config.inactivityTimeout.truncated) ∧
        (config.pollFrequency.truncated = config.pollFrequency ↔
          config.pollFrequency.subsecondNanos = 0) ∧
        (config.inactivityTimeout.truncated = config.inactivityTimeout ↔
          config.inactivityTimeout.subsecondNanos = 0)) := by
  have hchecked := validate_eq_ok_iff.mp hvalid
  constructor
  · intro hlong
    refine save_of_not_fits (fun hfits => ?_) files path
    have hshort := (fits_iff_of_valid hchecked).mp hfits
    omega
  · intro hshort
    obtain ⟨saved, hsave, hload⟩ := exists_saved ((fits_iff_of_valid hchecked).mpr hshort) hpath
    have hwhole : config.truncated.HasWholeSeconds := ⟨_, rfl⟩
    refine ⟨saved, hsave, hload, ?_, ?_, Duration.truncated_eq_iff, Duration.truncated_eq_iff⟩
    · rw [validate_eq_ok_iff]
      exact valid_truncated_iff hchecked
    · intro hloaded setup hclock
      exact Service.exists_keepsTo hwhole hloaded hclock

/-- An agent that polls every one and a half seconds. -/
def brisk : Config where
  edgeId := ⟨"edge-1"⟩
  endpointId := "7"
  pollFrequency := ⟨1500000000, by decide⟩

/-- An agent that polls twice a second. -/
def hasty : Config := { brisk with pollFrequency := ⟨500000000, by decide⟩ }

/-- An agent that would poll twice a second cannot be started any more once its configuration has
been saved and loaded. -/
theorem not_saved_valid :
    ¬ ∀ (config : Config) (files : FileSystem) (path : String), config.validate = .ok () →
      files.Writable path → ∃ saved loaded, save files path config = (.ok (), saved) ∧
        load saved path = .ok loaded ∧ loaded.validate = .ok () ∧
          loaded.pollFrequency = config.pollFrequency ∧
            loaded.inactivityTimeout = config.inactivityTimeout := by
  intro h
  obtain ⟨saved, loaded, hsave, hload, hvalid, -, -⟩ :=
    h hasty {} "nested/agent.toml" (by decide) clear_nested.writable
  have hfits : hasty.Fits := by decide
  obtain ⟨other, hother, htruncated⟩ := exists_saved hfits clear_nested.writable
  obtain rfl := (Prod.mk.inj (hsave.symm.trans hother)).2
  obtain rfl := Except.ok.inj (hload.symm.trans htruncated)
  exact absurd hvalid (by decide)

/-- What is loaded of one and a half seconds is a second, and of half a second nothing. -/
theorem brisk_loaded :
    brisk.validate = .ok () ∧ FileSystem.Writable {} "nested/agent.toml" ∧
    (∃ saved loaded, save {} "nested/agent.toml" brisk = (.ok (), saved) ∧
      load saved "nested/agent.toml" = .ok loaded ∧ loaded.validate = .ok () ∧
        loaded.pollFrequency = .ofSeconds 1 ∧
          ∃ service, Service.spawn loaded { clockEnd := maxPollFrequency.nanos } = .ok service ∧
            service.cadence.ticker.period = 1000000000) ∧
    (∃ saved loaded, save {} "nested/agent.toml" hasty = (.ok (), saved) ∧
      load saved "nested/agent.toml" = .ok loaded ∧ loaded.validate ≠ .ok ()) ∧
    save {} "nested/agent.toml"
        { brisk with inactivityTimeout := .ofSeconds 9223372036854775808 } =
      (.error (.serialize tooLong), {}) := by
  have hpath := clear_nested.writable
  have hbrisk : brisk.validate = .ok () := by decide
  have hhasty : hasty.validate = .ok () := by decide
  have hpatient : ({ brisk with
      inactivityTimeout := .ofSeconds 9223372036854775808 } : Config).validate = .ok () := by decide
  obtain ⟨saved, hsave, hload, hvalid, hdrives, -⟩ :=
    (saved_valid hbrisk {} hpath).2 (by decide)
  obtain ⟨service, hservice, hkeeps⟩ := hdrives (hvalid.mpr (by decide))
    { clockEnd := maxPollFrequency.nanos } (Nat.le_refl _)
  obtain ⟨saved', hsave', hload', hvalid', -⟩ :=
    (saved_valid hhasty {} hpath).2 (by decide)
  refine ⟨hbrisk, hpath, ⟨saved, _, hsave, hload, hvalid.mpr (by decide), by decide, service,
    hservice, hkeeps.period⟩, ⟨saved', _, hsave', hload', ?_⟩, ?_⟩
  · rw [Ne, hvalid']
    decide
  · exact (saved_valid hpatient {} hpath).1 (by decide)

end Config

end CheckIn
