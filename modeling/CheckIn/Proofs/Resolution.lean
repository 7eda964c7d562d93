/-
# How the program finds its configuration

Every entry of the configuration comes from the first layer that gives it: the command line, a
variable of the environment, the file, the default.  `Resolves` says so entry by entry.  The file
is where the command line says, or else below the directory of the user's configuration
(`Locates`).  It counts only as a whole: if it is there but does not load, none of its entries is
used, and all that is left of it is a warning.

The program starts its service exactly if the configuration is valid
(`Service.exists_spawn_iff`).  A valid interval is a positive number of whole seconds, at most a
day, so a ticker can keep it as long as the clock has a day left.  And since the program never
manages tunnels, it starts or not whatever the file says about them.
-/
import CheckIn.CommandLine.Run
import CheckIn.Proofs.Run
import CheckIn.Proofs.WholeSeconds

namespace CheckIn

/-! ## Whole seconds -/

/-- The interval of a configuration is a number of whole seconds. -/
def Config.HasWholeSeconds (config : Config) : Prop := ∃ s, config.pollFrequency = .ofSeconds s

namespace Config

lemma durationOf_eq_ok {value : Toml.Value} {duration : Duration}
    (h : durationOf value = .ok duration) : ∃ s, duration = .ofSeconds s := by
  unfold durationOf at h
  split at h
  · split at h
    · cases h
      exact ⟨_, rfl⟩
    · cases h
  · cases h

/-- The interval that a draft gives is a number of whole seconds. -/
def Draft.HasWholeSeconds (draft : Draft) : Prop :=
  ∀ duration, draft.pollFrequency = some duration → ∃ s, duration = .ofSeconds s

/-- Setting an entry keeps the interval, or sets it to a number of whole seconds. -/
lemma Draft.HasWholeSeconds.set {draft next : Draft} {key : Key} {value : Toml.Value}
    (hdraft : draft.HasWholeSeconds) (h : draft.set key value = .ok next) :
    next.HasWholeSeconds := by
  cases key
  all_goals
    simp only [Draft.set, bind_eq_ok_iff] at h
    obtain ⟨entry, hentry, hnext⟩ := h
    cases hnext
  case pollFrequency =>
    intro duration hduration
    cases hduration
    exact durationOf_eq_ok hentry
  all_goals exact hdraft

lemma Draft.HasWholeSeconds.add {draft next : Draft} {entry : String × Toml.Value}
    (hdraft : draft.HasWholeSeconds) (h : draft.add entry = .ok next) : next.HasWholeSeconds := by
  rw [Draft.add] at h
  split at h
  · exact hdraft.set h
  · cases h
    exact hdraft

lemma Draft.HasWholeSeconds.foldlM {entries : Toml.Entries} {draft last : Draft}
    (hdraft : draft.HasWholeSeconds) (h : entries.foldlM Draft.add draft = .ok last) :
    last.HasWholeSeconds := by
  induction entries generalizing draft with
  | nil =>
    cases h
    exact hdraft
  | cons entry entries ih =>
    rw [List.foldlM_cons, bind_eq_ok_iff] at h
    obtain ⟨next, hnext, hlast⟩ := h
    exact ih (hdraft.add hnext) hlast

/-- The interval of an empty draft is not given. -/
lemma hasWholeSeconds_empty : Draft.HasWholeSeconds {} := nofun

/-- A configuration that is completed from the defaults has its interval in whole seconds. -/
lemma Draft.HasWholeSeconds.complete {draft : Draft} (h : draft.HasWholeSeconds) :
    draft.complete.HasWholeSeconds := by
  cases hfrequency : draft.pollFrequency with
  | none => exact ⟨5, by simp [Draft.complete, Draft.over, hfrequency]⟩
  | some duration =>
    obtain ⟨s, rfl⟩ := h duration hfrequency
    exact ⟨s, by simp [Draft.complete, Draft.over, hfrequency]⟩

lemma hasWholeSeconds_of_ofEntries {entries : Toml.Entries} {config : Config}
    (h : ofEntries entries = .ok config) : config.HasWholeSeconds := by
  obtain ⟨draft, hdraft, hconfig⟩ := bind_eq_ok_iff.mp h
  cases hconfig
  exact (hasWholeSeconds_empty.foldlM hdraft).complete

/-- A file gives its interval in whole seconds. -/
lemma hasWholeSeconds_of_load {files : FileSystem} {path : String} {config : Config}
    (h : load files path = .ok config) : config.HasWholeSeconds := by
  rw [load] at h
  split at h
  · split at h
    · next content =>
      rw [ofFile] at h
      split at h
      · cases h
      · next text =>
        rw [ofToml] at h
        split at h
        · next entries _ =>
          cases hentries : ofEntries entries with
          | error error =>
            rw [hentries] at h
            cases h
          | ok other =>
            rw [hentries] at h
            cases h
            exact hasWholeSeconds_of_ofEntries hentries
        · cases h
    · cases h
  · cases h

/-! ## Valid configurations -/

/-- What makes a configuration valid. -/
structure Valid (config : Config) : Prop where
  edgeId : config.edgeId.text ≠ ""
  endpointId : config.endpointId ≠ ""
  controllerUrl : config.controllerUrl ≠ ""
  pollFrequency_ne_zero : config.pollFrequency.isZero ≠ true
  pollFrequency_le : config.pollFrequency ≤ maxPollFrequency
  inactivityTimeout_ne_zero : config.inactivityTimeout.isZero ≠ true
  tunnelServer : ¬ (config.tunnelCapability = true ∧ config.tunnelServerAddr = "")

/-- The checks are made one after the other, and a configuration that passes all is valid. -/
lemma validate_eq_ok_iff {config : Config} : config.validate = .ok () ↔ config.Valid := by
  have hfailed : ∀ {error : ConfigError} {next : Unit → Except ConfigError Unit} {p : Prop},
      ¬ p → ((throw error >>= next) = .ok () ↔ p) := fun hp => ⟨nofun, fun h => absurd h hp⟩
  rw [validate]
  by_cases hedge : config.edgeId.text = ""
  · rw [if_pos hedge]
    exact hfailed fun h => h.edgeId hedge
  rw [if_neg hedge]
  by_cases hendpoint : config.endpointId = ""
  · rw [if_pos hendpoint]
    exact hfailed fun h => h.endpointId hendpoint
  rw [if_neg hendpoint]
  by_cases hurl : config.controllerUrl = ""
  · rw [if_pos hurl]
    exact hfailed fun h => h.controllerUrl hurl
  rw [if_neg hurl]
  by_cases hzero : config.pollFrequency.isZero = true
  · rw [if_pos hzero]
    exact hfailed fun h => h.pollFrequency_ne_zero hzero
  rw [if_neg hzero]
  by_cases hle : config.pollFrequency ≤ maxPollFrequency
  · rw [if_neg (not_not.mpr hle)]
    by_cases hidle : config.inactivityTimeout.isZero = true
    · rw [if_pos hidle]
      exact hfailed fun h => h.inactivityTimeout_ne_zero hidle
    rw [if_neg hidle]
    by_cases htunnel : config.tunnelCapability = true ∧ config.tunnelServerAddr = ""
    · rw [if_pos htunnel]
      exact ⟨nofun, fun h => absurd htunnel h.tunnelServer⟩
    rw [if_neg htunnel]
    exact ⟨fun _ => ⟨hedge, hendpoint, hurl, hzero, hle, hidle, htunnel⟩, fun _ => rfl⟩
  · rw [if_pos hle]
    exact hfailed fun h => hle h.pollFrequency_le

/-- A configuration of which everything that concerns tunnels is taken away. -/
def withoutTunnels (config : Config) : Config :=
  { config with tunnelCapability := false, tunnelServerAddr := "", tunnelServerFingerprint := "" }

/-- Without a tunnel to manage, nothing that concerns tunnels is checked. -/
lemma valid_withoutTunnels {config : Config} (h : config.tunnelCapability = false) :
    config.withoutTunnels.Valid ↔ config.Valid := by
  constructor
  · rintro ⟨hedge, hendpoint, hurl, hzero, hle, hidle, -⟩
    exact ⟨hedge, hendpoint, hurl, hzero, hle, hidle, by simp [h]⟩
  · rintro ⟨hedge, hendpoint, hurl, hzero, hle, hidle, -⟩
    exact ⟨hedge, hendpoint, hurl, hzero, hle, hidle, by simp [withoutTunnels]⟩

end Config

namespace Service

/-- A ticker can keep a positive interval of whole seconds, at most a day, while the clock has a
day left. -/
lemma start_wholeSeconds {s : UInt64} {clockEnd now : Nat}
    (hzero : (Duration.ofSeconds s).isZero ≠ true)
    (hle : Duration.ofSeconds s ≤ Config.maxPollFrequency)
    (hclock : now + Config.maxPollFrequency.nanos ≤ clockEnd) :
    Ticker.start clockEnd now (Duration.ofSeconds s).toBinary64 =
      .ok (.every (Duration.ofSeconds s).nanos now) := by
  have hday : s.toNat * nanosPerSecond ≤ 86400 * nanosPerSecond := hle
  have hmax : Config.maxPollFrequency.nanos = 86400 * nanosPerSecond := rfl
  have hne : s.toNat * nanosPerSecond ≠ 0 := fun h => hzero (decide_eq_true h)
  have hseconds : 0 < s.toNat ∧ s.toNat < 2 * Binary64.hiddenBit := by
    unfold nanosPerSecond Binary64.hiddenBit at *
    omega
  rw [Ticker.start, Duration.ofBinary64?_toBinary64 hseconds.1 hseconds.2]
  refine if_neg ?_
  rw [Duration.nanos_ofSeconds]
  rintro (h | h)
  · exact hzero h
  · omega

/-- A valid configuration is started at the beginning of time. -/
lemma spawn_of_validate {config : Config} {setup : Setup} (h : config.validate = .ok ()) :
    ∃ world : World, world.nanos = 0 ∧ spawn config setup = spawnWithSource config setup world := by
  refine ⟨({} : World).note (.pollingPrepared config.pollFrequency config.baseUrl), ?_, ?_⟩
  · rw [World.note_eq_emit, World.nanos_emit]
    exact Nat.zero_mul nanosPerMilli
  · simp only [spawn, h, Except.mapError, bind, Except.bind]

/-- A service whose ticker can be kept starts. -/
lemma exists_spawnWithSource {config : Config} {setup : Setup} {world : World} {ticker : Ticker}
    (h : Ticker.start setup.clockEnd world.nanos config.pollFrequency.toBinary64 = .ok ticker) :
    ∃ service, spawnWithSource config setup world = .ok service := by
  rw [spawnWithSource_eq, Cadence.start, h]
  exact ⟨_, rfl⟩

/-- The service starts exactly if its configuration is valid. -/
theorem exists_spawn_iff {config : Config} {clockEnd : Nat} (hwhole : config.HasWholeSeconds)
    (hclock : Config.maxPollFrequency.nanos ≤ clockEnd) :
    (∃ service, spawn config { clockEnd } = .ok service) ↔ config.validate = .ok () := by
  obtain ⟨s, hs⟩ := hwhole
  constructor
  · rintro ⟨service, h⟩
    obtain ⟨done, hdone, -⟩ := bind_eq_ok_iff.mp h
    cases hvalidate : config.validate with
    | error error =>
      rw [hvalidate] at hdone
      cases hdone
    | ok => rfl
  · intro h
    have hvalid := Config.validate_eq_ok_iff.mp h
    have hzero := hvalid.pollFrequency_ne_zero
    have hle := hvalid.pollFrequency_le
    rw [hs] at hzero hle
    have hticker := start_wholeSeconds hzero hle (le_of_eq_of_le (Nat.zero_add _) hclock)
    rw [← hs] at hticker
    obtain ⟨world, hworld, hspawn⟩ := spawn_of_validate h
    rw [← hworld] at hticker
    rw [hspawn]
    exact exists_spawnWithSource hticker

end Service

namespace CommandLine

variable {arguments : List String} {environment : Environment} {given : Arguments}
  {files others : FileSystem} {clockEnd : Nat}

/-! ## Layers -/

/-- The value of an entry: that of the first layer that gives it. -/
def layered {α : Type} (argument setting file : Option α) (default : α) : α :=
  match argument, setting, file with
  | some value, _, _ => value
  | none, some value, _ => value
  | none, none, some value => value
  | none, none, none => default

/-- The configuration that the layers make up.  The file has all entries or, if it does not load,
none. -/
structure Resolves (given : Arguments) (environment : Environment) (file : Option Config)
    (config : Config) : Prop where
  apiServerAddr : config.apiServerAddr =
    layered none none (file.map Config.apiServerAddr) "0.0.0.0:9001"
  edgeId : config.edgeId.text =
    layered given.edgeId (environment.get? "EDGE_ID") (file.map fun file => file.edgeId.text) ""
  endpointId : config.endpointId =
    layered given.endpointId (environment.get? "EDGE_ENDPOINT_ID")
      (file.map Config.endpointId) ""
  controllerUrl : config.controllerUrl =
    layered given.controllerUrl (environment.get? "EDGE_CONTROLLER_URL")
      (file.map Config.controllerUrl) "http://localhost:9000"
  pollFrequency : config.pollFrequency =
    layered (given.pollFrequency.map .ofSeconds) none (file.map Config.pollFrequency)
      (.ofSeconds 5)
  inactivityTimeout : config.inactivityTimeout =
    layered (given.inactivityTimeout.map .ofSeconds) none (file.map Config.inactivityTimeout)
      (.ofSeconds 300)
  insecurePoll : config.insecurePoll =
    (given.insecurePoll || layered none none (file.map Config.insecurePoll) false)
  tunnelCapability : config.tunnelCapability = false
  tunnelServerAddr : config.tunnelServerAddr =
    layered none none (file.map Config.tunnelServerAddr) "localhost:8000"
  tunnelServerFingerprint : config.tunnelServerFingerprint =
    layered none none (file.map Config.tunnelServerFingerprint) ""
  platform : config.platform = layered given.platform none (file.map Config.platform) .docker

lemma layered_eq {α : Type} (argument setting file : Option α) (default : α) :
    layered argument setting file default = (argument.or setting).getD (file.getD default) := by
  cases argument <;> cases setting <;> cases file <;> rfl

/-! ## The place of the file -/

/-- A path below a directory, with one slash between them. -/
def below (directory path : String) : String :=
  if directory.toList.getLast? = some '/' then directory ++ path else directory ++ "/" ++ path

/-- Where the file of the configuration is: at the path that the command line gives, or else below
the directory for configurations that the environment sets, if that is an absolute path, or else
below the one in the home directory.  Nothing is said if the environment knows no home. -/
structure Locates (given : Arguments) (environment : Environment) (path : String) : Prop where
  argument : ∀ argument, given.config = some argument → path = argument
  configHome : given.config = none → ∀ names,
    environment.get? "XDG_CONFIG_HOME" = some ("/" ++ names) →
      path = below ("/" ++ names) "edgepoll/agent.toml"
  home : given.config = none →
    (∀ names, environment.get? "XDG_CONFIG_HOME" ≠ some ("/" ++ names)) →
      ∀ home, environment.get? "HOME" = some home → home ≠ "" →
        path = below home ".config/edgepoll/agent.toml"

lemma joinPath_eq_below {directory : String} (h : directory ≠ "") (name : String) :
    Config.joinPath directory name = below directory name := by
  simp [Config.joinPath, below, h]

/-- A name below a path below a directory. -/
lemma joinPath_below {path : String} {last : Char} (hlast : path.toList.getLast? = some last)
    (hslash : last ≠ '/') (directory name : String) :
    Config.joinPath (below directory path) name = below directory (path ++ "/" ++ name) := by
  have hend : (below directory path).toList.getLast? = some last := by
    unfold below
    split <;> simp [List.getLast?_append, List.getLast?_cons, hlast]
  have hempty : below directory path ≠ "" := by
    intro hempty
    rw [hempty] at hend
    cases hend
  rw [Config.joinPath, if_neg (by simp [hend, hempty, hslash])]
  unfold below
  split <;> simp only [String.append_assoc]

/-- An absolute path begins with a slash. -/
lemma exists_names_of_head? {path : String} (h : path.toList.head? = some '/') :
    ∃ names, path = "/" ++ names := by
  obtain ⟨names, hnames⟩ := List.head?_eq_some_iff.mp h
  exact ⟨String.ofList names, String.toList_inj.mp (by simp [hnames])⟩

/-- The path of the file is found as it is said to be. -/
lemma locates_configPath (given : Arguments) (environment : Environment) :
    Locates given environment (configPath given environment) := by
  constructor
  · intro argument hgiven
    rw [configPath, hgiven, Option.getD_some]
  · intro hnone names hset
    have hne : "/" ++ names ≠ "" := by simp
    have huser : ∀ home, Config.userDirectory home (some ("/" ++ names)) = "/" ++ names :=
      fun home => if_pos (by simp)
    rw [configPath, hnone, hset, Option.getD_none, Config.defaultPath, Config.directory, huser,
      joinPath_eq_below hne, joinPath_below (by decide : _ = some 'l') (by decide)]
    rfl
  · intro hnone hunset home hhome hne
    have huser : Config.userDirectory home (environment.get? "XDG_CONFIG_HOME") =
        Config.joinPath home ".config" := by
      cases hset : environment.get? "XDG_CONFIG_HOME" with
      | none => rfl
      | some path =>
        refine if_neg fun hhead => ?_
        obtain ⟨names, rfl⟩ := exists_names_of_head? hhead
        exact hunset names hset
    rw [configPath, hnone, hhome, Option.getD_none, Option.getD_some, Config.defaultPath,
      Config.directory, huser, joinPath_eq_below hne,
      joinPath_below (by decide : _ = some 'g') (by decide),
      joinPath_below (by decide : _ = some 'l') (by decide)]
    rfl

/-- The configuration of the file, or the default one. -/
lemma fileConfig_fst (files : FileSystem) (path : String) :
    (fileConfig files path).1 = (Config.load files path).toOption.getD {} := by
  rw [fileConfig]
  split
  · cases Config.load files path <;> rfl
  · next hthere =>
    rw [Config.load, if_neg hthere]
    rfl

lemma resolve_fst (given : Arguments) (environment : Environment) (files : FileSystem) :
    (resolve given environment files).1 =
      { (overrides given environment).over
          ((Config.load files (configPath given environment)).toOption.getD {}) with
        tunnelCapability := false } := by
  rw [← fileConfig_fst]
  rfl

/-- The program finds the configuration that the layers make up. -/
lemma resolves_resolve (given : Arguments) (environment : Environment) (files : FileSystem) :
    Resolves given environment (Config.load files (configPath given environment)).toOption
      (resolve given environment files).1 := by
  rw [resolve_fst]
  cases (Config.load files (configPath given environment)).toOption
  all_goals
    constructor
    all_goals simp [Config.Draft.over, overrides, layered_eq]
  -- what is left are the two texts of the flag: it is given, or it says nothing
  all_goals cases given.insecurePoll <;> rfl

/-- The interval that the program finds is a number of whole seconds. -/
lemma hasWholeSeconds_resolve (given : Arguments) (environment : Environment)
    (files : FileSystem) : (resolve given environment files).1.HasWholeSeconds := by
  have hfrequency := (resolves_resolve given environment files).pollFrequency
  rw [Config.HasWholeSeconds, hfrequency]
  cases given.pollFrequency with
  | some seconds => exact ⟨seconds, rfl⟩
  | none =>
    cases hload : Config.load files (configPath given environment) with
    | error error => exact ⟨5, rfl⟩
    | ok file => exact Config.hasWholeSeconds_of_load hload

/-! ## What a run leaves behind -/

/-- The lines of the records that the log shows. -/
def shownLines (given : Arguments) (environment : Environment) (records : List ProgramRecord) :
    List String :=
  (records.filter fun record =>
    (logLimit (logFilter given environment) logTarget).shows record.level).map ProgramRecord.line

/-- The report of a start with a configuration, after some records. -/
def reportOf (clockEnd : Nat) (given : Arguments) (environment : Environment) (config : Config)
    (found : List ProgramRecord) : Report :=
  match Service.spawn config { clockEnd } with
  | .error error =>
    { exit := 1
      config := some config
      log := shownLines given environment (.starting :: found)
      failure := some (failureText "Failed to start poll service" error) }
  | .ok _ =>
    { exit := 0
      config := some config
      log := shownLines given environment (.starting :: found ++
        [.polling config.endpointId config.baseUrl, .shuttingDown]) }

lemma run_eq (h : Arguments.ofList arguments = .ok given) :
    run clockEnd arguments environment files =
      reportOf clockEnd given environment (resolve given environment files).1
        (resolve given environment files).2 := by
  rw [run, h]
  rfl

variable {config : Config} {found : List ProgramRecord}

lemma config_reportOf :
    (reportOf clockEnd given environment config found).config = some config := by
  rw [reportOf]
  split <;> rfl

/-- The program starts if its configuration is valid, and otherwise fails. -/
lemma exit_reportOf (hwhole : config.HasWholeSeconds)
    (hclock : Config.maxPollFrequency.nanos ≤ clockEnd) :
    ((reportOf clockEnd given environment config found).exit = 0 ∧ config.validate = .ok ()) ∨
      (reportOf clockEnd given environment config found).exit = 1 ∧
        ∃ error, config.validate = .error error := by
  have hstarts := Service.exists_spawn_iff hwhole hclock
  rw [reportOf]
  cases hspawn : Service.spawn config { clockEnd } with
  | ok service => exact .inl ⟨rfl, hstarts.mp ⟨service, hspawn⟩⟩
  | error error =>
    refine .inr ⟨rfl, ?_⟩
    cases hvalidate : config.validate with
    | error reason => exact ⟨reason, rfl⟩
    | ok =>
      obtain ⟨service, hservice⟩ := hstarts.mpr hvalidate
      rw [hservice] at hspawn
      cases hspawn

/-- Two configurations that are both valid or both not make the program end alike. -/
lemma exit_eq_of_validate_iff {other : Config} {foundOther : List ProgramRecord}
    (hwhole : config.HasWholeSeconds) (hother : other.HasWholeSeconds)
    (hclock : Config.maxPollFrequency.nanos ≤ clockEnd)
    (hvalid : config.validate = .ok () ↔ other.validate = .ok ()) :
    (reportOf clockEnd given environment config found).exit =
      (reportOf clockEnd given environment other foundOther).exit := by
  obtain ⟨hexit, hvalidate⟩ | ⟨hexit, reason, hvalidate⟩ := exit_reportOf hwhole hclock
  · obtain ⟨hexit', -⟩ | ⟨-, reason, hinvalid⟩ := exit_reportOf hother hclock
    · rw [hexit, hexit']
    · rw [hvalid.mp hvalidate] at hinvalid
      cases hinvalid
  · obtain ⟨-, hvalidate'⟩ | ⟨hexit', -⟩ := exit_reportOf hother hclock
    · rw [hvalid.mpr hvalidate'] at hvalidate
      cases hvalidate
    · rw [hexit, hexit']

/-- A file that is there but does not load counts as no file, up to a warning. -/
lemma resolve_of_broken {error : ConfigError}
    (hthere : files.isThere (configPath given environment) = true)
    (herror : Config.load files (configPath given environment) = .error error)
    (habsent : others.isThere (configPath given environment) = false) :
    resolve given environment files =
      ((resolve given environment others).1,
        .loadFailed (configPath given environment) error ::
          (resolve given environment others).2) := by
  have hbroken : fileConfig files (configPath given environment) =
      ({}, [.loadFailed (configPath given environment) error]) := by
    rw [fileConfig, if_pos hthere, herror]
  have hnone : fileConfig others (configPath given environment) = ({}, []) := by
    rw [fileConfig, habsent]
    rfl
  simp only [resolve, hbroken, hnone]
  rfl

/-- One more record before the others is all that it changes. -/
lemma reportOf_cons (record : ProgramRecord) :
    ∃ rest, (reportOf clockEnd given environment config found).log =
        shownLines given environment (.starting :: rest) ∧
      reportOf clockEnd given environment config (record :: found) =
        { reportOf clockEnd given environment config found with
          log := shownLines given environment (.starting :: record :: rest) } := by
  unfold reportOf
  split
  · exact ⟨found, rfl, rfl⟩
  · exact ⟨_, rfl, rfl⟩

/-- What a file says about tunnels does not change the rest of the configuration. -/
lemma withoutTunnels_resolve (given : Arguments) (environment : Environment)
    (files : FileSystem) :
    (resolve given environment files).1.withoutTunnels =
      ((overrides given environment).over
        ((Config.load files (configPath given environment)).toOption.getD {}).withoutTunnels
          ).withoutTunnels := by
  rw [resolve_fst]
  rfl

/-- If the files agree on everything but tunnels, either both configurations are valid or none. -/
lemma validate_iff_of_agree
    (h : ((Config.load files (configPath given environment)).toOption.getD {}).withoutTunnels =
      ((Config.load others (configPath given environment)).toOption.getD {}).withoutTunnels) :
    (resolve given environment files).1.validate = .ok () ↔
      (resolve given environment others).1.validate = .ok () := by
  have hfiles := (resolves_resolve given environment files).tunnelCapability
  have hothers := (resolves_resolve given environment others).tunnelCapability
  rw [Config.validate_eq_ok_iff, Config.validate_eq_ok_iff, ← Config.valid_withoutTunnels hfiles,
    ← Config.valid_withoutTunnels hothers, withoutTunnels_resolve, withoutTunnels_resolve, h]

/-- The configuration of a program that was given its arguments is found layer by layer, with the
file at the one place where it is looked for, and the program starts exactly if that configuration
is valid.  A file that is there but does not load changes nothing against no file at all, except
that there is one more warning.  And of two files that load and differ only in what they say about
tunnels, either both let the program start or none. -/
theorem run_resolution (harguments : Arguments.ofList arguments = .ok given)
    (hclock : Config.maxPollFrequency.nanos ≤ clockEnd) :
    ∃ path, Locates given environment path ∧
    (∀ files, ∃ config,
      (run clockEnd arguments environment files).config = some config ∧
      Resolves given environment (Config.load files path).toOption config ∧
      ((run clockEnd arguments environment files).exit = 1 ↔
        ∃ error, config.validate = .error error) ∧
      ((run clockEnd arguments environment files).exit = 0 ↔ config.validate = .ok ())) ∧
    (∀ files others error, files.isThere path = true → Config.load files path = .error error →
      others.isThere path = false →
      ∃ warning rest, warning.level = .warn ∧
        (run clockEnd arguments environment others).log =
          shownLines given environment (.starting :: rest) ∧
        run clockEnd arguments environment files =
          { run clockEnd arguments environment others with
            log := shownLines given environment (.starting :: warning :: rest) }) ∧
    ∀ files others file other, Config.load files path = .ok file →
      Config.load others path = .ok other → file.withoutTunnels = other.withoutTunnels →
      (run clockEnd arguments environment files).exit =
        (run clockEnd arguments environment others).exit := by
  refine ⟨configPath given environment, locates_configPath given environment, fun files => ?_,
    fun files others error hthere herror habsent => ?_,
    fun files others file other hfile hother hagree => ?_⟩
  · refine ⟨(resolve given environment files).1, ?_, resolves_resolve given environment files, ?_⟩
    · rw [run_eq harguments, config_reportOf]
    · rw [run_eq harguments]
      obtain ⟨hexit, hvalidate⟩ | ⟨hexit, reason, hvalidate⟩ :=
        exit_reportOf (hasWholeSeconds_resolve given environment files) hclock
      · rw [hexit, hvalidate]
        simp
      · rw [hexit, hvalidate]
        simp
  · rw [run_eq harguments, run_eq harguments, resolve_of_broken hthere herror habsent]
    obtain ⟨rest, hlog, hreport⟩ := reportOf_cons _
    exact ⟨_, rest, rfl, hlog, hreport⟩
  · rw [run_eq harguments, run_eq harguments]
    have hvalid : (resolve given environment files).1.validate = .ok () ↔
        (resolve given environment others).1.validate = .ok () :=
      validate_iff_of_agree (by rw [hfile, hother]; exact hagree)
    exact exit_eq_of_validate_iff (hasWholeSeconds_resolve given environment files)
      (hasWholeSeconds_resolve given environment others) hclock hvalid

/-- An agent starts from its command line, a variable and the defaults if the file is no text, as
it would without one; and the file of a tunnel server without an address is as good as an empty
one.  From a file that loads it takes what neither the command line nor a variable gives, also if
it has to look for the file in the home directory. -/
theorem started_alike :
    let bare := ["--edge-id", "edge-1", "--endpoint-id=7"]
    let arguments := bare ++ ["--config", "agent.toml"]
    let environment : Environment :=
      [("EDGE_CONTROLLER_URL", "http://controller:9000"), ("HOME", "/home/agent")]
    let broken := FileSystem.holding "agent.toml" (.file [0xff])
    let patient := FileSystem.holding "agent.toml" (.file (utf8 "inactivity_timeout = 60"))
    let atHome := FileSystem.holding "/home/agent/.config/edgepoll/agent.toml"
      (.file (utf8 "poll_frequency = 9\ncontroller_url = \"http://other:9000\""))
    let unaddressed := FileSystem.holding "agent.toml"
      (.file (utf8 "tunnel_server_addr = \"\""))
    let empty := FileSystem.holding "agent.toml" (.file [])
    (∃ config, (run clockRange arguments environment broken).config = some config ∧
      config.controllerUrl = "http://controller:9000" ∧
      (run clockRange arguments environment broken).exit = 0) ∧
    (run clockRange arguments environment {}).exit = 0 ∧
    (run clockRange arguments environment unaddressed).exit =
      (run clockRange arguments environment empty).exit ∧
    (∃ config, (run clockRange arguments environment patient).config = some config ∧
      config.inactivityTimeout = .ofSeconds 60) ∧
    ∃ config, (run clockRange bare environment atHome).config = some config ∧
      config.pollFrequency = .ofSeconds 9 ∧ config.controllerUrl = "http://controller:9000" := by
  intro bare arguments environment broken patient atHome unaddressed empty
  have hclock : Config.maxPollFrequency.nanos ≤ clockRange := by decide +kernel
  let given : Arguments :=
    { edgeId := some "edge-1", endpointId := some "7", config := some "agent.toml" }
  have harguments : Arguments.ofList arguments = .ok given := by decide +kernel
  obtain ⟨path, hpath, hlayers, hbroken, htunnels⟩ :=
    @run_resolution arguments environment given clockRange harguments hclock
  obtain rfl : path = "agent.toml" := hpath.argument _ rfl
  have herror : Config.load broken "agent.toml" =
      .error (.invalid "Failed to read config: stream did not contain valid UTF-8") := by
    decide +kernel
  obtain ⟨config, hconfig, hresolves, -, hexit⟩ := hlayers broken
  rw [herror] at hresolves
  have hurl : config.controllerUrl = "http://controller:9000" := by
    rw [hresolves.controllerUrl]
    decide +kernel
  have hvalid : config.Valid := by
    constructor
    · rw [hresolves.edgeId]
      decide +kernel
    · rw [hresolves.endpointId]
      decide +kernel
    · rw [hurl]
      decide +kernel
    · rw [hresolves.pollFrequency]
      decide +kernel
    · rw [hresolves.pollFrequency]
      decide +kernel
    · rw [hresolves.inactivityTimeout]
      decide +kernel
    · simp [hresolves.tunnelCapability]
  have hstarts := hexit.mpr (Config.validate_eq_ok_iff.mpr hvalid)
  obtain ⟨warning, rest, -, -, hreport⟩ :=
    hbroken broken {} _ (by decide +kernel) herror (by decide +kernel)
  refine ⟨⟨config, hconfig, hurl, hstarts⟩, ?_, ?_, ?_, ?_⟩
  · rw [hreport] at hstarts
    exact hstarts
  · exact htunnels unaddressed empty { tunnelServerAddr := "" } {} (by decide +kernel)
      (by decide +kernel) (by decide +kernel)
  · have hload : Config.load patient "agent.toml" = .ok { inactivityTimeout := .ofSeconds 60 } := by
      decide +kernel
    obtain ⟨config, hconfig, hresolves, -⟩ := hlayers patient
    rw [hload] at hresolves
    exact ⟨config, hconfig, hresolves.inactivityTimeout⟩
  · let given : Arguments := { edgeId := some "edge-1", endpointId := some "7" }
    have harguments : Arguments.ofList bare = .ok given := by decide +kernel
    obtain ⟨path, hpath, hlayers, -⟩ :=
      @run_resolution bare environment given clockRange harguments hclock
    -- no directory for configurations is set, so the file is looked for in the home directory
    obtain rfl : path = below "/home/agent" ".config/edgepoll/agent.toml" :=
      hpath.home rfl (fun names => nofun) "/home/agent" (by decide) (by decide)
    have hload : Config.load atHome (below "/home/agent" ".config/edgepoll/agent.toml") =
        .ok { pollFrequency := .ofSeconds 9, controllerUrl := "http://other:9000" } := by
      decide +kernel
    obtain ⟨config, hconfig, hresolves, -⟩ := hlayers atHome
    rw [hload] at hresolves
    refine ⟨config, hconfig, hresolves.pollFrequency, ?_⟩
    rw [hresolves.controllerUrl]
    decide +kernel

end CommandLine

end CheckIn
