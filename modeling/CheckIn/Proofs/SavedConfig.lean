/-
# Saved configurations are loaded again

A configuration whose durations are below `2 ^ 63` seconds is saved to any writable path, whatever
its texts are, and loaded from there up to what is beyond the whole seconds of its durations.  A
longer duration has no TOML form, and then nothing is written at all.  Both halves are the theorem
`load_save`.
-/
import CheckIn.Config.File
import CheckIn.Proofs.Fields
import CheckIn.Proofs.FileTree
import CheckIn.Proofs.Toml.Document

namespace CheckIn
open Toml

/-! ## Entries -/

namespace Config

/-- The entry of a key in a configuration. -/
def Key.of : (k : Key) → Config → k.Val
  | .apiServerAddr, config => config.apiServerAddr
  | .edgeId, config => config.edgeId
  | .endpointId, config => config.endpointId
  | .controllerUrl, config => config.controllerUrl
  | .pollFrequency, config => config.pollFrequency
  | .inactivityTimeout, config => config.inactivityTimeout
  | .insecurePoll, config => config.insecurePoll
  | .tunnelCapability, config => config.tunnelCapability
  | .tunnelServerAddr, config => config.tunnelServerAddr
  | .tunnelServerFingerprint, config => config.tunnelServerFingerprint
  | .platform, config => config.platform

/-- Whether both durations are short enough to be written. -/
def Fits (config : Config) : Prop :=
  config.pollFrequency.seconds < 0x8000000000000000 ∧
    config.inactivityTimeout.seconds < 0x8000000000000000

instance (config : Config) : Decidable config.Fits := inferInstanceAs (Decidable (_ ∧ _))

end Config

/-- A duration in whole seconds is read as itself, up to what is beyond them. -/
lemma Duration.durationOf_integer {d : Duration} (h : d.seconds < 0x8000000000000000) :
    Config.durationOf (.integer (Int64.ofNat d.seconds)) = .ok d.truncated := by
  rw [Config.durationOf]
  simp only [Int64.toInt_ofNat_of_lt h]
  exact if_pos (Int.natCast_nonneg _)

lemma Platform.platformOf_text (platform : Platform) :
    Config.platformOf (.text platform.name) = .ok platform := by
  simp only [Config.platformOf, Config.platformNamed, ofKnownName, ofName?_name]
  rfl

namespace Config

/-- The written value of a key is read back, and sets the key's entry. -/
lemma tomlValue?_eq_some {config : Config} (h : config.Fits) (key : Key) :
    ∃ written value, config.tomlValue? key = some written ∧ Reads written value ∧
      ∀ draft : Draft, draft.set key value = .ok (key.set (key.of config.truncated) draft) := by
  have hlong : ∀ {n : Nat}, n < 0x8000000000000000 →
      writeNatural? n = some (decimalDigits n) := fun h => if_pos h
  cases key with
  | apiServerAddr | endpointId | controllerUrl | tunnelServerAddr | tunnelServerFingerprint
  | edgeId => exact ⟨_, _, rfl, reads_writeText _, fun _ => rfl⟩
  | platform =>
    refine ⟨_, _, rfl, reads_writeText _, fun draft => ?_⟩
    rw [Draft.set, Platform.platformOf_text]
    rfl
  | pollFrequency =>
    refine ⟨_, _, hlong h.1, reads_decimalDigits h.1, fun draft => ?_⟩
    rw [Draft.set, Duration.durationOf_integer h.1]
    rfl
  | inactivityTimeout =>
    refine ⟨_, _, hlong h.2, reads_decimalDigits h.2, fun draft => ?_⟩
    rw [Draft.set, Duration.durationOf_integer h.2]
    rfl
  | insecurePoll | tunnelCapability => exact ⟨_, _, rfl, reads_writeBoolean _, fun _ => rfl⟩

/-! ## Documents -/

/-- The lines of some keys are one for each of them. -/
lemma tomlLines?_cons (config : Config) (key : Key) (keys : List Key) :
    config.tomlLines? (key :: keys) = (config.tomlValue? key).bind fun written =>
      (config.tomlLines? keys).map (writeEntry key.name written ++ ·) := by
  rw [tomlLines?, tomlLines?, List.mapM_cons]
  cases config.tomlValue? key with
  | none => rfl
  | some written =>
    cases keys.mapM fun key => (config.tomlValue? key).map (writeEntry key.name) <;> rfl

/-- A single value that cannot be written is enough for there to be no lines. -/
lemma tomlLines?_eq_none {config : Config} {key : Key} (h : config.tomlValue? key = none)
    {keys : List Key} (hmem : key ∈ keys) : config.tomlLines? keys = none := by
  induction keys with
  | nil => cases hmem
  | cons other keys ih =>
    rw [tomlLines?_cons]
    obtain rfl | hmem := List.mem_cons.1 hmem
    · rw [h]
      rfl
    · rw [ih hmem]
      cases config.tomlValue? other <;> rfl

lemma Key.isBareName (key : Key) : IsBareName key.name := by cases key <;> decide

/-- The lines of some keys are read back, and set the entries of the keys. -/
lemma exists_lines {config : Config} (h : config.Fits) (keys : List Key) :
    ∃ lines : List Line, config.tomlLines? keys = some (lines.flatMap Line.chars) ∧
      lines.map Line.name = keys.map Key.name ∧
      ∀ draft : Draft, (lines.map Line.entry).foldlM Draft.add draft =
        .ok (keys.foldl (fun draft key => key.set (key.of config.truncated) draft) draft) := by
  induction keys with
  | nil => exact ⟨[], rfl, rfl, fun _ => rfl⟩
  | cons key keys ih =>
    obtain ⟨written, value, hwritten, hreads, hset⟩ := tomlValue?_eq_some h key
    obtain ⟨lines, hlines, hnames, hfold⟩ := ih
    refine ⟨⟨key.name, written, value, key.isBareName, hreads⟩ :: lines, ?_, ?_, fun draft => ?_⟩
    · rw [tomlLines?_cons, hwritten, hlines]
      rfl
    · rw [List.map_cons, List.map_cons, hnames]
    · have hadd : draft.add (key.name, value) = .ok (key.set (key.of config.truncated) draft) := by
        rw [Draft.add, Key.ofName?_name]
        exact hset draft
      rw [List.map_cons, List.foldlM_cons, Line.entry, hadd]
      exact hfold _

/-- A configuration that can be written is read from its text. -/
lemma ofToml_toToml {config : Config} (h : config.Fits) :
    ∃ text, config.toToml = .ok text ∧ ofToml text = .ok config.truncated := by
  obtain ⟨lines, hlines, hnames, hfold⟩ := exists_lines h Key.all
  have hnodup : (lines.map Line.name).Nodup := by
    rw [hnames]
    decide
  refine ⟨String.ofList (lines.flatMap Line.chars), by rw [toToml, hlines], ?_⟩
  rw [ofToml, document?_lines lines hnodup]
  simp only [ofEntries, hfold]
  rfl

/-- A duration of `2 ^ 63` seconds or more has no text. -/
lemma toToml_of_not_fits {config : Config} (h : ¬ config.Fits) :
    config.toToml = .error (.serialize tooLong) := by
  have hlong : ∃ key, config.tomlValue? key = none := by
    obtain h | h := not_and_or.1 h
    · exact ⟨.pollFrequency, if_neg h⟩
    · exact ⟨.inactivityTimeout, if_neg h⟩
  obtain ⟨key, hkey⟩ := hlong
  rw [toToml, tomlLines?_eq_none hkey key.mem_all]

/-! ## Files -/

/-- Saving to a writable path writes the text of the configuration. -/
lemma save_eq_ok {config : Config} {text : String} (h : config.toToml = .ok text)
    {files : FileSystem} {path : String} (hpath : files.Writable path) :
    ∃ made saved : FileSystem, made.write path (utf8 text) = .ok saved ∧
      save files path config = (.ok (), saved) := by
  obtain ⟨made, written, content, hmade, hwritten⟩ := hpath
  obtain ⟨saved, hsaved⟩ := FileSystem.write_content hwritten (utf8 text)
  refine ⟨made, saved, hsaved, ?_⟩
  rw [save, h]
  simp only [FileSystem.above] at hmade
  simp only [hmade, hsaved]

/-- A configuration that can be written is saved to a writable path and loaded from there. -/
lemma exists_saved {config : Config} (hfits : config.Fits) {files : FileSystem} {path : String}
    (hpath : files.Writable path) :
    ∃ saved, save files path config = (.ok (), saved) ∧
      load saved path = .ok config.truncated := by
  obtain ⟨text, htext, hread⟩ := ofToml_toToml hfits
  obtain ⟨made, saved, hsaved, hsave⟩ := save_eq_ok htext hpath
  obtain ⟨hthere, hcontent⟩ := FileSystem.read_of_write hsaved
  refine ⟨saved, hsave, ?_⟩
  rw [load, if_pos hthere, hcontent]
  simp only [ofFile, ofUtf8?_utf8, hread]
  rfl

/-- A configuration that cannot be written is not saved, and nothing is written. -/
lemma save_of_not_fits {config : Config} (h : ¬ config.Fits) (files : FileSystem)
    (path : String) : save files path config = (.error (.serialize tooLong), files) := by
  rw [save, toToml_of_not_fits h]

/-- A configuration that both of its durations allow to be written is saved to any writable path,
and loaded from there it is the same up to what is beyond the whole seconds of its durations; any
other one is not saved, and nothing is written. -/
theorem load_save (config : Config) (files : FileSystem) (path : String) :
    (config.Fits → files.Writable path →
      ∃ saved, save files path config = (.ok (), saved) ∧
        load saved path = .ok config.truncated ∧
        (config.pollFrequency.subsecondNanos = 0 → config.inactivityTimeout.subsecondNanos = 0 →
          load saved path = .ok config)) ∧
    (¬ config.Fits → save files path config = (.error (.serialize tooLong), files)) := by
  refine ⟨fun hfits hpath => ?_, fun hfits => ?_⟩
  · obtain ⟨saved, hsave, hload⟩ := exists_saved hfits hpath
    refine ⟨saved, hsave, hload, fun h₁ h₂ => ?_⟩
    rw [hload, truncated_eq_self h₁ h₂]
  · exact save_of_not_fits hfits files path

/-- A configuration whose texts need each of the forms of a string. -/
def quoted : Config where
  apiServerAddr := "localhost:9001"
  edgeId := ⟨"\"\"\"'''\\\r\n"⟩
  endpointId := "\x00\x1b\x7f"
  controllerUrl := "C:\\agents"
  tunnelServerAddr := "\n\"\""
  tunnelServerFingerprint := "\\é🔑\n''"
  platform := .podman
  insecurePoll := true
  pollFrequency := .ofSeconds 1
  inactivityTimeout := .ofSeconds 9223372036854775807

/-- On an empty file system nothing is in the way of a new directory. -/
lemma clear_nested : FileSystem.Clear {} "nested/agent.toml" := by
  have hparts : FileSystem.parts "nested/agent.toml" = ["nested", "agent.toml"] := by decide
  have hnames : (FileSystem.parts "nested/agent.toml").filter (!FileSystem.isStay ·) =
      ["nested", "agent.toml"] := by decide
  refine ⟨⟨["nested"], "agent.toml", hparts, by decide⟩, ?_, fun way _ content => ?_, ?_⟩
  · rw [hnames]
    intro name hname
    simp only [List.mem_cons, List.not_mem_nil, or_false] at hname
    obtain rfl | rfl := hname <;> exact ⟨⟨by decide, by decide, by decide⟩, by decide⟩
  · simp only [FileSystem.node?]
    split <;> simp
  · rw [hnames]
    decide

theorem quoted_loaded :
    quoted.Fits ∧ FileSystem.Writable {} "nested/agent.toml" ∧
    (∃ saved, save {} "nested/agent.toml" quoted = (.ok (), saved) ∧
      load saved "nested/agent.toml" = .ok quoted) ∧
    (∃ saved, save {} "nested/agent.toml" { quoted with pollFrequency := ⟨1999999999, by decide⟩ } =
        (.ok (), saved) ∧ load saved "nested/agent.toml" = .ok quoted) ∧
    ¬ ({ quoted with pollFrequency := .ofSeconds 9223372036854775808 } : Config).Fits ∧
    save {} "nested/agent.toml" { quoted with pollFrequency := .ofSeconds 9223372036854775808 } =
      (.error (.serialize tooLong), {}) := by
  have hfits : quoted.Fits := by decide
  have hlong : ¬ ({ quoted with pollFrequency := .ofSeconds 9223372036854775808 } : Config).Fits :=
    by decide
  obtain ⟨saved, hsave, -, hload⟩ :=
    (load_save quoted {} "nested/agent.toml").1 hfits clear_nested.writable
  obtain ⟨saved', hsave', hload', -⟩ :=
    (load_save { quoted with pollFrequency := ⟨1999999999, by decide⟩ } {} "nested/agent.toml").1
      (by decide) clear_nested.writable
  exact ⟨hfits, clear_nested.writable, ⟨saved, hsave, hload (by decide) (by decide)⟩,
    ⟨saved', hsave', hload'⟩, hlong,
    (load_save _ {} "nested/agent.toml").2 hlong⟩

end Config

end CheckIn
