/-
# Configuration files that say only something

A file may hold the lines of some keys only, as they are written when a configuration is saved, in
any order, and between them lines that give values to names that nobody knows.  It is loaded as
the configuration with the entries of these keys and the defaults for all others, whatever the
values of the unknown names are: `partial_loaded`.

That they are values of the grammar is not quite enough, since no more than `nestingRoom` arrays
and tables may be open at once.  A value with one more makes the whole file unreadable, although
nobody asks for it: `not_partial_loaded`.
-/
import CheckIn.Proofs.SavedConfig

namespace CheckIn
open Toml

namespace Config

/-! ## The lines of a file -/

/-- A line of a configuration file: that of a key, as it is written when a configuration is saved,
or one that gives a value to another name. -/
inductive FileLine (room : Nat)
  | saved (key : Key)
  | other (line : Expression room)

namespace FileLine

variable {room : Nat}

/-- The characters of a line, if the value of its key can be written. -/
def chars? (config : Config) : FileLine room → Option (List Char)
  | saved key => (config.tomlValue? key).map (writeEntry key.name)
  | other line => some line.chars

/-- The parts of the name to which a line gives a value. -/
def names : FileLine room → List String
  | saved key => [key.name]
  | other line => line.names

def key? : FileLine room → Option Key
  | saved key => some key
  | other _ => none

end FileLine

/-- Whether the lines give values to different names of which none is under another, and those for
other names than the keys to names that nobody knows. -/
structure Separate {room : Nat} (lines : List (FileLine room)) : Prop where
  apart : (lines.map FileLine.names).Pairwise Apart
  unknown : ∀ line, .other line ∈ lines → ∀ first ∈ line.names.head?, Key.ofName? first = none

/-- The text of a file with some lines. -/
def partialText? {room : Nat} (config : Config) (lines : List (FileLine room)) : Option String :=
  (lines.mapM (FileLine.chars? config)).map fun parts => String.ofList parts.flatten

/-- Whether a configuration has the entries of another one for some keys, and defaults for all
others. -/
def Only (keys : List Key) (config loaded : Config) : Prop :=
  ∀ key : Key, key.of loaded = if key ∈ keys then key.of config else key.of {}

/-! ## Drafts -/

/-- The draft with the entries of a configuration for some keys. -/
def Draft.setAll (config : Config) (keys : List Key) (draft : Draft) : Draft :=
  keys.foldl (fun draft key => key.set (key.of config) draft) draft

lemma Draft.setAll_append (config : Config) (keys more : List Key) (draft : Draft) :
    draft.setAll config (keys ++ more) = (draft.setAll config keys).setAll config more :=
  List.foldl_append

/-- Setting some keys of a draft leaves the others as they were. -/
lemma Draft.get_setAll (config : Config) (keys : List Key) (key : Key) (draft : Draft) :
    key.get (draft.setAll config keys) =
      if key ∈ keys then some (key.of config) else key.get draft := by
  rw [setAll]
  induction keys generalizing draft with
  | nil => rfl
  | cons first keys ih =>
    rw [List.foldl_cons, ih]
    by_cases hkey : key ∈ keys
    · rw [if_pos hkey, if_pos (List.mem_cons_of_mem first hkey)]
    · rw [if_neg hkey]
      by_cases hfirst : key = first
      · subst hfirst
        rw [if_pos List.mem_cons_self]
        exact keyed.get_set key _ draft
      · rw [if_neg (by simp [hfirst, hkey])]
        exact keyed.get_set_of_ne _ draft hfirst

lemma Key.of_complete (key : Key) (draft : Draft) :
    key.of draft.complete = (key.get draft).getD (key.of {}) := by
  cases key <;> rfl

/-- There is one such configuration only. -/
lemma Only.unique {keys : List Key} {config a b : Config} (ha : config.Only keys a)
    (hb : config.Only keys b) : a = b := by
  have hget : ∀ (key : Key) (config : Config), key.get config.toDraft = some (key.of config) := by
    intro key config
    cases key <;> rfl
  have hdrafts : a.toDraft = b.toDraft := keyed.ext fun key => by
    show key.get a.toDraft = key.get b.toDraft
    rw [hget, hget, ha key, hb key]
  exact congrArg Draft.complete hdrafts

/-! ## Documents -/

/-- Whether a name is that of a key. -/
def isKnown (name : String) : Bool := (Key.ofName? name).isSome

/-- Entries that nobody knows leave a draft as it is. -/
lemma foldlM_filter_isKnown (entries : Entries) (draft : Draft) :
    (entries.filter (isKnown ·.1)).foldlM Draft.add draft = entries.foldlM Draft.add draft := by
  induction entries generalizing draft with
  | nil => rfl
  | cons entry entries ih =>
    by_cases hknown : isKnown entry.1
    · rw [List.filter_cons, if_pos hknown, List.foldlM_cons, List.foldlM_cons]
      exact congrArg _ (funext ih)
    · have hadd : draft.add entry = .ok draft := by
        rw [isKnown, Option.not_isSome_iff_eq_none] at hknown
        rw [Draft.add, hknown]
      rw [List.filter_cons, if_neg hknown, List.foldlM_cons, hadd]
      exact ih draft

/-- Every line is a row, and only that of a key adds an entry that is known. -/
lemma FileLine.exists_row {config : Config} (h : config.Fits) (line : FileLine nestingRoom)
    (hunknown : ∀ e, line = .other e → ∀ first ∈ e.names.head?, Key.ofName? first = none) :
    ∃ row : Row, line.chars? config = some row.chars ∧ row.entry.names = line.names ∧
      (isKnown row.entry.first → row.entry.path = []) ∧
      ∀ draft : Draft, (row.entry.kept isKnown).foldlM Draft.add draft =
        .ok (draft.setAll config.truncated line.key?.toList) := by
  cases line with
  | saved key =>
    obtain ⟨written, value, hwritten, hreads, hset⟩ := tomlValue?_eq_some h key
    let line : Line := ⟨key.name, written, value, key.isBareName, hreads⟩
    refine ⟨line.row, by rw [chars?, hwritten]; rfl, rfl, fun _ => rfl, fun draft => ?_⟩
    have hknown : isKnown key.name := by rw [isKnown, Key.ofName?_name]; rfl
    have hadd : draft.add (key.name, value) = .ok (key.set (key.of config.truncated) draft) := by
      rw [Draft.add, Key.ofName?_name]
      exact hset draft
    have hkept : line.row.entry.kept isKnown = [(key.name, value)] := if_pos hknown
    rw [hkept, List.foldlM_cons, hadd]
    rfl
  | other e =>
    obtain ⟨row, hchars, hnames⟩ := e.exists_row
    have hfirst : isKnown row.entry.first = false := by
      have hhead := hunknown e rfl row.entry.first
      rw [← hnames, row.entry.head?_names] at hhead
      rw [isKnown, hhead rfl]
      rfl
    refine ⟨row, by rw [chars?, hchars], hnames, fun hknown => ?_, fun draft => ?_⟩
    · rw [hfirst] at hknown
      cases hknown
    · rw [Entry.kept, hfirst]
      rfl

/-- The lines of a file are rows, and the known entries of these set the keys of the lines. -/
lemma exists_rows {config : Config} (h : config.Fits) (lines : List (FileLine nestingRoom))
    (hunknown : ∀ e, .other e ∈ lines → ∀ first ∈ e.names.head?, Key.ofName? first = none) :
    ∃ rows : List Row, lines.mapM (FileLine.chars? config) = some (rows.map Row.chars) ∧
      (rows.map fun row => row.entry.names) = lines.map FileLine.names ∧
      (∀ row ∈ rows, isKnown row.entry.first → row.entry.path = []) ∧
      ∀ draft : Draft, (rows.flatMap fun row => row.entry.kept isKnown).foldlM Draft.add draft =
        .ok (draft.setAll config.truncated (lines.filterMap FileLine.key?)) := by
  induction lines with
  | nil => exact ⟨[], rfl, rfl, fun _ h => absurd h List.not_mem_nil, fun _ => rfl⟩
  | cons line lines ih =>
    obtain ⟨row, hchars, hnames, hplain, hfold⟩ := line.exists_row h fun e he =>
      hunknown e (he ▸ List.mem_cons_self)
    obtain ⟨rows, hrows, hrest, hplains, hfolds⟩ := ih fun e he =>
      hunknown e (List.mem_cons_of_mem line he)
    refine ⟨row :: rows, ?_, ?_, fun other hother => ?_, fun draft => ?_⟩
    · rw [List.mapM_cons, hchars, hrows]
      rfl
    · rw [List.map_cons, List.map_cons, hnames, hrest]
    · obtain rfl | hother := List.mem_cons.1 hother
      · exact hplain
      · exact hplains other hother
    · have hkeys : (line :: lines).filterMap FileLine.key? =
          line.key?.toList ++ lines.filterMap FileLine.key? := by
        cases line <;> rfl
      rw [List.flatMap_cons, List.foldlM_append, hfold, hkeys, Draft.setAll_append]
      exact hfolds _

/-- A text with some lines is read as the configuration with their keys only. -/
lemma ofToml_partialText {config : Config} (h : config.Fits) {lines : List (FileLine nestingRoom)}
    (hlines : Separate lines) :
    ∃ text loaded, config.partialText? lines = some text ∧ ofToml text = .ok loaded ∧
      config.truncated.Only (lines.filterMap FileLine.key?) loaded := by
  obtain ⟨rows, hrows, hnames, hplain, hfold⟩ := exists_rows h lines hlines.unknown
  obtain ⟨entries, hentries, hkept⟩ := document?_rows rows (hnames ▸ hlines.apart)
  refine ⟨String.ofList (rows.flatMap Row.chars),
    (Draft.setAll config.truncated (lines.filterMap FileLine.key?) {}).complete, ?_, ?_,
    fun key => ?_⟩
  · rw [partialText?, hrows, Option.map_some, ← List.flatMap_def]
  · rw [ofToml, hentries]
    simp only [ofEntries]
    rw [← foldlM_filter_isKnown, hkept isKnown hplain, hfold]
    rfl
  · rw [Key.of_complete, Draft.get_setAll]
    split
    · rfl
    · cases key <;> rfl

/-! ## Files -/

/-- What can be read is there. -/
lemma load_of_read {files : FileSystem} {path text : String}
    (h : files.read path = .ok (utf8 text)) :
    load files path = (ofToml text).mapError .parse := by
  have hthere : files.isThere path := by
    rw [FileSystem.isThere]
    rw [FileSystem.read] at h
    cases hplace : files.locate (FileSystem.parts path) with
    | ok place => rfl
    | error fault =>
      rw [hplace] at h
      cases h
  rw [load, if_pos hthere, h]
  simp only [ofFile, ofUtf8?_utf8]

/-- A file with the lines of some keys, in any order and with any lines for other names in between,
is loaded as the configuration with the entries of these keys and the defaults for all others.  An
empty file is loaded as the defaults. -/
theorem partial_loaded {config : Config} (hfits : config.Fits)
    (hpoll : config.pollFrequency.subsecondNanos = 0)
    (hinactivity : config.inactivityTimeout.subsecondNanos = 0)
    {lines : List (FileLine nestingRoom)} (hlines : Separate lines) :
    (∃ text, config.partialText? lines = some text ∧
      ∀ (files : FileSystem) (path : String), files.read path = .ok (utf8 text) →
        ∃ loaded, load files path = .ok loaded ∧
          config.Only (lines.filterMap FileLine.key?) loaded) ∧
    ∀ (files : FileSystem) (path : String), files.read path = .ok [] →
      load files path = .ok {} := by
  refine ⟨?_, fun files path hread => ?_⟩
  · obtain ⟨text, loaded, htext, hloaded, honly⟩ := ofToml_partialText hfits hlines
    rw [truncated_eq_self hpoll hinactivity] at honly
    refine ⟨text, htext, fun files path hread => ⟨loaded, ?_, honly⟩⟩
    rw [load_of_read hread, hloaded]
    rfl
  · have hempty : utf8 "" = [] := by decide
    rw [← hempty] at hread
    rw [load_of_read hread]
    decide

/-- A line for `x` whose value is arrays within each other. -/
def nestedLine (depth : Nat) : FileLine (depth + 1) :=
  .other (.ofBare (show IsBareName "x" by decide) (isValue_nested depth))

lemma separate_nestedLine (depth : Nat) {keys : List Key} (hkeys : keys.Nodup) :
    Separate (nestedLine depth :: keys.map .saved) := by
  have hx : ∀ key : Key, "x" ≠ key.name := by
    intro key
    cases key <;> decide
  refine ⟨?_, fun line hline first hfirst => ?_⟩
  · rw [List.map_cons, List.pairwise_cons, List.map_map]
    refine ⟨fun names hnames => ?_, List.pairwise_map.2 (hkeys.imp fun hne => ?_)⟩
    · obtain ⟨key, -, rfl⟩ := List.mem_map.1 hnames
      exact apart_singleton.2 (hx key)
    · exact apart_singleton.2 fun hname => hne (keyed.name_injective hname)
  · obtain hline | hline := List.mem_cons.1 hline
    · obtain rfl := FileLine.other.inj hline
      obtain rfl : "x" = first := Option.some.inj hfirst
      decide
    · obtain ⟨key, -, hkey⟩ := List.mem_map.1 hline
      cases hkey

/-- A text that begins with a line with one array too many is no document. -/
lemma ofToml_nestedLine (rest : List Char) :
    ofToml (String.ofList ("x".toList ++ ' ' :: '=' :: ' ' ::
      (nested (nestingRoom + 1) ++ rest))) = .error .malformed := by
  have hvalue : value? nestingRoom (skipBlanks (' ' :: (nested (nestingRoom + 1) ++ rest))) =
      none := by
    have hskip : skipBlanks (' ' :: (nested (nestingRoom + 1) ++ rest)) =
        nested (nestingRoom + 1) ++ rest := by
      rw [skipBlanks_cons_of_isBlank rfl, (isValue_nested nestingRoom).opens.skipBlanks_append]
    rw [hskip, nested, List.append_assoc, value?_replicate]
  rw [ofToml, document?_eq_none (by decide) hvalue]

/-- A line with one array too many makes a file unreadable that is a document of the grammar. -/
theorem not_partial_loaded :
    ¬ ∀ (room : Nat) (config : Config) (lines : List (FileLine room)), config.Fits →
      config.pollFrequency.subsecondNanos = 0 → config.inactivityTimeout.subsecondNanos = 0 →
      Separate lines → ∃ text, config.partialText? lines = some text ∧
        ∀ (files : FileSystem) (path : String), files.read path = .ok (utf8 text) →
          ∃ loaded, load files path = .ok loaded ∧
            config.Only (lines.filterMap FileLine.key?) loaded := by
  intro h
  obtain ⟨text, htext, hload⟩ := h (nestingRoom + 1) {} [nestedLine nestingRoom]
    (by decide) (by decide) (by decide) (separate_nestedLine _ List.nodup_nil)
  obtain ⟨loaded, hloaded, -⟩ := hload (.holding "agent.toml" (.file (utf8 text))) "agent.toml" rfl
  have hchars : text = String.ofList ("x".toList ++ ' ' :: '=' :: ' ' ::
      (nested (nestingRoom + 1) ++ ['\n'])) := by
    rw [partialText?, nestedLine, List.mapM_cons, FileLine.chars?, Expression.chars_ofBare] at htext
    exact (Option.some.inj htext).symm.trans (by simp)
  rw [load_of_read rfl, hchars, ofToml_nestedLine] at hloaded
  cases hloaded

/-- A configuration of which a file says something. -/
def hinted : Config where
  edgeId := ⟨"edge-1"⟩
  endpointId := "7"
  insecurePoll := true
  pollFrequency := .ofSeconds 9

/-- The identity of an agent and its interval are loaded behind as many open arrays as there may
be, and all else has its default; without a line, everything has. -/
theorem hinted_loaded :
    hinted.Fits ∧ hinted.pollFrequency.subsecondNanos = 0 ∧
    hinted.inactivityTimeout.subsecondNanos = 0 ∧
    (∃ lines : List (FileLine nestingRoom), Separate lines ∧
      ∃ text, hinted.partialText? lines = some text ∧
        load (.holding "agent.toml" (.file (utf8 text))) "agent.toml" =
          .ok { edgeId := ⟨"edge-1"⟩, pollFrequency := .ofSeconds 9 }) ∧
    load (.holding "agent.toml" (.file [])) "agent.toml" = .ok {} := by
  have hfits : hinted.Fits := by decide
  have hseparate : Separate (nestedLine 78 :: [Key.pollFrequency, .edgeId].map .saved) :=
    separate_nestedLine 78 (by decide)
  obtain ⟨⟨text, htext, hload⟩, hempty⟩ := partial_loaded hfits (by decide) (by decide) hseparate
  obtain ⟨loaded, hloaded, honly⟩ :=
    hload (.holding "agent.toml" (.file (utf8 text))) "agent.toml" rfl
  have hexpected : hinted.Only [.pollFrequency, .edgeId]
      { edgeId := ⟨"edge-1"⟩, pollFrequency := .ofSeconds 9 } := by
    intro key
    cases key <;> rfl
  rw [honly.unique hexpected] at hloaded
  exact ⟨hfits, by decide, by decide, ⟨_, hseparate, text, htext, hloaded⟩, hempty _ _ rfl⟩

end Config

end CheckIn
