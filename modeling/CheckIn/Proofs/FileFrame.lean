/-
# What saving leaves alone

Files that were only changed by making directories, writing, saving and loading form a tree:
whatever is there is in a directory and under a name (`isTree_afterAll`).  In a tree the places
alone tell what a path leads to, as long as it does not go up (`IsTree.isThere_iff`).

Of such a tree saving changes one file, and above it makes the directories that are missing.  If
it fails it has at most made some of these directories, and none at all if the configuration
cannot be written.  Loading changes nothing, and finds what is there (`Config.saving_frame`).
-/
import CheckIn.Proofs.SavedConfig

namespace CheckIn

namespace FileSystem

/-! ## Trees -/

/-- Whatever is there is in a directory and under a name. -/
structure IsTree (files : FileSystem) : Prop where
  inDirectory : ∀ {place name}, (files.node? (place ++ [name])).isSome →
    files.node? place = some .directory
  isName : ∀ {place name}, (files.node? (place ++ [name])).isSome →
    IsName name ∧ '\x00' ∉ name.toList

section Trees

variable {files : FileSystem} {place directory : Place} {name : String}

lemma isTree_empty : IsTree {} := by
  have hnone : ∀ {place : Place} {name : String},
      (({} : FileSystem).node? (place ++ [name])).isSome = false := by
    intro place name
    simp [node?]
  exact ⟨fun h => by simp [hnone] at h, fun h => by simp [hnone] at h⟩

/-- Above what is there are directories. -/
lemma IsTree.allThere (h : files.IsTree) (hplace : files.node? place = some .directory) :
    files.AllThere place := by
  induction place using List.reverseRecOn with
  | nil =>
    intro way hway
    rw [List.prefix_nil.1 hway]
    rfl
  | append_singleton place name ih =>
    exact allThere_concat.2 ⟨ih (h.inDirectory (by rw [hplace]; rfl)), hplace⟩

/-- What is there is called by names all the way. -/
lemma IsTree.areNames (h : files.IsTree) (hplace : (files.node? place).isSome) :
    AreNames place := by
  induction place using List.reverseRecOn with
  | nil =>
    intro name hname
    cases hname
  | append_singleton place name ih =>
    exact areNames_concat.2 ⟨ih (by rw [h.inDirectory hplace]; rfl), h.isName hplace⟩

/-- A tree stays one when something is put under a name in a directory, and not over another
directory. -/
lemma IsTree.put (h : files.IsTree) (hdirectory : files.node? directory = some .directory)
    (hname : IsName name ∧ '\x00' ∉ name.toList)
    (hfree : files.node? (directory ++ [name]) ≠ some .directory) (node : FileNode) :
    (files.put (directory ++ [name]) node).IsTree := by
  have hput := fun place => node?_put files (directory ++ [name]) place node (by simp)
  -- no directory gives way to the new node, so that each one still holds what it held
  have hkept : ∀ {place}, files.node? place = some .directory →
      (files.put (directory ++ [name]) node).node? place = some .directory := by
    intro place hplace
    rw [hput, if_neg, hplace]
    rintro rfl
    exact hfree hplace
  constructor
  · intro place other hthere
    rw [hput] at hthere
    split at hthere
    · next heq =>
      rw [(List.append_inj' heq rfl).1]
      exact hkept hdirectory
    · exact hkept (h.inDirectory hthere)
  · intro place other hthere
    rw [hput] at hthere
    split at hthere
    · next heq =>
      rw [List.singleton_inj.1 (List.append_inj' heq rfl).2]
      exact hname
    · exact h.isName hthere

end Trees

/-! ## Paths that do not go up -/

/-- The names on a path. -/
def names (path : String) : List String := (parts path).filter (!isStay ·)

/-- What some parts of a path lead to.  A part that stays where it is can only follow a
directory. -/
def nodeAt? (files : FileSystem) (way : List String) : Option FileNode :=
  match files.node? (way.filter (!isStay ·)) with
  | some (.file content) => if way.getLast?.any isStay then none else some (.file content)
  | other => other

/-- What is at a path. -/
def at? (files : FileSystem) (path : String) : Option FileNode := files.nodeAt? (parts path)

section Ways

variable {files : FileSystem} {way : List String} {part : String} {place start : Place}

/-- A way that does not go up leads to the place of its names, if it leads anywhere. -/
lemma eq_filter_of_foldlM_step (hup : ".." ∉ way) (h : way.foldlM files.step [] = .ok place) :
    place = way.filter (!isStay ·) := by
  induction way using List.reverseRecOn generalizing place with
  | nil =>
    cases h
    rfl
  | append_singleton way part ih =>
    obtain ⟨next, hnext, hstep⟩ := foldlM_step_concat.1 h
    obtain rfl := ih (fun hmem => hup (List.mem_append_left _ hmem)) hnext
    obtain ⟨-, hleads⟩ := leads_of_step hstep
    cases hleads with
    | stay hstay => rw [filter_concat_stay hstay]
    | up => exact absurd List.mem_concat_self hup
    | name hname => rw [filter_concat_name hname.moves]

lemma eq_filter_of_locate (hup : ".." ∉ way) (h : files.locate way = .ok place) :
    place = way.filter (!isStay ·) :=
  eq_filter_of_foldlM_step hup (locate_eq_ok_iff.1 h).2

lemma nodeAt?_of_directory (h : files.node? (way.filter (!isStay ·)) = some .directory) :
    files.nodeAt? way = some .directory := by
  rw [nodeAt?, h]

lemma nodeAt?_concat_stay (hstay : isStay part = true) :
    (files.nodeAt? (way ++ [part])).isSome ↔
      files.node? (way.filter (!isStay ·)) = some .directory := by
  rw [nodeAt?, filter_concat_stay hstay, List.getLast?_concat]
  cases files.node? (way.filter (!isStay ·)) with
  | none => simp
  | some node => cases node <;> simp [hstay]

lemma nodeAt?_concat_name (hstay : isStay part = false) :
    files.nodeAt? (way ++ [part]) = files.node? (way.filter (!isStay ·) ++ [part]) := by
  rw [nodeAt?, filter_concat_name hstay, List.getLast?_concat]
  cases files.node? (way.filter (!isStay ·) ++ [part]) with
  | none => rfl
  | some node => cases node <;> simp [hstay]

/-- In a tree a way that does not go up can be walked exactly if there is something at its end. -/
lemma IsTree.foldlM_step_iff (h : files.IsTree) (hup : ".." ∉ way) :
    (∃ place, way.foldlM files.step [] = .ok place) ↔ (files.nodeAt? way).isSome := by
  induction way using List.reverseRecOn with
  | nil => exact iff_of_true ⟨[], rfl⟩ rfl
  | append_singleton way part ih =>
    have hbefore : ".." ∉ way := fun hmem => hup (List.mem_append_left _ hmem)
    -- what leads on leads on from the directory of the names before
    have hwalk : files.node? (way.filter (!isStay ·)) = some .directory →
        way.foldlM files.step [] = .ok (way.filter (!isStay ·)) := by
      intro hdirectory
      obtain ⟨next, hnext⟩ := (ih hbefore).2 (by rw [nodeAt?_of_directory hdirectory]; rfl)
      rwa [← eq_filter_of_foldlM_step hbefore hnext]
    cases hstay : isStay part with
    | true =>
      rw [nodeAt?_concat_stay hstay]
      constructor
      · rintro ⟨place, hplace⟩
        obtain ⟨next, hnext, hstep⟩ := foldlM_step_concat.1 hplace
        rw [← eq_filter_of_foldlM_step hbefore hnext]
        exact (leads_of_step hstep).1
      · intro hdirectory
        exact ⟨_, foldlM_step_concat.2
          ⟨_, hwalk hdirectory, step_of_leads hdirectory (.stay hstay)⟩⟩
    | false =>
      rw [nodeAt?_concat_name hstay]
      constructor
      · rintro ⟨place, hplace⟩
        obtain ⟨next, hnext, hstep⟩ := foldlM_step_concat.1 hplace
        rw [← eq_filter_of_foldlM_step hbefore hnext]
        obtain ⟨-, hleads⟩ := leads_of_step hstep
        cases hleads with
        | stay hmoves => exact absurd hmoves (by simp [hstay])
        | up => exact absurd List.mem_concat_self hup
        | name _ hthere => exact hthere
      · intro hthere
        have hdirectory := h.inDirectory hthere
        exact ⟨_, foldlM_step_concat.2 ⟨_, hwalk hdirectory,
          step_of_leads hdirectory (.name (h.isName hthere).1 hthere)⟩⟩

/-- In a tree a path that does not go up leads somewhere exactly if something is at it. -/
lemma IsTree.isThere_iff {path : String} (h : files.IsTree) (hup : ".." ∉ parts path) :
    files.isThere path ↔ (files.at? path).isSome := by
  rw [at?, ← h.foldlM_step_iff hup]
  constructor
  · intro hthere
    rw [isThere] at hthere
    split at hthere
    · next place hplace => exact ⟨place, (locate_eq_ok_iff.1 hplace).2⟩
    · cases hthere
  · rintro ⟨place, hplace⟩
    have hnames : AreNames ((parts path).filter (!isStay ·)) := by
      apply h.areNames
      have hsome := (h.foldlM_step_iff hup).1 ⟨place, hplace⟩
      rw [nodeAt?] at hsome
      cases hnode : files.node? ((parts path).filter (!isStay ·)) with
      | none => simp [hnode] at hsome
      | some node => rfl
    rw [isThere, locate_eq_ok_iff.2 ⟨zeroless_of_areNames hnames, hplace⟩]

end Ways

/-! ## Making directories -/

/-- Some directories that were missing on a way were made, and nothing else was changed. -/
def OnlyMade (files made : FileSystem) (way : List String) : Prop :=
  ∀ place, made.node? place = files.node? place ∨
    (place <+: way ∧ files.node? place = none ∧ made.node? place = some .directory)

section Making

variable {files made : FileSystem} {way names : List String} {name : String}

lemma onlyMade_self (files : FileSystem) (way : List String) : OnlyMade files files way :=
  fun _ => .inl rfl

lemma OnlyMade.trans {after : FileSystem} (h : OnlyMade files made way)
    (h' : OnlyMade made after way) : OnlyMade files after way := by
  intro place
  obtain hsame | ⟨hway, hnone, hnew⟩ := h' place
  · rw [hsame]
    exact h place
  · obtain hsame | ⟨-, -, hmade⟩ := h place
    · exact .inr ⟨hway, hsame ▸ hnone, hnew⟩
    · rw [hnone] at hmade
      cases hmade

/-- Files stay as they are. -/
lemma OnlyMade.file (h : OnlyMade files made way) {place : Place} {content : List UInt8}
    (hfile : files.node? place = some (.file content)) :
    made.node? place = some (.file content) := by
  obtain hsame | ⟨-, hnone, -⟩ := h place
  · rw [hsame, hfile]
  · rw [hnone] at hfile
    cases hfile

/-- A directory is made under a name in another one, where nothing is. -/
lemma put_of_makeDirectory (hmoves : isStay name = false)
    (h : files.makeDirectory way name = .ok made) :
    ∃ directory, files.locate way = .ok directory ∧ files.node? directory = some .directory ∧
      (IsName name ∧ '\x00' ∉ name.toList) ∧ files.node? (directory ++ [name]) = none ∧
      made = files.put (directory ++ [name]) .directory := by
  unfold makeDirectory at h
  split at h
  · obtain ⟨-, -, h⟩ := bind_eq_ok_iff.1 h
    cases h
  next hup =>
  obtain ⟨place, hnew, h⟩ := bind_eq_ok_iff.1 h
  obtain ⟨directory, hway, hzero, hdirectory, hshort, rfl⟩ := newPlace_eq_ok_iff.1 hnew
  split at h
  · cases h
  next hnone =>
  cases h
  exact ⟨directory, hway, hdirectory, ⟨⟨hmoves, hup, hshort⟩, hzero⟩, hnone, rfl⟩

/-- What holds of each directory that is made holds of making all those of a way. -/
lemma makeAll_induction {R : FileSystem → FileSystem → Prop} (hself : ∀ files, R files files)
    (htrans : ∀ {files made after}, R files made → R made after → R files after)
    (hmake : ∀ {files made way name}, way ++ [name] <+: names →
      files.makeDirectory way name = .ok made → R files made) (files : FileSystem) :
    R files (files.makeAll names.reverse).2 := by
  induction names using List.reverseRecOn generalizing files with
  | nil => exact hself files
  | append_singleton names name ih =>
    have hlast : ∀ files, R files (makeLast files names name).2 := by
      intro files
      rw [makeLast]
      split
      · next hmade => exact hmake (List.prefix_refl _) hmade
      · split <;> exact hself files
    -- those above are made only if one of them turns out to be missing
    have habove := ih (fun hway => hmake (hway.trans (List.prefix_append names [name]))) files
    rw [makeAll_concat]
    split
    · split
      · next hmade =>
        rw [hmade] at habove
        exact htrans habove (hlast _)
      · exact habove
    · exact hlast files

lemma IsTree.makeDirectories {result : Except FileFault Unit} (h : files.IsTree)
    (hmade : files.makeDirectories way = (result, made)) : made.IsTree := by
  have htree : files.IsTree → (files.makeDirectories way).2.IsTree := by
    refine makeAll_induction (R := fun files made => files.IsTree → made.IsTree) (fun _ h => h)
      (fun h h' => h' ∘ h) (fun hway hmade htree => ?_) files
    have hmoves := List.mem_filter.1 (hway.subset List.mem_concat_self)
    obtain ⟨directory, -, hdirectory, hname, hnone, rfl⟩ :=
      put_of_makeDirectory (by simpa using hmoves.2) hmade
    exact htree.put hdirectory hname (by simp [hnone]) _
  rw [hmade] at htree
  exact htree h

lemma of_mem_above {path part : String} (h : part ∈ above path) :
    part ∈ parts path ∧ isStay part = false := by
  simpa using List.mem_filter.1 (List.mem_of_mem_dropLast h)

/-- Above a path that does not go up, only missing directories are made. -/
lemma onlyMade_of_makeDirectories {path : String} {result : Except FileFault Unit}
    (hup : ".." ∉ parts path) (hmade : files.makeDirectories (above path) = (result, made)) :
    OnlyMade files made (above path) := by
  have hnames : (above path).filter (!isStay ·) = above path :=
    List.filter_eq_self.2 fun part hpart => by simp [(of_mem_above hpart).2]
  have honly : OnlyMade files (files.makeAll (above path).reverse).2 (above path) := by
    refine makeAll_induction (R := fun files made => OnlyMade files made _) (onlyMade_self · _)
      OnlyMade.trans (fun {files made way name} hway hmade => ?_) files
    have hmem := fun part (hpart : part ∈ way ++ [name]) => of_mem_above (hway.subset hpart)
    obtain ⟨directory, hdirectory, -, -, hnone, rfl⟩ :=
      put_of_makeDirectory (hmem name List.mem_concat_self).2 hmade
    -- a way of names alone leads to the place that they call
    have hplace : directory = way := by
      rw [eq_filter_of_locate (fun hpart => hup (hmem _ (List.mem_append_left _ hpart)).1)
        hdirectory]
      exact List.filter_eq_self.2 fun part hpart => by
        simp [(hmem part (List.mem_append_left _ hpart)).2]
    subst hplace
    intro place
    rw [node?_put _ _ _ _ (by simp)]
    split
    · next heq => exact .inr ⟨heq ▸ hway, heq ▸ hnone, rfl⟩
    · exact .inl rfl
  rw [makeDirectories, hnames] at hmade
  rwa [hmade] at honly

end Making

/-! ## Writing below directories that were made -/

/-- What is left by writing a file to a path after the directories above it were made. -/
structure WrittenTo (files : FileSystem) (path : String) (content : List UInt8)
    (after : FileSystem) : Prop where
  /-- The file at the path has the content. -/
  file : after.at? path = some (.file content)
  /-- It is not there in place of a directory. -/
  replaced : files.node? (names path) ≠ some .directory
  /-- Above it are directories: those that were there, and new ones where nothing was. -/
  above : ∀ place, place <+: above path → after.node? place = some .directory ∧
    (files.node? place = some .directory ∨ files.node? place = none)
  /-- All else is as it was. -/
  others : ∀ place, ¬ place <+: names path → after.node? place = files.node? place

section Writing

variable {files made written : FileSystem} {path name : String} {directory : Place}
  {content : List UInt8}

lemma IsTree.write (h : files.IsTree) (hwritten : files.write path content = .ok written) :
    written.IsTree := by
  obtain ⟨directory, name, hto, rfl⟩ := write_eq_ok_iff.1 hwritten
  exact h.put hto.isDirectory ⟨hto.isName, hto.zeroless⟩ hto.free _

/-- What is written to a path that does not go up is put at the place of its names. -/
lemma WritesTo.names_eq (h : files.WritesTo path directory name) (hup : ".." ∉ parts path) :
    directory = above path ∧ names path = above path ++ [name] := by
  obtain ⟨way, hparts, hway⟩ := h.parts_eq
  have hnames : names path = way.filter (!isStay ·) ++ [name] := by
    rw [names, hparts, filter_concat_name h.isName.moves]
  have habove : above path = way.filter (!isStay ·) := by
    rw [above, ← names, hnames, List.dropLast_concat]
  rw [habove]
  rw [hparts] at hup
  exact ⟨eq_filter_of_locate (fun hmem => hup (List.mem_append_left _ hmem)) hway, hnames⟩

lemma writtenTo_of_write (h : files.IsTree) (hup : ".." ∉ parts path)
    (hmade : files.makeDirectories (above path) = (.ok (), made))
    (hwritten : made.write path content = .ok written) :
    WrittenTo files path content written := by
  have htree := h.makeDirectories hmade
  have honly := onlyMade_of_makeDirectories hup hmade
  obtain ⟨directory, name, hto, rfl⟩ := write_eq_ok_iff.1 hwritten
  obtain ⟨rfl, hnames⟩ := hto.names_eq hup
  have hput := fun place => node?_put made (above path ++ [name]) place (.file content) (by simp)
  have hself : ¬ above path ++ [name] <+: above path := fun hway => by simpa using hway.length_le
  -- beside the way down to the file nothing was made
  have hmissed : ∀ {place}, ¬ place <+: above path → made.node? place = files.node? place :=
    fun hway => (honly _).resolve_right fun hnew => hway hnew.1
  constructor
  · obtain ⟨way, hparts, -⟩ := hto.parts_eq
    have hplace : way.filter (!isStay ·) ++ [name] = above path ++ [name] := by
      rw [← hnames, names, hparts, filter_concat_name hto.isName.moves]
    rw [at?, hparts, nodeAt?_concat_name hto.isName.moves, hplace, hput, if_pos rfl]
  · rw [hnames, ← hmissed hself]
    exact hto.free
  · intro place hway
    have hdirectory := htree.allThere hto.isDirectory place hway
    refine ⟨?_, ?_⟩
    · rw [hput, if_neg, hdirectory]
      rintro rfl
      exact hself hway
    · obtain hsame | ⟨-, hnone, -⟩ := honly place
      · exact .inl (hsame ▸ hdirectory)
      · exact .inr hnone
  · intro place hway
    rw [hput, if_neg, hmissed]
    · exact fun habove => hway (habove.trans (hnames ▸ List.prefix_append _ _))
    · rintro rfl
      exact hway (hnames ▸ List.prefix_refl _)

end Writing

end FileSystem

/-! ## Saving and loading -/

namespace Config
open FileSystem (above parts)

variable {files after : FileSystem} {path : String} {config : Config}

/-- How saving a configuration ends, and what it leaves behind. -/
inductive SaveEnds (files : FileSystem) (path : String) (config : Config) :
    Except ConfigError Unit × FileSystem → Prop
  /-- The configuration cannot be written. -/
  | textless {error : ConfigError} (htext : config.toToml = .error error) :
    SaveEnds files path config (.error error, files)
  /-- Not all directories can be made, or the file cannot be written in the last one. -/
  | refused {result : Except FileFault Unit} {made : FileSystem} (reason : String)
    (hmade : files.makeDirectories (above path) = (result, made)) :
    SaveEnds files path config (.error (.invalid reason), made)
  | saved {text : String} {made written : FileSystem} (htext : config.toToml = .ok text)
    (hmade : files.makeDirectories (above path) = (.ok (), made))
    (hwritten : made.write path (utf8 text) = .ok written) :
    SaveEnds files path config (.ok (), written)

lemma saveEnds (files : FileSystem) (path : String) (config : Config) :
    SaveEnds files path config (save files path config) := by
  rw [save]
  split
  · next htext => exact .textless htext
  next text htext =>
  simp only
  split
  · next hmade => exact .refused _ hmade
  next made hmade =>
  split
  · exact .refused _ hmade
  · next hwritten => exact .saved htext hmade hwritten

lemma isTree_save (h : files.IsTree) (path : String) (config : Config) :
    (save files path config).2.IsTree := by
  have hends := saveEnds files path config
  generalize save files path config = outcome at hends ⊢
  cases hends with
  | textless => exact h
  | refused reason hmade => exact h.makeDirectories hmade
  | saved htext hmade hwritten => exact (h.makeDirectories hmade).write hwritten

/-- Saving that fails has at most made directories above the path. -/
lemma onlyMade_of_save {error : ConfigError} (hup : ".." ∉ parts path)
    (h : save files path config = (.error error, after)) :
    files.OnlyMade after (above path) := by
  have hends := saveEnds files path config
  rw [h] at hends
  cases hends with
  | textless => exact FileSystem.onlyMade_self files _
  | refused reason hmade => exact FileSystem.onlyMade_of_makeDirectories hup hmade

/-- What is in a file is never a reason to say that there is none. -/
lemma ofFile_ne_notFound (content : List UInt8) (path : String) :
    ofFile content ≠ .error (.notFound path) := by
  rw [ofFile]
  split
  · simp
  next text _ =>
  cases ofToml text <;> simp [Except.mapError]

lemma load_eq_notFound_iff {other : String} :
    load files path = .error (.notFound other) ↔ other = path ∧ files.isThere path = false := by
  rw [load]
  split
  · next hthere =>
    refine iff_of_false (fun h => ?_) fun h => by simp [hthere] at h
    split at h
    · exact ofFile_ne_notFound _ _ h
    · cases h
  · next hthere => simp [hthere, eq_comm]

end Config

/-! ## Files that were worked on -/

/-- What is done to files. -/
inductive FileAct
  | makeDirectories (path : String)
  | write (path : String) (content : List UInt8)
  | save (path : String) (config : Config)
  | load (path : String)

namespace FileSystem

/-- The files after an act, also one that failed. -/
def afterAct (files : FileSystem) : FileAct → FileSystem
  | .makeDirectories path => (files.makeDirectories (parts path)).2
  | .write path content =>
    match files.write path content with
    | .ok written => written
    | .error _ => files
  | .save path config => (config.save files path).2
  | .load _ => files

/-- The files after some acts, the first one on no files at all. -/
def afterAll (acts : List FileAct) : FileSystem := acts.foldl afterAct {}

lemma IsTree.afterAct {files : FileSystem} (h : files.IsTree) (act : FileAct) :
    (files.afterAct act).IsTree := by
  cases act with
  | makeDirectories path => exact h.makeDirectories rfl
  | write path content =>
    rw [FileSystem.afterAct]
    split
    · next hwritten => exact h.write hwritten
    · exact h
  | save path config => exact Config.isTree_save h path config
  | load path => exact h

lemma isTree_afterAll (acts : List FileAct) : (afterAll acts).IsTree := by
  induction acts using List.reverseRecOn with
  | nil => exact isTree_empty
  | append_singleton acts act ih =>
    rw [afterAll, List.foldl_concat]
    exact ih.afterAct act

end FileSystem

namespace Config
open FileSystem (above parts afterAll)

/-- Of the files that any acts have left, saving a configuration to a path that does not go up
changes only this: nothing if the configuration cannot be written; the file at the path, and the
directories that are missing above it, if it succeeds; and some of these directories if it fails.
Loading from the path changes nothing, and says that there is nothing exactly if so it is. -/
theorem saving_frame (acts : List FileAct) {path : String} (hup : ".." ∉ parts path)
    (config : Config) :
    (∀ error, config.toToml = .error error →
      save (afterAll acts) path config = (.error error, afterAll acts)) ∧
    (∀ after, save (afterAll acts) path config = (.ok (), after) →
      ∃ text, config.toToml = .ok text ∧ (afterAll acts).WrittenTo path (utf8 text) after) ∧
    (∀ error after, save (afterAll acts) path config = (.error error, after) →
      (afterAll acts).OnlyMade after (above path) ∧
      ∀ place content, (afterAll acts).node? place = some (.file content) →
        after.node? place = some (.file content)) ∧
    afterAll (acts ++ [.load path]) = afterAll acts ∧
    (∀ other, load (afterAll acts) path = .error (.notFound other) ↔
      other = path ∧ (afterAll acts).at? path = none) := by
  have htree := FileSystem.isTree_afterAll acts
  refine ⟨fun error htext => by rw [save, htext], fun after hsave => ?_, fun error after hsave => ?_,
    ?_, fun other => ?_⟩
  · have hends := saveEnds (afterAll acts) path config
    rw [hsave] at hends
    cases hends with
    | saved htext hmade hwritten =>
      exact ⟨_, htext, FileSystem.writtenTo_of_write htree hup hmade hwritten⟩
  · have honly := onlyMade_of_save hup hsave
    exact ⟨honly, fun place content => honly.file⟩
  · rw [afterAll, List.foldl_concat]
    rfl
  · rw [load_eq_notFound_iff, Bool.eq_false_iff, Ne, htree.isThere_iff hup, Bool.not_eq_true,
      Option.isSome_eq_false_iff, Option.isNone_iff_eq_none]

/-- Some notes beside a directory. -/
def noted : List FileAct := [.write "notes" [104, 105], .makeDirectories "etc"]

/-- Saving below the directory makes another one in it and leaves the notes alone, as does saving
below the notes, which fails.  A duration that is too long changes nothing, and before anything is
saved there is nothing to load. -/
theorem notes_kept :
    ".." ∉ parts "etc/edge/agent.toml" ∧ ".." ∉ parts "notes/agent.toml" ∧
    (∃ after text, save (afterAll noted) "etc/edge/agent.toml" quoted = (.ok (), after) ∧
      after.at? "etc/edge/agent.toml" = some (.file (utf8 text)) ∧
      after.node? ["etc", "edge"] = some .directory ∧
      after.node? ["notes"] = some (.file [104, 105])) ∧
    (∃ error after, save (afterAll noted) "notes/agent.toml" quoted = (.error error, after) ∧
      after.node? ["notes"] = some (.file [104, 105])) ∧
    (∃ error, save (afterAll noted) "etc/edge/agent.toml"
      { quoted with pollFrequency := .ofSeconds 9223372036854775808 } =
        (.error error, afterAll noted)) ∧
    load (afterAll noted) "etc/edge/agent.toml" = .error (.notFound "etc/edge/agent.toml") := by
  have hup : ".." ∉ parts "etc/edge/agent.toml" := by decide
  have hup' : ".." ∉ parts "notes/agent.toml" := by decide
  have hnotes : (afterAll noted).node? ["notes"] = some (.file [104, 105]) := by decide
  have hsave : save (afterAll noted) "etc/edge/agent.toml" quoted = (.ok (), _) :=
    Prod.ext (by decide +kernel) rfl
  have hrefused : save (afterAll noted) "notes/agent.toml" quoted =
      (.error (.invalid "Failed to create config dir: File exists (os error 17)"), _) :=
    Prod.ext (by decide +kernel) rfl
  obtain ⟨-, hsaved, -, -, hload⟩ := saving_frame noted hup quoted
  obtain ⟨-, -, hfailed, -, -⟩ := saving_frame noted hup' quoted
  obtain ⟨hlong, -⟩ := saving_frame noted hup
    { quoted with pollFrequency := .ofSeconds 9223372036854775808 }
  obtain ⟨text, -, hto⟩ := hsaved _ hsave
  refine ⟨hup, hup', ⟨_, text, hsave, hto.file, (hto.above ["etc", "edge"] (by decide)).1, ?_⟩,
    ⟨_, _, hrefused, (hfailed _ _ hrefused).2 _ _ hnotes⟩,
    ⟨_, hlong _ (toToml_of_not_fits (by decide))⟩, (hload _).2 ⟨rfl, by decide⟩⟩
  rw [hto.others ["notes"] (by decide), hnotes]

end Config

end CheckIn
