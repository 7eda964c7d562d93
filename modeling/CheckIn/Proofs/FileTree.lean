/-
# Written files

What was written to a path is read from it, and whether a path can be written to does not depend
on what is written.  Both are about the way through the directories: writing puts one file at one
place, where no directory was, and no way goes through that place.

A path is sure to be writable if all its parts are names or stay where they are, if nothing but
directories stands on the way, and if no directory is at its end.  Missing directories are made.
-/
import CheckIn.Config.FileSystem
import CheckIn.Error
import Mathlib.Tactic

namespace CheckIn.FileSystem

/-- The directories above the end of a path. -/
def above (path : String) : List String := ((parts path).filter (!isStay ·)).dropLast

/-- Whether a file can be written at a path, after its directories were made. -/
def Writable (files : FileSystem) (path : String) : Prop :=
  ∃ made written content, files.makeDirectories (above path) = (.ok (), made) ∧
    made.write path content = .ok written

/-! ## Steps through directories -/

/-- A part of a path that leads down. -/
structure IsName (part : String) : Prop where
  moves : isStay part = false
  down : part ≠ ".."
  short : part.utf8ByteSize ≤ longestName

/-- Where a part of a path leads from a directory. -/
inductive Leads (files : FileSystem) (place : Place) : String → Place → Prop
  | stay {part : String} (h : isStay part) : Leads files place part place
  | up : Leads files place ".." place.dropLast
  | name {part : String} (h : IsName part) (there : (files.node? (place ++ [part])).isSome) :
    Leads files place part (place ++ [part])

section Steps

variable {files : FileSystem} {place next : Place} {part : String}

/-- A step that can be taken leads on from a directory. -/
lemma leads_of_step (h : files.step place part = .ok next) :
    files.node? place = some .directory ∧ Leads files place part next := by
  unfold step at h
  split at h
  · cases h
  · cases h
  next hplace =>
  refine ⟨hplace, ?_⟩
  split at h
  · next hstay =>
    cases h
    exact .stay hstay
  next hstay =>
  split at h
  · next hup =>
    cases h
    exact hup ▸ .up
  next hup =>
  split at h
  · cases h
  next hsize =>
  split at h
  · next hthere =>
    cases h
    exact .name ⟨Bool.eq_false_iff.2 hstay, hup, Nat.not_lt.1 hsize⟩ (by rw [hthere]; rfl)
  · cases h

lemma step_of_leads (hplace : files.node? place = some .directory)
    (h : Leads files place part next) : files.step place part = .ok next := by
  rw [step, hplace]
  cases h with
  | stay h => exact if_pos h
  | up => rfl
  | name h there =>
    obtain ⟨node, hnode⟩ := Option.isSome_iff_exists.1 there
    simp only [h.moves, Bool.false_eq_true, if_false, h.down, Nat.not_lt.2 h.short, hnode]

/-- A way stays open when a file is put where no directory is. -/
lemma step_put {new : Place} {content : List UInt8} (hnew : new ≠ [])
    (hfree : files.node? new ≠ some .directory) (h : files.step place part = .ok next) :
    (files.put new (.file content)).step place part = .ok next := by
  obtain ⟨hplace, hleads⟩ := leads_of_step h
  -- every step starts from a directory, so none starts from the new file
  have hne : place ≠ new := by
    rintro rfl
    exact hfree hplace
  refine step_of_leads (by rw [node?_put _ _ _ _ hnew, if_neg hne, hplace]) ?_
  cases hleads with
  | stay hstay => exact .stay hstay
  | up => exact .up
  | name hname there =>
    refine .name hname ?_
    rw [node?_put _ _ _ _ hnew]
    split
    · rfl
    · exact there

end Steps

lemma foldlM_step_put {files : FileSystem} {new : Place} {content : List UInt8} (hnew : new ≠ [])
    (hfree : files.node? new ≠ some .directory) {parts : List String} {place last : Place}
    (h : parts.foldlM files.step place = .ok last) :
    parts.foldlM (files.put new (.file content)).step place = .ok last := by
  induction parts generalizing place with
  | nil => exact h
  | cons part parts ih =>
    rw [List.foldlM_cons] at h ⊢
    cases hstep : files.step place part with
    | error fault =>
      rw [hstep] at h
      cases h
    | ok next =>
      rw [hstep] at h
      rw [step_put hnew hfree hstep]
      exact ih h

/-- A path that leads somewhere has no zero character in its names. -/
lemma locate_eq_ok_iff {files : FileSystem} {parts : List String} {place : Place} :
    files.locate parts = .ok place ↔
      (∀ part ∈ parts, '\x00' ∉ part.toList) ∧ parts.foldlM files.step [] = .ok place := by
  rw [locate]
  split
  · next h =>
    obtain ⟨part, hpart, hzero⟩ := List.any_eq_true.1 h
    refine iff_of_false (fun h => by cases h) fun h => h.1 part hpart ?_
    simpa using hzero
  · next h =>
    have hzero : ∀ part ∈ parts, '\x00' ∉ part.toList := by simpa using h
    exact (and_iff_right hzero).symm

/-! ## Writing -/

/-- Where writing to a path puts a file: under a name in a directory, and not over another
directory. -/
structure WritesTo (files : FileSystem) (path : String) (directory : Place) (name : String) :
    Prop where
  parts_eq : ∃ way, parts path = way ++ [name] ∧ files.locate way = .ok directory
  isName : IsName name
  zeroless : '\x00' ∉ name.toList
  isDirectory : files.node? directory = some .directory
  free : files.node? (directory ++ [name]) ≠ some .directory

lemma newPlace_eq_ok_iff {files : FileSystem} {way : List String} {name : String}
    {place : Place} :
    files.newPlace way name = .ok place ↔
      ∃ directory, files.locate way = .ok directory ∧ '\x00' ∉ name.toList ∧
        files.node? directory = some .directory ∧ name.utf8ByteSize ≤ longestName ∧
        place = directory ++ [name] := by
  unfold newPlace
  cases hway : files.locate way with
  | error fault => exact iff_of_false (fun h => by cases h) fun ⟨_, h, _⟩ => by cases h
  | ok directory =>
    show (do
      if name.toList.contains '\x00' then throw FileFault.zeroInName
      if files.node? directory ≠ some .directory then throw FileFault.notADirectory
      if longestName < name.utf8ByteSize then throw FileFault.nameTooLong
      return directory ++ [name] : Except FileFault Place) = _ ↔ _
    constructor
    · intro h
      by_cases hzero : name.toList.contains '\x00'
      · rw [if_pos hzero] at h
        cases h
      rw [if_neg hzero] at h
      by_cases hdirectory : files.node? directory = some .directory
      · rw [if_neg (not_not.2 hdirectory)] at h
        by_cases hsize : longestName < name.utf8ByteSize
        · rw [if_pos hsize] at h
          cases h
        · rw [if_neg hsize] at h
          cases h
          exact ⟨directory, rfl, by simpa using hzero, hdirectory, Nat.not_lt.1 hsize, rfl⟩
      · rw [if_pos hdirectory] at h
        cases h
    · rintro ⟨directory', hway', hzero, hdirectory, hsize, rfl⟩
      obtain rfl := Except.ok.inj hway'
      rw [if_neg (by simpa using hzero), if_neg (not_not.2 hdirectory),
        if_neg (Nat.not_lt.2 hsize)]
      rfl

lemma dropWhile_concat (way : List String) {name : String} (h : name ≠ "") :
    ((way ++ [name]).reverse.dropWhile (· = "")).reverse = way ++ [name] := by
  rw [List.reverse_concat, List.dropWhile_cons_of_neg (by simpa using h), List.reverse_cons,
    List.reverse_reverse]

/-- What writing comes to for a path that ends with a name. -/
lemma write_concat {files : FileSystem} {path name : String} {way : List String}
    (hparts : parts path = way ++ [name]) (hname : isStay name = false) (hup : name ≠ "..")
    (content : List UInt8) :
    files.write path content = (files.newPlace way name >>= fun place =>
      if files.node? place = some .directory then .error .isADirectory
      else .ok (files.put place (.file content))) := by
  simp only [isStay, Bool.or_eq_false_iff, decide_eq_false_iff_not] at hname
  unfold write
  simp only [hparts, dropWhile_concat way hname.1, List.getLast?_concat, Option.getD_some,
    List.dropLast_concat, hname.2, hup, or_self, if_false, Option.some.injEq, hname.1, false_or]
  rfl

/-- A path to which something was written ends with a name. -/
lemma ends_of_write {files written : FileSystem} {path : String} {content : List UInt8}
    (h : files.write path content = .ok written) :
    ∃ way name, parts path = way ++ [name] ∧ isStay name = false ∧ name ≠ ".." := by
  unfold write at h
  simp only at h
  split at h
  · cases hway : files.locate ((parts path).reverse.dropWhile (· = "")).reverse <;>
      rw [hway] at h <;> cases h
  next hname =>
  obtain hparts | ⟨way, name, hparts⟩ := List.eq_nil_or_concat (parts path)
  · exact absurd (.inl (by rw [hparts]; rfl)) hname
  rw [List.concat_eq_append] at hparts
  have hne : name ≠ "" := by
    -- a slash at the end would ask for a directory, whatever name is in front of it
    rintro rfl
    cases hplace : files.newPlace ((parts path).reverse.dropWhile (· = "")).reverse.dropLast
      (((parts path).reverse.dropWhile (· = "")).reverse.getLast?.getD ".") with
    | error fault =>
      rw [hplace] at h
      cases h
    | ok place =>
      rw [hplace] at h
      rw [hparts, List.getLast?_concat] at h
      cases h
  rw [hparts, dropWhile_concat way hne, List.getLast?_concat, Option.getD_some, not_or] at hname
  exact ⟨way, name, hparts, by simp [isStay, hne, hname.1], hname.2⟩

/-- Writing succeeds where there is a place for the file, and puts the file there. -/
lemma write_eq_ok_iff {files written : FileSystem} {path : String} {content : List UInt8} :
    files.write path content = .ok written ↔
      ∃ directory name, WritesTo files path directory name ∧
        written = files.put (directory ++ [name]) (.file content) := by
  constructor
  · intro h
    obtain ⟨way, name, hparts, hname, hup⟩ := ends_of_write h
    rw [write_concat hparts hname hup] at h
    cases hnew : files.newPlace way name with
    | error fault =>
      rw [hnew] at h
      cases h
    | ok place =>
      rw [hnew] at h
      obtain ⟨directory, hway, hzero, hdirectory, hsize, rfl⟩ := newPlace_eq_ok_iff.1 hnew
      by_cases hfree : files.node? (directory ++ [name]) = some .directory
      · simp only [bind, Except.bind, if_pos hfree] at h
        cases h
      · simp only [bind, Except.bind, if_neg hfree] at h
        cases h
        exact ⟨directory, name, ⟨⟨way, hparts, hway⟩, ⟨hname, hup, hsize⟩, hzero, hdirectory,
          hfree⟩, rfl⟩
  · rintro ⟨directory, name, ⟨⟨way, hparts, hway⟩, hname, hzero, hdirectory, hfree⟩, rfl⟩
    have hnew := newPlace_eq_ok_iff.2 ⟨directory, hway, hzero, hdirectory, hname.short, rfl⟩
    rw [write_concat hparts hname.moves hname.down, hnew]
    exact if_neg hfree

/-- Whether a file can be written does not depend on its content. -/
lemma write_content {files written : FileSystem} {path : String} {content : List UInt8}
    (h : files.write path content = .ok written) (other : List UInt8) :
    ∃ written', files.write path other = .ok written' := by
  obtain ⟨directory, name, hplace, -⟩ := write_eq_ok_iff.1 h
  exact ⟨_, write_eq_ok_iff.2 ⟨directory, name, hplace, rfl⟩⟩

/-- What was written to a path is there and is read from it. -/
theorem read_of_write {files written : FileSystem} {path : String} {content : List UInt8}
    (h : files.write path content = .ok written) :
    written.isThere path ∧ written.read path = .ok content := by
  obtain ⟨directory, name, hto, rfl⟩ := write_eq_ok_iff.1 h
  obtain ⟨way, hparts, hway⟩ := hto.parts_eq
  have hnew : directory ++ [name] ≠ [] := List.append_ne_nil_of_right_ne_nil _ (by simp)
  have hnode := node?_put files (directory ++ [name]) (directory ++ [name]) (.file content) hnew
  have hdirectory := node?_put files (directory ++ [name]) directory (.file content) hnew
  rw [if_pos rfl] at hnode
  rw [if_neg (by simp), hto.isDirectory] at hdirectory
  have hlocate : (files.put (directory ++ [name]) (.file content)).locate (parts path) =
      .ok (directory ++ [name]) := by
    rw [locate_eq_ok_iff] at hway ⊢
    rw [hparts]
    refine ⟨fun part hpart => ?_, ?_⟩
    · obtain hpart | hpart := List.mem_append.1 hpart
      · exact hway.1 part hpart
      · exact List.mem_singleton.1 hpart ▸ hto.zeroless
    · have hstep := step_of_leads hdirectory (.name hto.isName (by rw [hnode]; rfl))
      rw [List.foldlM_append, foldlM_step_put hnew hto.free hway.2]
      simp only [bind, Except.bind, List.foldlM_cons, hstep]
      rfl
  constructor
  · rw [isThere, hlocate]
  · rw [read, hlocate]
    simp only [bind, Except.bind, hnode]
    rfl

/-! ## Making directories -/

/-- Names that may stand in a path. -/
def AreNames (names : List String) : Prop := ∀ name ∈ names, IsName name ∧ '\x00' ∉ name.toList

/-- No file stands on the way through some names. -/
def Open (files : FileSystem) (names : List String) : Prop :=
  ∀ way, way <+: names → ∀ content, files.node? way ≠ some (.file content)

/-- All names on the way are those of directories. -/
def AllThere (files : FileSystem) (names : List String) : Prop :=
  ∀ way, way <+: names → files.node? way = some .directory

section Making

variable {files : FileSystem} {names : List String} {name : String}

lemma areNames_concat :
    AreNames (names ++ [name]) ↔ AreNames names ∧ IsName name ∧ '\x00' ∉ name.toList := by
  rw [AreNames, List.forall_mem_append, List.forall_mem_singleton]
  rfl

lemma Open.of_concat (h : files.Open (names ++ [name])) : files.Open names :=
  fun way hway => h way (hway.trans (List.prefix_append names [name]))

lemma allThere_concat : files.AllThere (names ++ [name]) ↔
    files.AllThere names ∧ files.node? (names ++ [name]) = some .directory := by
  constructor
  · exact fun h => ⟨fun way hway => h way (hway.trans (List.prefix_append names [name])),
      h _ (List.prefix_refl _)⟩
  · rintro ⟨hnames, hname⟩ way hway
    obtain rfl | hway := List.prefix_concat_iff.1 hway
    · exact hname
    · exact hnames way hway

lemma step_missing {place : Place} (hplace : files.node? place = some .directory)
    (hname : IsName name) (hmissing : files.node? (place ++ [name]) = none) :
    files.step place name = .error .notFound := by
  rw [step, hplace]
  simp only [hname.moves, Bool.false_eq_true, if_false, hname.down, Nat.not_lt.2 hname.short,
    hmissing]

/-- An open way leads to its end or ends too early. -/
lemma locate_names (hnames : AreNames names) (hopen : files.Open names) :
    (files.AllThere names ∧ files.locate names = .ok names) ∨
      (¬ files.AllThere names ∧ files.locate names = .error .notFound) := by
  have hlocate : ∀ {names}, AreNames names → files.locate names = names.foldlM files.step [] :=
    fun h => if_neg (by simpa using fun name hname => (h name hname).2)
  induction names using List.reverseRecOn with
  | nil =>
    refine .inl ⟨fun way hway => ?_, rfl⟩
    rw [List.prefix_nil.1 hway]
    rfl
  | append_singleton names name ih =>
    obtain ⟨hbefore, hname, -⟩ := areNames_concat.1 hnames
    rw [hlocate hnames, List.foldlM_append, ← hlocate hbefore]
    rw [allThere_concat]
    obtain ⟨hthere, hway⟩ | ⟨hmissing, hway⟩ := ih hbefore hopen.of_concat
    · have hplace := hthere names (List.prefix_refl names)
      have hlast : (Except.ok names >>= fun place => [name].foldlM files.step place) =
          (files.step names name >>= fun place => .ok place) := rfl
      rw [hway, hlast]
      cases hnode : files.node? (names ++ [name]) with
      | none =>
        refine .inr ⟨fun h => absurd h.2 (by simp), ?_⟩
        rw [step_missing hplace hname hnode]
        rfl
      | some node =>
        cases node with
        | file content => exact absurd hnode (hopen _ (List.prefix_refl _) content)
        | directory =>
          refine .inl ⟨⟨hthere, rfl⟩, ?_⟩
          rw [step_of_leads hplace (.name hname (by rw [hnode]; rfl))]
          rfl
    · refine .inr ⟨fun h => hmissing h.1, ?_⟩
      rw [hway]
      rfl

/-- Below a directory that is there, a directory can be made or is there. -/
lemma makeDirectory_name (hnames : AreNames (names ++ [name]))
    (hopen : files.Open (names ++ [name])) (hthere : files.AllThere names) :
    (files.makeDirectory names name = .ok (files.put (names ++ [name]) .directory) ∨
      (files.makeDirectory names name = .error .alreadyThere ∧
        files.isDirectory (names ++ [name]) ∧
        files.node? (names ++ [name]) = some .directory)) := by
  obtain ⟨hbefore, hname, hzero⟩ := areNames_concat.1 hnames
  have hlocate := (locate_names hbefore hopen.of_concat).resolve_right fun h => h.1 hthere
  have hnew := newPlace_eq_ok_iff.2 ⟨names, hlocate.2, hzero,
    hthere names (List.prefix_refl names), hname.short, rfl⟩
  rw [makeDirectory, if_neg hname.down, hnew]
  cases hnode : files.node? (names ++ [name]) with
  | none =>
    refine .inl ?_
    simp only [bind, Except.bind, hnode]
    rfl
  | some node =>
    cases node with
    | file content => exact absurd hnode (hopen _ (List.prefix_refl _) content)
    | directory =>
      have hthere' := allThere_concat.2 ⟨hthere, hnode⟩
      have hlocate' := (locate_names hnames hopen).resolve_right fun h => h.1 hthere'
      refine .inr ⟨?_, ?_, rfl⟩
      · simp only [bind, Except.bind, hnode]
        rfl
      · simp only [isDirectory, hlocate'.2, hnode, decide_true]

/-- What making all directories of a way does last: it makes one, unless it is there. -/
def makeLast (files : FileSystem) (names : List String) (name : String) :
    Except FileFault Unit × FileSystem :=
  match files.makeDirectory names name with
  | .ok made => (.ok (), made)
  | .error fault =>
    if files.isDirectory (names ++ [name]) then (.ok (), files) else (.error fault, files)

lemma makeAll_concat (files : FileSystem) (names : List String) (name : String) :
    files.makeAll (names ++ [name]).reverse =
      match files.makeDirectory names name with
      | .error .notFound =>
        match files.makeAll names.reverse with
        | (.ok (), files) => files.makeLast names name
        | failed => failed
      | _ => files.makeLast names name := by
  rw [List.reverse_concat, makeAll]
  simp only [List.reverse_reverse]
  rfl

lemma makeLast_name (hnames : AreNames (names ++ [name])) (hopen : files.Open (names ++ [name]))
    (hthere : files.AllThere names) :
    ∃ made, files.makeLast names name = (.ok (), made) ∧ made.AllThere (names ++ [name]) ∧
      ∀ place, place ≠ names ++ [name] → made.node? place = files.node? place := by
  rw [makeLast]
  obtain h | ⟨h, hdirectory, hnode⟩ := makeDirectory_name hnames hopen hthere
  · have hput := fun place => node?_put files (names ++ [name]) place .directory (by simp)
    rw [h]
    refine ⟨_, rfl, allThere_concat.2 ⟨fun way hway => ?_, ?_⟩, fun place hne => ?_⟩
    · rw [hput]
      split
      · rfl
      · exact hthere way hway
    · rw [hput, if_pos rfl]
    · rw [hput, if_neg hne]
  · rw [h]
    simp only [hdirectory, if_true]
    exact ⟨files, rfl, allThere_concat.2 ⟨hthere, hnode⟩, fun _ _ => rfl⟩

/-- All directories on an open way are made, and nothing else changes. -/
lemma makeAll_names (hnames : AreNames names) (hopen : files.Open names) :
    ∃ made, files.makeAll names.reverse = (.ok (), made) ∧ made.AllThere names ∧
      ∀ place, ¬ place <+: names → made.node? place = files.node? place := by
  induction names using List.reverseRecOn with
  | nil =>
    refine ⟨files, rfl, fun way hway => ?_, fun _ _ => rfl⟩
    rw [List.prefix_nil.1 hway]
    rfl
  | append_singleton names name ih =>
    obtain ⟨hbefore, hname, -⟩ := areNames_concat.1 hnames
    have hself : ¬ names ++ [name] <+: names := fun h => by simpa using h.length_le
    rw [makeAll_concat]
    obtain ⟨hthere, -⟩ | ⟨-, hlocate⟩ := locate_names hbefore hopen.of_concat
    · obtain ⟨made, hmade, hall, hkept⟩ := makeLast_name hnames hopen hthere
      refine ⟨made, ?_, hall, fun place hplace => hkept place ?_⟩
      · obtain h | ⟨h, -⟩ := makeDirectory_name hnames hopen hthere <;> rw [h] <;> exact hmade
      · rintro rfl
        exact hplace (List.prefix_refl _)
    · -- a directory above is missing, so those above are made first
      obtain ⟨before, hbefore', hthere, hkept⟩ := ih hbefore hopen.of_concat
      have hopen' : before.Open (names ++ [name]) := by
        intro way hway content
        obtain rfl | hway := List.prefix_concat_iff.1 hway
        · rw [hkept _ hself]
          exact hopen _ (List.prefix_refl _) content
        · rw [hthere way hway]
          simp
      obtain ⟨made, hmade, hall, hkept'⟩ := makeLast_name hnames hopen' hthere
      have hmissing : files.makeDirectory names name = .error .notFound := by
        rw [makeDirectory, if_neg hname.down, newPlace, hlocate]
        rfl
      refine ⟨made, ?_, hall, fun place hplace => ?_⟩
      · rw [hmissing, hbefore']
        exact hmade
      · rw [hkept' place, hkept place fun h => hplace (h.trans (List.prefix_append names [name]))]
        rintro rfl
        exact hplace (List.prefix_refl _)

end Making

/-! ## Writable paths -/

section Ways

variable {files : FileSystem} {way : List String} {part : String} {place start : Place}

lemma foldlM_step_concat : (way ++ [part]).foldlM files.step start = .ok place ↔
    ∃ next, way.foldlM files.step start = .ok next ∧ files.step next part = .ok place := by
  rw [List.foldlM_append, bind_eq_ok_iff]
  simp only [List.foldlM_cons, List.foldlM_nil, bind_pure]

lemma filter_concat_stay (hstay : isStay part = true) :
    (way ++ [part]).filter (!isStay ·) = way.filter (!isStay ·) := by
  simp [hstay]

lemma filter_concat_name (hstay : isStay part = false) :
    (way ++ [part]).filter (!isStay ·) = way.filter (!isStay ·) ++ [part] := by
  simp [hstay]

/-- No part of a way has a zero character if none of its names has one. -/
lemma zeroless_of_areNames (h : AreNames (way.filter (!isStay ·))) :
    ∀ part ∈ way, '\x00' ∉ part.toList := by
  intro part hpart
  cases hstay : isStay part with
  | false => exact (h part (List.mem_filter.2 ⟨hpart, by simp [hstay]⟩)).2
  | true =>
    simp only [isStay, Bool.or_eq_true, decide_eq_true_eq] at hstay
    obtain rfl | rfl := hstay <;> decide

/-- Parts that stay where they are can be left out of a way whose directories are there. -/
lemma locate_of_allThere (hnames : AreNames (way.filter (!isStay ·)))
    (hthere : files.AllThere (way.filter (!isStay ·))) :
    files.locate way = .ok (way.filter (!isStay ·)) := by
  refine locate_eq_ok_iff.2 ⟨zeroless_of_areNames hnames, ?_⟩
  induction way using List.reverseRecOn with
  | nil => rfl
  | append_singleton way part ih =>
    cases hstay : isStay part with
    | false =>
      rw [filter_concat_name hstay] at hnames hthere ⊢
      obtain ⟨hbefore, hpart, -⟩ := areNames_concat.1 hnames
      obtain ⟨hthere, hnode⟩ := allThere_concat.1 hthere
      have hplace := hthere _ (List.prefix_refl _)
      exact foldlM_step_concat.2
        ⟨_, ih hbefore hthere, step_of_leads hplace (.name hpart (by rw [hnode]; rfl))⟩
    | true =>
      rw [filter_concat_stay hstay] at hnames hthere ⊢
      have hplace := hthere _ (List.prefix_refl _)
      exact foldlM_step_concat.2 ⟨_, ih hnames hthere, step_of_leads hplace (.stay hstay)⟩

end Ways

/-- A path on which nothing is in the way: it ends with a name, its other parts are names or stay
where they are, and there is no file above its end and no directory at it. -/
structure Clear (files : FileSystem) (path : String) : Prop where
  ends : ∃ way name, parts path = way ++ [name] ∧ isStay name = false
  names : AreNames ((parts path).filter (!isStay ·))
  opened : files.Open (above path)
  free : files.node? ((parts path).filter (!isStay ·)) ≠ some .directory

/-- Nothing prevents writing to a clear path. -/
theorem Clear.writable {files : FileSystem} {path : String} (h : files.Clear path) :
    files.Writable path := by
  obtain ⟨way, name, hparts, hstay⟩ := h.ends
  have hfilter : (parts path).filter (!isStay ·) = way.filter (!isStay ·) ++ [name] := by
    rw [hparts, filter_concat_name hstay]
  have habove : above path = way.filter (!isStay ·) := by
    rw [above, hfilter, List.dropLast_concat]
  obtain ⟨hbefore, hname, hzero⟩ := areNames_concat.1 (hfilter ▸ h.names)
  obtain ⟨made, hmade, hthere, hkept⟩ := makeAll_names hbefore (habove ▸ h.opened)
  have hself : (above path).filter (!isStay ·) = way.filter (!isStay ·) := by
    rw [habove, List.filter_filter]
    simp
  have hto : made.WritesTo path (way.filter (!isStay ·)) name :=
    { parts_eq := ⟨way, hparts, locate_of_allThere hbefore hthere⟩
      isName := hname
      zeroless := hzero
      isDirectory := hthere _ (List.prefix_refl _)
      free := by
        rw [hkept _ fun h => by simpa using h.length_le, ← hfilter]
        exact h.free }
  refine ⟨made, _, [], ?_, write_eq_ok_iff.2 ⟨_, _, hto, rfl⟩⟩
  rw [makeDirectories, hself, hmade]

end CheckIn.FileSystem
