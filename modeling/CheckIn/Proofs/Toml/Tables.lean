/-
# Dotted names and the tables they make

An entry is added to a table where its name leads.  `Free name entries` says that the name is still
free there: some first part of it is new, and the parts before that one lead through tables that
dotted names made.  A free name can be given a value, and names of which none begins with another
stay free, so that they can be given values one after the other.
-/
import CheckIn.Proofs.Toml.Grammar

namespace CheckIn.Toml

/-! ## Entries -/

namespace Entries

variable {entries : Entries} {name other : String} {value : Value}

lemma find?_append_self (h : entries.find? name = none) :
    Entries.find? (entries ++ [(name, value)]) name = some value := by
  rw [Entries.find?, Option.map_eq_none_iff] at h
  simp [Entries.find?, List.find?_append, h]

lemma find?_append_of_ne (h : other ≠ name) :
    Entries.find? (entries ++ [(name, value)]) other = entries.find? other := by
  simp [Entries.find?, List.find?_append, h.symm]

lemma find?_cons (entry : String × Value) (entries : Entries) (name : String) :
    Entries.find? (entry :: entries) name =
      if entry.1 = name then some entry.2 else entries.find? name := by
  by_cases h : entry.1 = name <;> simp [Entries.find?, h]

lemma replace_cons (entry : String × Value) (entries : Entries) (name : String) (value : Value) :
    Entries.replace (entry :: entries) name value =
      (if entry.1 = name then (name, value) else entry) :: entries.replace name value :=
  rfl

lemma find?_replace_self (h : entries.find? name ≠ none) :
    (entries.replace name value).find? name = some value := by
  induction entries with
  | nil => exact absurd rfl h
  | cons entry entries ih =>
    rw [find?_cons] at h
    rw [replace_cons, find?_cons]
    by_cases hname : entry.1 = name
    · rw [if_pos hname, if_pos rfl]
    · rw [if_neg hname] at h
      rw [if_neg hname, if_neg hname, ih h]

lemma find?_replace_of_ne (h : other ≠ name) :
    (entries.replace name value).find? other = entries.find? other := by
  induction entries with
  | nil => rfl
  | cons entry entries ih =>
    rw [replace_cons, find?_cons, find?_cons, ih]
    by_cases hname : entry.1 = name
    · rw [if_pos hname, if_neg h.symm, if_neg (hname ▸ h.symm)]
    · rw [if_neg hname]

/-- Another value under a name is not seen where the name is left out. -/
lemma filter_replace {keep : String → Bool} (h : keep name = false) :
    (entries.replace name value).filter (keep ·.1) = entries.filter (keep ·.1) := by
  induction entries with
  | nil => rfl
  | cons entry entries ih =>
    rw [replace_cons, List.filter_cons, List.filter_cons, ih]
    by_cases hname : entry.1 = name
    · rw [if_pos hname, hname]
      simp only [h, Bool.false_eq_true, if_false]
    · rw [if_neg hname]

lemma filter_append_of_not {keep : String → Bool} (h : keep name = false) :
    (entries ++ [(name, value)]).filter (keep ·.1) = entries.filter (keep ·.1) := by
  rw [List.filter_append, List.filter_cons_of_neg (by simp [h]), List.filter_nil, List.append_nil]

end Entries

/-! ## Names that are free -/

/-- Whether a name can still be given a value in a table. -/
inductive Free : List String → Entries → Prop
  | new {name : String} {path : List String} {entries : Entries} :
      entries.find? name = none → Free (name :: path) entries
  | inside {name : String} {path : List String} {entries inner : Entries} :
      entries.find? name = some (.table .dotted inner) → Free path inner →
      Free (name :: path) entries

lemma free_nil {name : List String} (h : name ≠ []) : Free name [] := by
  cases name with
  | nil => exact absurd rfl h
  | cons first path => exact .new rfl

/-- What has the same values under a first part leaves the names free that begin with it. -/
lemma Free.congr {first : String} {path : List String} {entries entries' : Entries}
    (h : Free (first :: path) entries) (hfind : entries'.find? first = entries.find? first) :
    Free (first :: path) entries' := by
  cases h with
  | new hnone => exact .new (hfind.trans hnone)
  | inside hsome hinner => exact .inside (hfind.trans hsome) hinner

lemma apart_cons {first : String} {a b : List String} :
    Apart (first :: a) (first :: b) ↔ Apart a b := by
  simp [Apart]

lemma apart_singleton {a b : String} : Apart [a] [b] ↔ a ≠ b := by
  simp [Apart, eq_comm]

/-! ## Adding an entry -/

section Descend

variable {change : Origin → Entries → Option Entries} {name : String} {value : Value}

/-- A step into a table that dotted names made, or that is made on the way. -/
lemma descend_cons {first : String} {path : List String} {origin : Origin}
    {entries inner inner' : Entries}
    (hfind : entries.find? first = none ∧ inner = [] ∨
      entries.find? first = some (.table .dotted inner))
    (h : descend true change path .dotted inner = some inner') :
    ∃ entries', descend true change (first :: path) origin entries = some entries' ∧
      entries'.find? first = some (.table .dotted inner') ∧
      (∀ other ≠ first, entries'.find? other = entries.find? other) ∧
      ∀ keep : String → Bool, keep first = false →
        entries'.filter (keep ·.1) = entries.filter (keep ·.1) := by
  obtain ⟨hnone, rfl⟩ | hsome := hfind
  · refine ⟨entries ++ [(first, .table .dotted inner')], ?_, Entries.find?_append_self hnone,
      fun other hne => Entries.find?_append_of_ne hne,
      fun keep hkeep => Entries.filter_append_of_not hkeep⟩
    rw [descend, hnone]
    simp only [if_true, h]
    rfl
  · refine ⟨entries.replace first (.table .dotted inner'), ?_,
      Entries.find?_replace_self (by simp [hsome]),
      fun other hne => Entries.find?_replace_of_ne hne,
      fun keep hkeep => Entries.filter_replace hkeep⟩
    rw [descend, hsome]
    simp only [h]
    rfl

/-- Whether a change of a table gives a name a value there, if the name is new. -/
def Gives (change : Origin → Entries → Option Entries) (name : String) (value : Value)
    (origin : Origin) : Prop :=
  ∀ entries : Entries, entries.find? name = none →
    change origin entries = some (entries ++ [(name, value)])

/-- Adding a value under a free name below the names of a path: it succeeds, leaves free what is
apart from it, and is not seen where its first part is left out. -/
lemma descend_free {path : List String} {origin : Origin} {entries : Entries}
    (hhere : path = [] → Gives change name value origin)
    (hbelow : path ≠ [] → Gives change name value .dotted) (hfree : Free (path ++ [name]) entries) :
    ∃ entries', descend true change path origin entries = some entries' ∧
      (∀ other, Apart (path ++ [name]) other → Free other entries → Free other entries') ∧
      ∀ keep : String → Bool, keep (path.headD name) = false →
        entries'.filter (keep ·.1) = entries.filter (keep ·.1) := by
  induction path generalizing origin entries with
  | nil =>
    have hnone : entries.find? name = none := by
      cases hfree with
      | new h => exact h
      | inside _ h => cases h
    refine ⟨entries ++ [(name, value)], hhere rfl entries hnone, fun other hapart hother => ?_,
      fun keep hkeep => Entries.filter_append_of_not hkeep⟩
    · cases other with
      | nil => exact absurd List.nil_prefix hapart.2
      | cons first path =>
        refine hother.congr (Entries.find?_append_of_ne ?_)
        rintro rfl
        exact hapart.1 (by simp)
  | cons first path ih =>
    have hgives := hbelow (List.cons_ne_nil _ _)
    obtain ⟨inner, hfind, hinner⟩ : ∃ inner, (entries.find? first = none ∧ inner = [] ∨
        entries.find? first = some (.table .dotted inner)) ∧ Free (path ++ [name]) inner := by
      cases hfree with
      | new h => exact ⟨[], .inl ⟨h, rfl⟩, free_nil (by simp)⟩
      | inside h hinner => exact ⟨_, .inr h, hinner⟩
    obtain ⟨inner', hdescend, hkeeps, -⟩ := ih (fun _ => hgives) (fun _ => hgives) hinner
    obtain ⟨entries', hentries', hself, hothers, hfilter⟩ := descend_cons hfind hdescend
    refine ⟨entries', hentries', fun other hapart hother => ?_, hfilter⟩
    cases other with
    | nil => exact absurd List.nil_prefix hapart.2
    | cons second others =>
      by_cases hsecond : second = first
      · subst hsecond
        rw [List.cons_append, apart_cons] at hapart
        refine .inside hself (hkeeps others hapart ?_)
        obtain ⟨hnone, rfl⟩ | hsome := hfind
        · refine free_nil ?_
          rintro rfl
          exact hapart.2 List.nil_prefix
        · cases hother with
          | new h => exact absurd (hsome.symm.trans h) (by simp)
          | @inside _ _ _ inner₂ h hothers =>
            have hinner₂ : inner = inner₂ := by simpa using hsome.symm.trans h
            rwa [hinner₂]
      · exact hother.congr (hothers second hsecond)

end Descend

namespace Entry

/-- All parts of the name of an entry. -/
def names (entry : Entry) : List String := entry.path ++ [entry.name]

/-- The first part of the name of an entry. -/
def first (entry : Entry) : String := entry.path.headD entry.name

lemma head?_names (entry : Entry) : entry.names.head? = some entry.first := by
  rw [names, first]
  cases entry.path <;> rfl

/-- What an entry adds to a document, seen where only some names are kept. -/
def kept (keep : String → Bool) (entry : Entry) : List (String × Value) :=
  if keep entry.first then [(entry.name, entry.value)] else []

/-- What an entry does to the table to which its name leads. -/
def change (entry : Entry) (origin : Origin) (entries : Entries) : Option Entries :=
  if (origin = .dotted) ↔ entry.path = [] then none else entries.add entry.name entry.value

variable {origin : Origin} {entries : Entries}

lemma addTo_eq (entry : Entry) :
    entry.addTo origin entries = descend true entry.change entry.path origin entries :=
  rfl

/-- An entry is added under a free name. -/
lemma addTo_free (entry : Entry) (horigin : origin ≠ .dotted) (h : Free entry.names entries) :
    ∃ entries', entry.addTo origin entries = some entries' ∧
      (∀ other, Apart entry.names other → Free other entries → Free other entries') ∧
      ∀ keep : String → Bool, (keep entry.first → entry.path = []) →
        entries'.filter (keep ·.1) = entries.filter (keep ·.1) ++ entry.kept keep := by
  have hgives : ∀ {o : Origin}, ¬ (o = .dotted ↔ entry.path = []) →
      Gives entry.change entry.name entry.value o := by
    intro o ho entries hnone
    rw [change, if_neg ho, Entries.add, hnone]
  have hhere : entry.path = [] → Gives entry.change entry.name entry.value origin :=
    fun hpath => hgives fun hiff => horigin (hiff.2 hpath)
  have hbelow : entry.path ≠ [] → Gives entry.change entry.name entry.value .dotted :=
    fun hpath => hgives fun hiff => hpath (hiff.1 rfl)
  obtain ⟨entries', hentries', hkeeps, hfilter⟩ := descend_free hhere hbelow h
  refine ⟨entries', entry.addTo_eq.trans hentries', hkeeps, fun keep hplain => ?_⟩
  rw [kept]
  by_cases hkeep : keep entry.first
  · -- a name that is kept has just one part, and its entry comes last
    have hpath := hplain hkeep
    have hname : entry.first = entry.name := by rw [first, hpath, List.headD_nil]
    have hnone : entries.find? entry.name = none := by
      rw [names, hpath] at h
      cases h with
      | new h => exact h
      | inside _ h => cases h
    rw [hpath, descend, hhere hpath entries hnone] at hentries'
    rw [if_pos hkeep, ← Option.some.inj hentries', List.filter_append]
    rw [hname] at hkeep
    simp [hkeep]
  · rw [if_neg hkeep, List.append_nil]
    exact hfilter keep (Bool.eq_false_iff.2 hkeep)

/-- Entries of which none is under another are added one after the other. -/
lemma foldlM_addTo {content : List Entry} (horigin : origin ≠ .dotted)
    (hapart : (content.map names).Pairwise Apart) (hfree : ∀ e ∈ content, Free e.names entries) :
    ∃ entries', content.foldlM (fun entries e => e.addTo origin entries) entries = some entries' ∧
      ∀ keep : String → Bool, (∀ e ∈ content, keep e.first → e.path = []) →
        entries'.filter (keep ·.1) =
          entries.filter (keep ·.1) ++ content.flatMap (kept keep) := by
  induction content generalizing entries with
  | nil => exact ⟨entries, rfl, fun _ _ => by simp⟩
  | cons entry content ih =>
    rw [List.map_cons, List.pairwise_cons] at hapart
    obtain ⟨added, hadded, hkeeps, hfilter⟩ :=
      entry.addTo_free horigin (hfree entry List.mem_cons_self)
    obtain ⟨entries', hentries', hfilter'⟩ := ih hapart.2 fun e he =>
      hkeeps e.names (hapart.1 _ (List.mem_map_of_mem he)) (hfree e (List.mem_cons_of_mem _ he))
    refine ⟨entries', ?_, fun keep hplain => ?_⟩
    · rw [List.foldlM_cons, hadded]
      exact hentries'
    · rw [hfilter' keep fun e he => hplain e (List.mem_cons_of_mem _ he),
        hfilter keep (hplain entry List.mem_cons_self), List.flatMap_cons, List.append_assoc]

end Entry

/-- A table in braces is made of entries of which none is under another. -/
lemma exists_inlineTable {content : List Entry}
    (hapart : (content.map Entry.names).Pairwise Apart) :
    ∃ value, inlineTable content = some value := by
  have hinline : Origin.inline ≠ .dotted := by decide
  obtain ⟨entries, hentries, -⟩ := Entry.foldlM_addTo hinline hapart
    fun e _ => free_nil (List.append_ne_nil_of_right_ne_nil e.path (List.cons_ne_nil e.name []))
  refine ⟨.table .inline entries, ?_⟩
  rw [inlineTable, hentries]
  rfl

end CheckIn.Toml
