/-
# Documents are read line by line

A `Row` is a line that is read as one entry.  The lines of a written document are rows, and so are
all lines of the grammar that give a value to a name.  Rows of which no name is under another make
a document, and what is seen of it under the names one cares about are the entries of the rows with
these names: `document?_rows`.  A written document is seen as a whole: `document?_lines`.
-/
import CheckIn.Proofs.Toml.Values

namespace CheckIn.Toml

/-! ## Rows -/

/-- A line that begins with a name gives it a value. -/
lemma statement?_of_beginsPart {c : Char} (hc : beginsPart c) (w : List Char) :
    statement? (c :: w) = ( entry? (value? nestingRoom) (c :: w)).bind fun read =>
      (endLine? read.2).bind fun rest => some (.entry read.1, rest) := by
  have hbracket : c ≠ '[' := ne_of_beginsPart hc (by decide)
  rw [statement?.eq_3 _ (fun _ h => hbracket (List.cons.inj h).1)
    fun _ h => hbracket (List.cons.inj h).1]
  rfl

/-- A line that is read as an entry. -/
structure Row where
  chars : List Char
  entry : Entry
  /-- After the blanks the name begins, and the whole line is read, with its end. -/
  reads : ∀ rest, ∃ c v, skipBlanks (chars ++ rest) = c :: v ∧ beginsPart c ∧
    statement? (c :: v) = some (.entry entry, rest)

namespace Row

/-- A row begins with a blank or with its name. -/
lemma opens (row : Row) (rest : List Char) :
    ∃ c v, row.chars ++ rest = c :: v ∧ (isBlank c ∨ beginsPart c) := by
  obtain ⟨c, v, hskip, hc, -⟩ := row.reads rest
  cases hchars : row.chars ++ rest with
  | nil =>
    rw [hchars] at hskip
    cases hskip
  | cons d w =>
    refine ⟨d, w, rfl, ?_⟩
    by_cases hd : isBlank d
    · exact .inl hd
    · rw [hchars, skipBlanks_cons (Bool.eq_false_iff.2 hd)] at hskip
      rw [(List.cons.inj hskip).1]
      exact .inr hc

lemma length_le (rows : List Row) : rows.length ≤ (rows.flatMap chars).length := by
  induction rows with
  | nil => exact Nat.le_refl 0
  | cons row rows ih =>
    obtain ⟨c, v, hchars, -⟩ := row.opens []
    rw [List.append_nil] at hchars
    rw [List.flatMap_cons, List.length_append, List.length_cons, hchars, List.length_cons]
    omega

/-- Rows are read as their entries. -/
lemma statements?_rows (rows : List Row) {fuel : Nat} (h : rows.length < fuel) :
    statements? fuel (rows.flatMap chars) = some (rows.map fun row => .entry row.entry) := by
  -- a row takes one unit of fuel, and none is skipped as empty since its name comes first
  induction rows generalizing fuel with
  | nil =>
    obtain ⟨fuel, rfl⟩ := Nat.exists_eq_succ_of_ne_zero (Nat.ne_zero_of_lt h)
    rfl
  | cons row rows ih =>
    obtain ⟨fuel, rfl⟩ := Nat.exists_eq_succ_of_ne_zero (Nat.ne_zero_of_lt h)
    obtain ⟨c, v, hskip, hc, hread⟩ := row.reads (rows.flatMap chars)
    have hmark : (c = '#' || c = '\r' || c = '\n') = false := by
      simp only [Bool.or_eq_false_iff, decide_eq_false_iff_not]
      exact ⟨⟨ne_of_beginsPart hc (by decide), ne_of_beginsPart hc (by decide)⟩,
        ne_of_beginsPart hc (by decide)⟩
    rw [List.flatMap_cons, statements?, hskip]
    simp only [hmark, Bool.false_eq_true, if_false, hread]
    show (statements? fuel (rows.flatMap chars) >>= fun more =>
      some (.entry row.entry :: more)) = _
    rw [ih (Nat.lt_of_succ_lt_succ h)]
    rfl

/-- Under no header entries are added to the document itself. -/
lemma foldlM_add (rows : List Row) (entries : Entries) :
    (rows.map fun row => Statement.entry row.entry).foldlM Document.add ⟨entries, []⟩ =
      ((rows.map entry).foldlM (fun entries (e : Entry) => e.addTo .header entries) entries).map
        fun entries => ⟨entries, []⟩ := by
  induction rows generalizing entries with
  | nil => rfl
  | cons row rows ih =>
    rw [List.map_cons, List.foldlM_cons, List.map_cons, List.foldlM_cons]
    have hadd : Document.add ⟨entries, []⟩ (.entry row.entry) =
        (row.entry.addTo .header entries).map fun entries => ⟨entries, []⟩ := by
      rw [Document.add, descend, Option.map_eq_bind]
      rfl
    rw [hadd]
    cases row.entry.addTo .header entries with
    | none => rfl
    | some added => exact ih added

end Row

/-- Rows of which no name is under another make a document.  Where the names that are kept stand
alone, what is seen of the document under them are the entries of their rows. -/
theorem document?_rows (rows : List Row)
    (hapart : (rows.map fun row => row.entry.names).Pairwise Apart) :
    ∃ entries, document? (String.ofList (rows.flatMap Row.chars)) = some entries ∧
      ∀ keep : String → Bool, (∀ row ∈ rows, keep row.entry.first → row.entry.path = []) →
        entries.filter (keep ·.1) = rows.flatMap fun row => row.entry.kept keep := by
  have hmark : skipMark (rows.flatMap Row.chars) = rows.flatMap Row.chars := by
    refine skipMark.eq_2 _ fun rest h => ?_
    cases rows with
    | nil => cases h
    | cons row rows =>
      obtain ⟨c, v, hchars, hc⟩ := row.opens (rows.flatMap Row.chars)
      rw [List.flatMap_cons, hchars] at h
      obtain ⟨rfl, -⟩ := List.cons.inj h
      exact absurd hc (by decide)
  have hheader : Origin.header ≠ .dotted := by decide
  have hnames : ((rows.map Row.entry).map Entry.names).Pairwise Apart := by
    rwa [List.map_map]
  obtain ⟨entries, hentries, hfilter⟩ := Entry.foldlM_addTo hheader hnames
    fun e _ => free_nil (List.append_ne_nil_of_right_ne_nil e.path (List.cons_ne_nil e.name []))
  refine ⟨entries, ?_, fun keep hplain => ?_⟩
  · rw [document?, String.toList_ofList, hmark]
    simp only [Row.statements?_rows rows (Nat.lt_succ_of_le (Row.length_le rows)),
      Option.bind_eq_bind, Option.bind_some, Document.ofStatements]
    show ((rows.map fun row => Statement.entry row.entry).foldlM Document.add ⟨[], []⟩ >>=
      fun document => some document.entries) = _
    rw [Row.foldlM_add, hentries]
    rfl
  · have hkept := hfilter keep fun e he => by
      obtain ⟨row, hrow, rfl⟩ := List.mem_map.1 he
      exact hplain row hrow
    rwa [List.filter_nil, List.nil_append, List.flatMap_map] at hkept

/-! ## Lines of the grammar -/

section Expressions

/-- The end of a line is passed, with its comment. -/
lemma Expression.endLine?_append {room : Nat} (e : Expression room) (rest : List Char) :
    endLine? (e.assignment.after.chars ++ (e.endingChars ++ rest)) = some rest := by
  have hbreak : ∀ b : Break, newline? (b.chars ++ rest) = some rest := by
    rintro (_ | _) <;> rfl
  have hskip : skipComment (e.assignment.after.chars ++ (e.endingChars ++ rest)) =
      e.ending.chars ++ rest := by
    rw [skipComment, e.assignment.after.skipBlanks, endingChars]
    cases e.comment with
    | none => cases e.ending <;> rfl
    | some comment =>
      have hend : (e.ending.chars ++ rest).dropWhile isPlain = e.ending.chars ++ rest := by
        cases e.ending <;> rfl
      have hcomment : skipBlanks ((Option.map Comment.chars (some comment)).getD [] ++
          e.ending.chars ++ rest) = '#' :: (comment.text ++ (e.ending.chars ++ rest)) := by
        rw [Option.map_some, Option.getD_some, Comment.chars, List.append_assoc, List.cons_append]
        exact skipBlanks_cons rfl _
      rw [hcomment]
      show (comment.text ++ (e.ending.chars ++ rest)).dropWhile isPlain = _
      rw [List.dropWhile_append_of_pos comment.plain, hend]
  rw [endLine?, hskip]
  cases e.ending with
  | feed => rfl
  | returnFeed => rfl

/-- A line of the grammar is a row, if there is room for its value. -/
lemma Expression.exists_row (e : Expression nestingRoom) :
    ∃ row : Row, row.chars = e.chars ∧ row.entry.names = e.names := by
  obtain ⟨entry, hnames, hentry⟩ := e.assignment.exists_entry e.isValue.takes
  refine ⟨⟨e.chars, entry, fun rest => ?_⟩, rfl, hnames⟩
  have hends : Ends (e.endingChars ++ rest) := by
    rw [endingChars]
    cases e.comment with
    | none => exact e.ending.ends rest
    | some comment =>
      rw [Option.map_some, Option.getD_some, List.append_assoc]
      exact comment.ends _
  have hchars : e.chars ++ rest = e.assignment.chars ++ (e.endingChars ++ rest) :=
    List.append_assoc _ _ _
  obtain ⟨c, v, hskip, hc⟩ := e.assignment.name.skipBlanks_append ('=' ::
    (e.assignment.before.chars ++ (e.assignment.value ++ e.assignment.after.chars)) ++
      (e.endingChars ++ rest))
  have hhead : skipBlanks (e.chars ++ rest) = c :: v := by
    rw [hchars, ← hskip, Assignment.chars]
    simp only [List.append_assoc, List.cons_append]
  refine ⟨c, v, hhead, hc, ?_⟩
  have hread : entry? (value? nestingRoom) (c :: v) =
      some (entry, e.assignment.after.chars ++ (e.endingChars ++ rest)) := by
    rw [← hhead, entry?_skipBlanks, hchars]
    exact hentry _ hends
  rw [statement?_of_beginsPart hc, hread, Option.bind_some, e.endLine?_append]
  rfl

end Expressions

/-! ## Written lines -/

/-- A bare name in front of an equals sign is read as it is. -/
lemma IsBareName.name? {name : String} (h : IsBareName name) (rest : List Char) :
    Toml.name? (name.toList ++ ' ' :: '=' :: rest) = some (([], name), '=' :: rest) := by
  have hend : ∀ c w, ' ' :: '=' :: rest = c :: w → isBare c = false := by
    rintro c w hc
    rw [← (List.cons.inj hc).1]
    rfl
  have hparts : nameParts? tooManyParts (name.toList ++ ' ' :: '=' :: rest) =
      some ([name], '=' :: rest) := by
    rw [tooManyParts, nameParts?, h.skipBlanks, h.namePart? hend]
    rfl
  rw [Toml.name?, hparts]
  rfl

/-- No value begins with a blank. -/
lemma Reads.skipBlanks {written : List Char} {value : Value} (h : Reads written value)
    (rest : List Char) :
    Toml.skipBlanks (' ' :: (written ++ '\n' :: rest)) = written ++ '\n' :: rest := by
  have hread := h 0 rest
  cases hw : written ++ '\n' :: rest with
  | nil => simp at hw
  | cons c w =>
    rw [hw] at hread
    have hblank : isBlank c = false := by
      by_contra hc
      simp only [isBlank, Bool.not_eq_false, Bool.or_eq_true, decide_eq_true_eq] at hc
      obtain rfl | rfl := hc <;> simp [value?] at hread
    rw [Toml.skipBlanks, List.dropWhile_cons_of_pos (by decide),
      List.dropWhile_cons_of_neg (by simp [hblank])]

/-- A line that gives a value to a bare name, such that the value is read back. -/
structure Line where
  name : String
  written : List Char
  value : Value
  bare : IsBareName name
  reads : Reads written value

namespace Line

/-- The entry that a line makes. -/
def entry (line : Line) : String × Value := (line.name, line.value)

/-- The characters of a line, the line break included. -/
def chars (line : Line) : List Char := writeEntry line.name line.written

lemma chars_append (line : Line) (rest : List Char) :
    line.chars ++ rest =
      line.name.toList ++ ' ' :: '=' :: ' ' :: (line.written ++ '\n' :: rest) := by
  simp [chars, writeEntry]

/-- A written line is a row. -/
def row (line : Line) : Row where
  chars := line.chars
  entry := ⟨[], line.name, line.value⟩
  reads rest := by
    obtain ⟨c, w, hn, hc⟩ := (IsPart.bare line.bare).head
    have hcons : line.chars ++ rest =
        c :: (w ++ ' ' :: '=' :: ' ' :: (line.written ++ '\n' :: rest)) := by
      rw [chars_append, hn]
      rfl
    have hskip : skipBlanks (line.chars ++ rest) = line.chars ++ rest := by
      rw [chars_append, line.bare.skipBlanks]
    have hentry : entry? (value? nestingRoom) (line.chars ++ rest) =
        some (⟨[], line.name, line.value⟩, '\n' :: rest) := by
      rw [chars_append, entry?, line.bare.name?]
      simp only [Option.bind_eq_bind, Option.bind_some, line.reads.skipBlanks, line.reads _ _]
      rfl
    refine ⟨c, _, hskip.trans hcons, hc, ?_⟩
    rw [statement?_of_beginsPart hc, ← hcons, hentry]
    rfl

end Line

/-- Lines with different names are the document that has their entries. -/
theorem document?_lines (lines : List Line) (h : (lines.map Line.name).Nodup) :
    document? (String.ofList (lines.flatMap Line.chars)) = some (lines.map Line.entry) := by
  have hapart : ((lines.map Line.row).map fun row => row.entry.names).Pairwise Apart := by
    rw [List.map_map, List.pairwise_map]
    exact (List.pairwise_map.1 h).imp apart_singleton.2
  obtain ⟨entries, hentries, hfilter⟩ := document?_rows (lines.map Line.row) hapart
  have hplain : ∀ row ∈ lines.map Line.row, true → row.entry.path = [] := by
    intro row hrow _
    obtain ⟨line, -, rfl⟩ := List.mem_map.1 hrow
    rfl
  have hall := hfilter (fun _ => true) hplain
  rw [List.filter_true, List.flatMap_map] at hall
  rw [List.flatMap_map] at hentries
  rw [List.map_eq_flatMap]
  exact hentries.trans (congrArg some hall)

/-! ## Values that are not read -/

/-- A text that gives a name a value that is not read is no document. -/
lemma document?_eq_none {name : String} (hname : IsBareName name) {w : List Char}
    (hw : value? nestingRoom (skipBlanks w) = none) :
    document? (String.ofList (name.toList ++ ' ' :: '=' :: w)) = none := by
  have hentry : entry? (value? nestingRoom) (name.toList ++ ' ' :: '=' :: w) = none := by
    rw [ entry?, hname.name?]
    simp only [Option.bind_eq_bind, Option.bind_some, hw]
    rfl
  obtain ⟨c, v, hn, hc⟩ := (IsPart.bare hname).head
  have hskip := hname.skipBlanks (' ' :: '=' :: w)
  have hne : ∀ {d : Char}, beginsPart d = false → c ≠ d := ne_of_beginsPart hc
  rw [hn, List.cons_append] at hskip hentry ⊢
  have hmark : skipMark (c :: (v ++ ' ' :: '=' :: w)) = c :: (v ++ ' ' :: '=' :: w) :=
    skipMark.eq_2 _ fun _ h => hne (by decide) (List.cons.inj h).1
  have hempty : (c = '#' || c = '\r' || c = '\n') = false := by
    simp only [Bool.or_eq_false_iff, decide_eq_false_iff_not]
    exact ⟨⟨hne (by decide), hne (by decide)⟩, hne (by decide)⟩
  rw [document?, String.toList_ofList, hmark]
  simp only [statements?, hskip, hempty, Bool.false_eq_true, if_false,
    statement?_of_beginsPart hc, hentry]
  rfl

end CheckIn.Toml
