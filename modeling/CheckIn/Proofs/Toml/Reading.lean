/-
# Every value of the grammar is read

A reader `Takes` what is written for a value if it reads it the same before all that may follow a
value.  The readers of arrays and of tables in braces take what consists of parts that their
readers take, and by induction over the grammar `value?` takes every value in which not too many
arrays and tables are open at once.
-/
import CheckIn.Proofs.Toml.Numerals
import CheckIn.Proofs.Toml.Tables
import CheckIn.Proofs.Toml.Texts

namespace CheckIn.Toml

/-! ## How values begin -/

/-- The characters begin with one that may not follow a value, and is no blank. -/
def Opens (w : List Char) : Prop := ∃ c v, w = c :: v ∧ isBlank c = false ∧ isEnd c = false

lemma opens_of_isDigit {c : Char} (hc : c.isDigit) (w : List Char) : Opens (c :: w) := by
  have hne : ∀ {d : Char}, d.isDigit = false → c ≠ d := by
    rintro d hd rfl
    rw [hc] at hd
    cases hd
  refine ⟨c, w, rfl, ?_, ?_⟩
  · rw [Bool.eq_false_iff, ne_eq, isBlank_iff, not_or]
    exact ⟨hne (by decide), hne (by decide)⟩
  · simp only [isEnd, Bool.or_eq_false_iff, decide_eq_false_iff_not]
    exact ⟨⟨⟨⟨⟨hne (by decide), hne (by decide)⟩, hne (by decide)⟩, hne (by decide)⟩,
      hne (by decide)⟩, hne (by decide)⟩

lemma opens_signed (sign : Option Bool) {w : List Char} (h : Opens w) :
    Opens (signChars sign ++ w) := by
  match sign with
  | none => exact h
  | some false | some true => exact ⟨_, _, rfl, by decide, by decide⟩

lemma Moment.head (m : Moment) : ∃ c v, m.chars = c :: v ∧ c.isDigit := by
  cases m with
  | date day =>
    exact ⟨_, _, rfl, (digits_pair (n := day.year / 100) (by have := day.year_lt; omega)).1⟩
  | time clock => exact ⟨_, _, rfl, (digits_pair (by have := clock.hour_le; omega)).1⟩
  | both day =>
    exact ⟨_, _, rfl, (digits_pair (n := day.year / 100) (by have := day.year_lt; omega)).1⟩

/-- A string begins with a quote of one of the two kinds. -/
lemma IsText.head {w : List Char} (h : IsText w) :
    ∃ c v, w = c :: v ∧ (c = '"' ∨ c = '\'') := by
  cases h
  · exact ⟨_, _, rfl, .inl rfl⟩
  · exact ⟨_, _, rfl, .inr rfl⟩
  · exact ⟨_, _, rfl, .inl rfl⟩
  · exact ⟨_, _, rfl, .inr rfl⟩

/-- Every value begins with a character of its own. -/
lemma IsValue.opens {room : Nat} {w : List Char} (h : IsValue room w) : Opens w := by
  cases h with
  | text h =>
    obtain ⟨c, v, rfl, rfl | rfl⟩ := h.head <;> exact ⟨_, _, rfl, by decide, by decide⟩
  | numeral n => exact opens_signed _ (opens_of_isDigit n.whole.digit_first _)
  | infinite sign | noNumber sign =>
    exact opens_signed sign ⟨_, _, rfl, by decide, by decide⟩
  | moment m =>
    obtain ⟨c, v, hm, hc⟩ := m.head
    rw [hm]
    exact opens_of_isDigit hc v
  | yes | no | based | array | noEntries | entries => exact ⟨_, _, rfl, by decide, by decide⟩

lemma Opens.skipBlanks_append {w : List Char} (h : Opens w) (rest : List Char) :
    skipBlanks (w ++ rest) = w ++ rest := by
  obtain ⟨c, v, rfl, hblank, -⟩ := h
  exact skipBlanks_cons hblank _

/-! ## Between the items of arrays -/

section Gaps

variable {c : Char} {w rest : List Char}

/-- How a character is passed over that does not begin a line break of two. -/
lemma skipLines_step (comment : Bool) (hr : c ≠ '\r') (w : List Char) :
    skipLines comment (c :: w) =
      if c = '\n' then skipLines false w
      else if comment then if isPlain c then skipLines true w else c :: w
      else if isBlank c then skipLines false w
      else if c = '#' then skipLines true w
      else c :: w :=
  skipLines.eq_3 comment c w fun _ h => absurd h hr

lemma skipLines_cons (hblank : isBlank c = false) (hn : c ≠ '\n') (hr : c ≠ '\r')
    (hc : c ≠ '#') : skipLines false (c :: w) = c :: w := by
  rw [skipLines_step false hr, if_neg hn, if_neg Bool.false_ne_true, if_neg (by simp [hblank]),
    if_neg hc]

lemma Opens.skipLines_append (h : Opens w) (rest : List Char) :
    skipLines false (w ++ rest) = w ++ rest := by
  obtain ⟨c, v, rfl, hblank, hend⟩ := h
  have hne : ∀ {d : Char}, isEnd d → c ≠ d := by
    rintro d hd rfl
    rw [hend] at hd
    cases hd
  exact skipLines_cons hblank (hne rfl) (hne rfl) (hne rfl)

lemma skipLines_break (b : Break) (comment : Bool) (rest : List Char) :
    skipLines comment (b.chars ++ rest) = skipLines false rest := by
  cases b with
  | feed =>
    rw [Break.chars, List.singleton_append, skipLines_step comment (by decide), if_pos rfl]
  | returnFeed => rfl

/-- A comment is passed over up to its end. -/
lemma skipLines_comment {text : List Char} (h : ∀ c ∈ text, isPlain c) (b : Break)
    (rest : List Char) :
    skipLines true (text ++ (b.chars ++ rest)) = skipLines false rest := by
  induction text with
  | nil => exact skipLines_break b true rest
  | cons c text ih =>
    have hplain : isPlain c := h c List.mem_cons_self
    have hne : c ≠ '\n' ∧ c ≠ '\r' := by
      constructor <;>
      · rintro rfl
        exact absurd hplain (by decide)
    rw [List.cons_append, skipLines_step true hne.2, if_neg hne.1, if_pos rfl, if_pos hplain]
    exact ih fun d hd => h d (List.mem_cons_of_mem c hd)

/-- A gap is passed over. -/
lemma Gap.skipLines_append (gap : Gap) (rest : List Char) :
    skipLines false (gap.chars ++ rest) = skipLines false rest := by
  obtain ⟨chars, hgap⟩ := gap
  show skipLines false (chars ++ rest) = _
  induction hgap with
  | nil => rfl
  | @blank c w hb _ ih =>
    have hne : c ≠ '\n' ∧ c ≠ '\r' := by
      obtain rfl | rfl := isBlank_iff.1 hb <;> decide
    rw [List.cons_append, skipLines_step false hne.2, if_neg hne.1, if_neg Bool.false_ne_true,
      if_pos hb, ih]
  | line b _ ih => rw [List.append_assoc, skipLines_break, ih]
  | comment comment b _ ih =>
    rw [List.append_assoc, List.append_assoc, Comment.chars, List.cons_append,
      skipLines_step false (by decide), if_neg (by decide), if_neg Bool.false_ne_true,
      if_neg (by decide), if_pos rfl, skipLines_comment comment.plain, ih]

end Gaps

/-! ## Taking parts -/

/-- The reader makes the same of what is written wherever it stands, and leaves what follows. -/
def Takes (item : List Char → Option (Value × List Char)) (w : List Char) : Prop :=
  Opens w ∧ ∃ value, ∀ rest, Ends rest → item (w ++ rest) = some (value, rest)

section Containers

variable {item : List Char → Option (Value × List Char)} {rest : List Char}

/-- One item of an array, and the mark behind it. -/
lemma Item.arrayItems_step (i : Item) (h : Takes item i.value) {mark : Char}
    (hmark : mark = ',' ∨ mark = ']') :
    ∃ value, ∀ rest fuel, arrayItems item (fuel + 1) (i.chars ++ mark :: rest) =
      if mark = ',' then
        (arrayItems item fuel rest).map fun read => (value :: read.1, read.2)
      else some ([value], rest) := by
  obtain ⟨hopens, value, hread⟩ := h
  refine ⟨value, fun rest fuel => ?_⟩
  have hends : Ends (mark :: rest) := by
    obtain rfl | rfl := hmark <;> exact ends_cons (by decide) rest
  have hafter : skipLines false (i.after.chars ++ mark :: rest) = mark :: rest := by
    rw [i.after.skipLines_append]
    obtain rfl | rfl := hmark <;> exact skipLines_cons rfl (by decide) (by decide) (by decide)
  have hbefore : skipLines false (i.chars ++ mark :: rest) =
      i.value ++ (i.after.chars ++ mark :: rest) := by
    rw [Item.chars, List.append_assoc, i.before.skipLines_append, List.append_assoc,
      hopens.skipLines_append]
  have hvalue := hread _ (hends.gap i.after)
  obtain ⟨c, v, hc, -, hend⟩ := hopens
  have hclose : c ≠ ']' := by
    rintro rfl
    exact absurd hend (by decide)
  rw [arrayItems, hbefore]
  rw [hc, List.cons_append] at hvalue ⊢
  split
  · next h => exact absurd (List.cons.inj h).1 hclose
  · simp only [hvalue, Option.bind_eq_bind, Option.bind_some, hafter]
    obtain rfl | rfl := hmark
    · simp only [if_true, Option.map_eq_bind]
      rfl
    · rfl

/-- The items of an array are read one after the other. -/
lemma exists_arrayItems {items : List Item} {last : Gap ⊕ Item}
    (hitems : ∀ i ∈ items, Takes item i.value) (hlast : ∀ i, last = .inr i → Takes item i.value) :
    ∃ values, ∀ rest fuel, items.length < fuel →
      arrayItems item fuel (arrayChars items last ++ rest) = some (values, rest) := by
  induction items with
  | nil =>
    cases last with
    | inl gap =>
      refine ⟨[], fun rest fuel hfuel => ?_⟩
      obtain ⟨fuel, rfl⟩ := Nat.exists_eq_succ_of_ne_zero (Nat.ne_zero_of_lt hfuel)
      have hskip : skipLines false (arrayChars [] (.inl gap) ++ rest) = ']' :: rest := by
        rw [arrayChars, List.flatMap_nil, List.nil_append, Sum.elim_inl, List.append_assoc,
          gap.skipLines_append]
        exact skipLines_cons rfl (by decide) (by decide) (by decide)
      rw [arrayItems, hskip]
      rfl
    | inr i =>
      obtain ⟨value, hstep⟩ := i.arrayItems_step (hlast i rfl) (.inr rfl)
      refine ⟨[value], fun rest fuel hfuel => ?_⟩
      obtain ⟨fuel, rfl⟩ := Nat.exists_eq_succ_of_ne_zero (Nat.ne_zero_of_lt hfuel)
      rw [arrayChars, List.flatMap_nil, List.nil_append, Sum.elim_inr, List.append_assoc]
      exact hstep rest fuel
  | cons i items ih =>
    obtain ⟨value, hstep⟩ := i.arrayItems_step (hitems i List.mem_cons_self) (.inl rfl)
    obtain ⟨values, hread⟩ := ih fun i hi => hitems i (List.mem_cons_of_mem _ hi)
    refine ⟨value :: values, fun rest fuel hfuel => ?_⟩
    obtain ⟨fuel, rfl⟩ := Nat.exists_eq_succ_of_ne_zero (Nat.ne_zero_of_lt hfuel)
    have hchars : arrayChars (i :: items) last ++ rest =
        i.chars ++ ',' :: (arrayChars items last ++ rest) := by simp [arrayChars]
    rw [hchars, hstep, if_pos rfl, hread rest fuel (Nat.lt_of_succ_lt_succ hfuel)]
    rfl

/-! ## Tables in braces -/

/-- A name with a value is read, up to the blanks behind the value. -/
lemma Assignment.exists_entry (a : Assignment) (h : Takes item a.value) :
    ∃ entry : Entry, entry.names = a.name.parts ∧
      ∀ rest, Ends rest → entry? item (a.chars ++ rest) = some (entry, a.after.chars ++ rest) := by
  obtain ⟨hopens, value, hread⟩ := h
  obtain ⟨path, last, hparts, hname⟩ := a.name.name?_append
  refine ⟨⟨path, last, value⟩, hparts, fun rest hrest => ?_⟩
  have hvalue : item (skipBlanks (a.before.chars ++ (a.value ++ (a.after.chars ++ rest)))) =
      some (value, a.after.chars ++ rest) := by
    rw [a.before.skipBlanks, hopens.skipBlanks_append]
    exact hread _ (hrest.blanks a.after)
  have hchars : a.chars ++ rest =
      a.name.chars ++ '=' :: (a.before.chars ++ (a.value ++ (a.after.chars ++ rest))) := by
    simp [Assignment.chars]
  rw [hchars, entry?, hname]
  simp only [Option.bind_eq_bind, Option.bind_some, hvalue]
  rfl

lemma entry?_skipBlanks (cs : List Char) : entry? item (skipBlanks cs) = entry? item cs := by
  rw [ entry?, entry?, name?_skipBlanks]

lemma inlineEntries_skipBlanks (fuel : Nat) (cs : List Char) :
    inlineEntries item fuel (skipBlanks cs) = inlineEntries item fuel cs := by
  cases fuel with
  | zero => rfl
  | succ fuel => rw [inlineEntries, inlineEntries, entry?_skipBlanks]

/-- One entry of a table in braces, and the mark behind it. -/
lemma Assignment.inlineEntries_step (a : Assignment) (h : Takes item a.value) {mark : Char}
    (hmark : mark = ',' ∨ mark = '\x7d') :
    ∃ entry : Entry, entry.names = a.name.parts ∧
      ∀ rest fuel, inlineEntries item (fuel + 1) (a.chars ++ mark :: rest) =
        if mark = ',' then
          (inlineEntries item fuel rest).map fun read => (entry :: read.1, read.2)
        else some ([entry], rest) := by
  obtain ⟨entry, hnames, hread⟩ := a.exists_entry h
  refine ⟨entry, hnames, fun rest fuel => ?_⟩
  have hends : Ends (mark :: rest) := by
    obtain rfl | rfl := hmark <;> exact ends_cons (by decide) rest
  have hafter : skipBlanks (a.after.chars ++ mark :: rest) = mark :: rest := by
    rw [a.after.skipBlanks]
    obtain rfl | rfl := hmark <;> exact skipBlanks_cons rfl rest
  rw [inlineEntries, hread _ hends]
  simp only [Option.bind_eq_bind, Option.bind_some, hafter]
  obtain rfl | rfl := hmark
  · simp only [if_true, Option.map_eq_bind]
    rfl
  · rfl

/-- The entries of a table in braces are read one after the other. -/
lemma exists_inlineEntries {first : Assignment} {more : List Assignment}
    (h : ∀ a ∈ first :: more, Takes item a.value) :
    ∃ content : List Entry, content.map Entry.names = (first :: more).map (·.name.parts) ∧
      ∀ rest fuel, more.length < fuel →
        inlineEntries item fuel
          (joined ',' first.chars (more.map Assignment.chars) ++ '\x7d' :: rest) =
          some (content, rest) := by
  induction more generalizing first with
  | nil =>
    obtain ⟨entry, hnames, hstep⟩ :=
      first.inlineEntries_step (h first List.mem_cons_self) (.inr rfl)
    refine ⟨[entry], by rw [List.map_singleton, List.map_singleton, hnames],
      fun rest fuel hfuel => ?_⟩
    obtain ⟨fuel, rfl⟩ := Nat.exists_eq_succ_of_ne_zero (Nat.ne_zero_of_lt hfuel)
    exact hstep rest fuel
  | cons next more ih =>
    obtain ⟨entry, hnames, hstep⟩ :=
      first.inlineEntries_step (h first List.mem_cons_self) (.inl rfl)
    obtain ⟨content, hcontent, hread⟩ := ih fun a ha => h a (List.mem_cons_of_mem _ ha)
    refine ⟨entry :: content, by rw [List.map_cons, List.map_cons, hnames, hcontent],
      fun rest fuel hfuel => ?_⟩
    obtain ⟨fuel, rfl⟩ := Nat.exists_eq_succ_of_ne_zero (Nat.ne_zero_of_lt hfuel)
    rw [List.map_cons, joined, List.append_assoc, List.cons_append, hstep, if_pos rfl,
      hread rest fuel (Nat.lt_of_succ_lt_succ hfuel)]
    rfl

end Containers

/-! ## Fuel -/

lemma length_le_arrayChars (items : List Item) (last : Gap ⊕ Item) :
    items.length ≤ (arrayChars items last).length := by
  induction items with
  | nil => exact Nat.zero_le _
  | cons i items ih =>
    have hchars : arrayChars (i :: items) last = i.chars ++ ',' :: arrayChars items last := by
      simp [arrayChars]
    rw [hchars, List.length_append, List.length_cons, List.length_cons]
    omega

lemma length_le_count_joined (mark : Char) (first : List Char) (more : List (List Char)) :
    more.length ≤ (joined mark first more).count mark := by
  induction more generalizing first with
  | nil => exact Nat.zero_le _
  | cons next more ih =>
    have := ih next
    rw [joined, List.count_append, List.count_cons_self, List.length_cons]
    omega

/-- Blanks that are passed over are no commas. -/
lemma count_skipBlanks (cs : List Char) : (skipBlanks cs).count ',' = cs.count ',' := by
  have hblanks : (cs.takeWhile isBlank).count ',' = 0 := List.count_eq_zero.2 fun h =>
    absurd (List.mem_takeWhile_imp h) (by decide)
  conv_rhs => rw [← List.takeWhile_append_dropWhile (p := isBlank) (l := cs)]
  rw [List.count_append, hblanks, Nat.zero_add, skipBlanks]

/-! ## Values -/

section Values

variable {room : Nat} {w rest : List Char}

/-- What begins with a quote is a string. -/
lemma value?_quote {c : Char} (hc : c = '"' ∨ c = '\'') (room : Nat) (w : List Char) :
    value? room (c :: w) = (text? (c :: w)).map fun read => (.text read.1, read.2) := by
  obtain rfl | rfl := hc <;> cases room <;> rfl

lemma value?_true (room : Nat) (rest : List Char) :
    value? room ('t' :: 'r' :: 'u' :: 'e' :: rest) = some (.boolean true, rest) := by
  cases room <;> rfl

lemma value?_false (room : Nat) (rest : List Char) :
    value? room ('f' :: 'a' :: 'l' :: 's' :: 'e' :: rest) = some (.boolean false, rest) := by
  cases room <;> rfl

/-- Behind its bracket an array has what its items leave. -/
lemma value?_openBracket (room : Nat) (w : List Char) :
    value? (room + 1) ('[' :: w) = (arrayItems (value? room) (w.length + 1) w).bind fun read =>
      some (.array read.1, read.2) :=
  rfl

/-- Behind its brace a table has no entry, or what its entries leave. -/
lemma value?_openBrace (room : Nat) (w : List Char) :
    value? (room + 1) ('\x7b' :: w) =
      match skipBlanks w with
      | '\x7d' :: rest => some (.table .inline [], rest)
      | rest => (inlineEntries (value? room) (rest.length + 1) rest).bind fun read =>
          (inlineTable read.1).bind fun table => some (table, read.2) :=
  rfl

/-- A digit begins a number or a moment. -/
lemma value?_of_isDigit {c : Char} (hc : c.isDigit) (room : Nat) (w : List Char) :
    value? room (c :: w) = number? (c :: w) := by
  have hne : ∀ {d : Char}, d.isDigit = false → c ≠ d := by
    rintro d hd rfl
    rw [hc] at hd
    cases hd
  rw [value?.eq_12 room c w (hne (by decide)) (hne (by decide)) (hne (by decide))
    (hne (by decide)) (hne (by decide)) (hne (by decide)) (hne (by decide)) (hne (by decide)),
    if_pos (by rw [hc, Bool.or_true])]

/-- A number or a moment begins with a digit or a sign. -/
lemma value?_of_number {c : Char} (hc : c = '+' ∨ c = '-' ∨ c.isDigit) (room : Nat)
    (w : List Char) : value? room (c :: w) = number? (c :: w) := by
  obtain rfl | rfl | hc := hc
  · cases room <;> rfl
  · cases room <;> rfl
  · exact value?_of_isDigit hc room w

/-- What is read as a number behind every sign is read as a value. -/
lemma value?_signed {sign : Option Bool} {c : Char} (hc : c.isDigit ∨ sign ≠ none) :
    value? room (signChars sign ++ c :: w) = number? (signChars sign ++ c :: w) := by
  match sign with
  | none => exact value?_of_number (.inr (.inr (hc.resolve_right fun h => h rfl))) room w
  | some false => exact value?_of_number (.inl rfl) room _
  | some true => exact value?_of_number (.inr (.inl rfl)) room _

/-- A number in base ten is read as what it is, if it fits. -/
lemma Numeral.value?_append (n : Numeral) (room : Nat) (hrest : Ends rest) :
    Toml.value? room (n.chars ++ rest) = n.value?.map fun value => (value, rest) := by
  refine Eq.trans ?_ (n.number?_append hrest)
  rw [Numeral.chars, List.append_assoc]
  exact value?_signed (.inl n.whole.digit_first)

/-- The two words for doubles are read behind every sign and without one. -/
lemma value?_special (sign : Option Bool) {word : List Char} {value : Value}
    (hword : word = ['i', 'n', 'f'] ∨ word = ['n', 'a', 'n'])
    (h : ∀ rest, special? (sign == some true) (word ++ rest) = some (value, rest))
    (rest : List Char) : value? room (signChars sign ++ word ++ rest) = some (value, rest) := by
  rw [List.append_assoc]
  match sign with
  | none =>
    have hspecial : value? room (word ++ rest) = special? false (word ++ rest) := by
      obtain rfl | rfl := hword <;> cases room <;> rfl
    exact hspecial.trans (h rest)
  | some s =>
    have hread : special? s (word ++ rest) = some (value, rest) := by
      cases s <;> exact h rest
    obtain ⟨c, v, hcv⟩ : ∃ c v, word ++ rest = c :: v := by
      obtain rfl | rfl := hword <;> exact ⟨_, _, rfl⟩
    have hnumber := number?_signed s (word ++ rest)
    rw [hread] at hnumber
    rw [hcv] at hnumber ⊢
    exact (value?_signed (.inr (by simp))).trans hnumber

/-- An array is read if its items are. -/
lemma value?_array {items : List Item} {last : Gap ⊕ Item}
    (hitems : ∀ i ∈ items, Takes (value? room) i.value)
    (hlast : ∀ i, last = .inr i → Takes (value? room) i.value) :
    ∃ value, ∀ rest, value? (room + 1) ('[' :: (arrayChars items last ++ rest)) =
      some (value, rest) := by
  obtain ⟨values, hread⟩ := exists_arrayItems hitems hlast
  refine ⟨.array values, fun rest => ?_⟩
  have hfuel : items.length < (arrayChars items last ++ rest).length + 1 := by
    have := length_le_arrayChars items last
    rw [List.length_append]
    omega
  rw [value?_openBracket, hread rest _ hfuel, Option.bind_some]

/-- A table in braces is read if the values of its entries are. -/
lemma value?_entries {first : Assignment} {more : List Assignment}
    (h : ∀ a ∈ first :: more, Takes (value? room) a.value)
    (hapart : ((first :: more).map fun a => a.name.parts).Pairwise Apart) :
    ∃ value, ∀ rest, value? (room + 1)
      ('\x7b' :: (joined ',' first.chars (more.map Assignment.chars) ++ '\x7d' :: rest)) =
      some (value, rest) := by
  obtain ⟨content, hcontent, hread⟩ := exists_inlineEntries h
  obtain ⟨value, hvalue⟩ := exists_inlineTable (hcontent ▸ hapart)
  refine ⟨value, fun rest => ?_⟩
  -- what stands between the braces, without the blanks in front
  obtain ⟨inside, hinside⟩ : ∃ inside,
      inside = joined ',' first.chars (more.map Assignment.chars) ++ '\x7d' :: rest := ⟨_, rfl⟩
  have hfuel : more.length < (skipBlanks inside).length + 1 := by
    have hjoined := length_le_count_joined ',' first.chars (more.map Assignment.chars)
    have hcount := List.count_le_length (a := ',') (l := skipBlanks inside)
    rw [count_skipBlanks, hinside, List.count_append] at hcount
    rw [List.length_map] at hjoined
    rw [hinside]
    omega
  have hentries : inlineEntries (value? room) ((skipBlanks inside).length + 1)
      (skipBlanks inside) = some (content, rest) := by
    rw [inlineEntries_skipBlanks]
    nth_rewrite 2 [hinside]
    exact hread rest _ hfuel
  obtain ⟨tail, htail⟩ := exists_joined ',' first.chars (more.map Assignment.chars)
  obtain ⟨c, v, hcv, hc⟩ := first.name.skipBlanks_append
    ('=' :: (first.before.chars ++ (first.value ++ first.after.chars)) ++ tail ++ '\x7d' :: rest)
  have hhead : skipBlanks inside = c :: v := by
    rw [hinside, htail, ← hcv, Assignment.chars]
    simp only [List.append_assoc, List.cons_append]
  have hclose : c ≠ '\x7d' := ne_of_beginsPart hc (by decide)
  rw [hhead] at hentries
  rw [value?_openBrace, ← hinside, hhead]
  split
  · next h => exact absurd (List.cons.inj h).1 hclose
  · rw [hentries, Option.bind_some, hvalue, Option.bind_some]

/-- Every value of the grammar is taken by the reader of values, if there is room for it. -/
theorem IsValue.takes (h : IsValue room w) : Takes (value? room) w := by
  refine ⟨h.opens, ?_⟩
  induction h with
  | @text room w h =>
    obtain ⟨s, hread⟩ := h.text?_append
    refine ⟨.text s, fun rest hrest => ?_⟩
    have htext := hread rest hrest
    obtain ⟨c, v, rfl, hc⟩ := h.head
    rw [List.cons_append] at htext ⊢
    rw [value?_quote hc, htext, Option.map_some]
  | yes => exact ⟨.boolean true, fun rest _ => value?_true _ rest⟩
  | no => exact ⟨.boolean false, fun rest _ => value?_false _ rest⟩
  | numeral n hfits =>
    obtain ⟨value, hvalue⟩ := n.exists_value? hfits
    exact ⟨value, fun rest hrest => (n.value?_append _ hrest).trans (by rw [hvalue]; rfl)⟩
  | based n hfits =>
    obtain ⟨value, hvalue⟩ := n.exists_value hfits
    refine ⟨value, fun rest hrest => ?_⟩
    have hnumber := n.number?_append hrest
    rw [hvalue] at hnumber
    exact (value?_of_number (.inr (.inr (by decide))) _ _).trans hnumber
  | infinite sign =>
    exact ⟨_, fun rest _ => value?_special sign (.inl rfl) (fun _ => rfl) rest⟩
  | noNumber sign =>
    exact ⟨_, fun rest _ => value?_special sign (.inr rfl) (fun _ => rfl) rest⟩
  | moment m =>
    obtain ⟨c, v, hm, hc⟩ := m.head
    refine ⟨.moment, fun rest hrest => ?_⟩
    have hnumber := m.number?_append hrest
    rw [hm, List.cons_append] at hnumber ⊢
    rw [value?_of_number (.inr (.inr hc)), hnumber]
  | array hitems hlast ih₁ ih₂ =>
    obtain ⟨value, hread⟩ := value?_array (fun i hi => ⟨(hitems i hi).opens, ih₁ i hi⟩)
      fun i hi => ⟨(hlast i hi).opens, ih₂ i hi⟩
    exact ⟨value, fun rest _ => hread rest⟩
  | noEntries blanks =>
    refine ⟨.table .inline [], fun rest _ => ?_⟩
    rw [List.cons_append, List.append_assoc, List.singleton_append, value?_openBrace,
      blanks.skipBlanks, skipBlanks_cons rfl]
    rfl
  | @entries room first more h hapart ih =>
    obtain ⟨value, hread⟩ := value?_entries (fun a ha => ⟨(h a ha).opens, ih a ha⟩) hapart
    refine ⟨value, fun rest _ => ?_⟩
    rw [List.cons_append, List.append_assoc, List.singleton_append]
    exact hread rest

end Values

/-! ## Too many open arrays -/

/-- Empty arrays within each other. -/
def nested (depth : Nat) : List Char := List.replicate depth '[' ++ List.replicate depth ']'

lemma nested_succ (depth : Nat) : nested (depth + 1) = '[' :: (nested depth ++ [']']) := by
  rw [nested, nested, List.replicate_succ, List.replicate_succ', List.cons_append,
    List.append_assoc]

/-- Arrays within each other are a value, with room for all of them. -/
lemma isValue_nested (depth : Nat) : IsValue (depth + 1) (nested (depth + 1)) := by
  induction depth with
  | zero =>
    have harray := @IsValue.array 0 [] (.inl ⟨[], .nil⟩) (fun _ h => absurd h List.not_mem_nil)
      fun _ h => by cases h
    exact harray
  | succ depth ih =>
    have harray := @IsValue.array (depth + 1) []
      (.inr ⟨⟨[], .nil⟩, nested (depth + 1), ⟨[], .nil⟩⟩) (fun _ h => absurd h List.not_mem_nil)
      fun item h => by
        obtain rfl := Sum.inr.inj h
        exact ih
    rw [nested_succ]
    simpa [arrayChars, Item.chars] using harray

/-- One more array than there is room for is not read, whatever follows. -/
theorem value?_replicate (room : Nat) (rest : List Char) :
    value? room (List.replicate (room + 1) '[' ++ rest) = none := by
  induction room with
  | zero => rfl
  | succ room ih =>
    rw [List.replicate_succ, List.cons_append] at ih
    have hitems : ∀ fuel, arrayItems (value? room) fuel
        ('[' :: (List.replicate room '[' ++ rest)) = none := by
      intro fuel
      cases fuel with
      | zero => rfl
      | succ fuel =>
        rw [arrayItems, skipLines_cons rfl (by decide) (by decide) (by decide)]
        split
        · next h => exact absurd (List.cons.inj h).1 (by decide)
        · rw [ih]
          rfl
    rw [List.replicate_succ, List.cons_append, List.replicate_succ, List.cons_append,
      value?_openBracket, hitems, Option.bind_none]

end CheckIn.Toml
