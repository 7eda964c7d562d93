/-
# The strings and names of the grammar are read

Each form of a string is taken by its reader, whatever it spells, up to its closing quotes.  In
the strings of several lines the reader can be passing over blanks when the rest of the content
comes; what it makes of that rest depends on it, but it never fails.  A name is read part by part.
-/
import CheckIn.Proofs.Toml.Grammar
import CheckIn.Proofs.Toml.Strings
import Mathlib.Data.List.DropRight

namespace CheckIn.Toml

/-! ## Escapes -/

section Escapes

variable {e w s rest : List Char} {c l : Char}

lemma unescape?_of_mem (h : (l, c) ∈ escapes) : unescape? l = some c := by
  simp only [escapes, List.mem_cons, Prod.mk.injEq, List.not_mem_nil, or_false] at h
  rcases h with ⟨rfl, rfl⟩ | ⟨rfl, rfl⟩ | ⟨rfl, rfl⟩ | ⟨rfl, rfl⟩ | ⟨rfl, rfl⟩ | ⟨rfl, rfl⟩ |
    ⟨rfl, rfl⟩ <;> rfl

lemma basic_escape (he : IsEscape e c) (hw : basic w = some (s, rest)) :
    basic (e ++ w) = some (c :: s, rest) := by
  cases he with
  | letter h => exact takesContent_basic.letter (unescape?_of_mem h) hw
  | point h => exact takesContent_basic.point h hw
  | longPoint h =>
    show (escaped? _).bind (fun char =>
      (basic w).bind fun read => some (char :: read.1, read.2)) = _
    rw [h, Option.bind_some, hw, Option.bind_some]

lemma multiBasic_escape (he : IsEscape e c) (trimming : Bool)
    (hw : multiBasic false w = some (s, rest)) :
    multiBasic trimming (e ++ w) = some (c :: s, rest) := by
  cases he with
  | letter h => exact multiBasic_letter trimming (unescape?_of_mem h) hw
  | point h => exact multiBasic_point trimming h hw
  | longPoint h =>
    show (escaped? _).bind (fun char =>
      (multiBasic false w).bind fun read => some (char :: read.1, read.2)) = _
    rw [h, Option.bind_some, hw, Option.bind_some]

lemma IsEscape.eq_cons (he : IsEscape e c) : ∃ v, e = '\\' :: v := by
  cases he <;> exact ⟨_, rfl⟩

end Escapes

/-! ## Strings of one line -/

lemma Spells.basic_append {w s : List Char} (h : Spells w s) (rest : List Char) :
    basic (w ++ '"' :: rest) = some (s, rest) := by
  induction h with
  | nil => rfl
  | plain hp hq hb _ ih => exact takesContent_basic.plain (.inl hp) hq hb ih
  | escape he _ ih =>
    rw [List.append_assoc]
    exact basic_escape he ih

/-- What spells a text does not begin with a quote. -/
lemma Spells.append_ne {w s : List Char} (h : Spells w s) {rest : List Char}
    (hrest : ∀ v, rest ≠ '"' :: v) (v : List Char) : w ++ '"' :: rest ≠ '"' :: '"' :: v := by
  intro hv
  cases h with
  | nil => exact hrest v (List.cons.inj hv).2
  | plain _ hq _ _ => exact hq (List.cons.inj hv).1
  | escape he _ =>
    obtain ⟨u, rfl⟩ := he.eq_cons
    exact absurd (List.cons.inj hv).1 (by decide)

lemma IsLiteral.append_ne {s : List Char} (h : IsLiteral s) {rest : List Char}
    (hrest : ∀ v, rest ≠ '\'' :: v) (v : List Char) : s ++ '\'' :: rest ≠ '\'' :: '\'' :: v := by
  intro hv
  cases s with
  | nil => exact hrest v (List.cons.inj hv).2
  | cons c s => exact (h c List.mem_cons_self).2 (List.cons.inj hv).1

/-! ## Strings of several lines -/

section Lines

variable {quote : Quote} {allowed : Nat} {w rest : List Char}

/-- A content is empty, begins with a quote, or begins with something else. -/
lemma IsLines.head (h : IsLines quote allowed w) :
    w = [] ∨ (∃ n v, allowed = n + 1 ∧ w = quote.char :: v ∧ IsLines quote n v) ∨
      ∃ c v, w = c :: v ∧ c ≠ quote.char := by
  have hbreak : ∀ {c : Char}, c = '\n' ∨ c = '\r' → c ≠ quote.char := by
    cases quote <;> rintro _ (rfl | rfl) <;> decide
  cases h with
  | nil => exact .inl rfl
  | quote h => exact .inr (.inl ⟨_, _, rfl, rfl, h⟩)
  | plain _ hq _ _ => exact .inr (.inr ⟨_, _, rfl, hq⟩)
  | line b _ => cases b <;> exact .inr (.inr ⟨_, _, rfl, hbreak (by decide)⟩)
  | escape hd he _ =>
    obtain ⟨v, rfl⟩ := he.eq_cons
    exact .inr (.inr ⟨_, _, rfl, by rw [hd]; decide⟩)
  | joins _ _ hd _ => exact .inr (.inr ⟨_, _, rfl, by rw [hd]; decide⟩)

/-- Where at most one more quote is allowed, two are seen only if nothing but quotes is left
before the closing ones, at most one. -/
lemma IsLines.eq_of_quotes (h : IsLines quote allowed w) (hallowed : allowed ≤ 1)
    {v : List Char} (hv : w ++ rest = quote.char :: quote.char :: v) :
    w = [] ∨ w = [quote.char] := by
  obtain rfl | ⟨n, u, rfl, rfl, hu⟩ | ⟨c, u, rfl, hc⟩ := h.head
  · exact .inl rfl
  · obtain rfl | ⟨m, _, rfl, -⟩ | ⟨c, u', rfl, hc⟩ := hu.head
    · exact .inr rfl
    · omega
    · exact absurd (List.cons.inj (List.cons.inj hv).2).1 hc
  · exact absurd (List.cons.inj hv).1 hc

lemma dropNewline_cons {c : Char} (hn : c ≠ '\n') (hr : c ≠ '\r') :
    dropNewline (c :: w) = c :: w := by
  rw [dropNewline, newline?.eq_3 _ (fun _ h => hn (List.cons.inj h).1)
    fun _ h => hr (List.cons.inj h).1]
  rfl

/-- A break right after the opening quotes is dropped, and a content is left. -/
lemma IsLines.dropNewline_append (h : IsLines quote 2 w) :
    ∃ w', IsLines quote 2 w' ∧
      ∀ rest, dropNewline (w ++ quote.char :: rest) = w' ++ quote.char :: rest := by
  have hkeep : ∀ v, dropNewline (quote.char :: v) = quote.char :: v := by
    cases quote <;> exact fun _ => dropNewline_cons (by decide) (by decide)
  cases h with
  | nil => exact ⟨[], .nil, hkeep⟩
  | quote h => exact ⟨_, .quote h, fun _ => hkeep _⟩
  | @plain _ c w hp hq hb h =>
    refine ⟨_, .plain hp hq hb h, fun _ => dropNewline_cons ?_ ?_⟩ <;>
    · rintro rfl
      exact absurd hp (by decide)
  | line b h => exact ⟨_, h, fun rest => by cases b <;> rfl⟩
  | escape hd he h =>
    refine ⟨_, .escape hd he h, fun rest => ?_⟩
    obtain ⟨v, rfl⟩ := he.eq_cons
    exact dropNewline_cons (by decide) (by decide)
  | joins blanks b hd h =>
    exact ⟨_, .joins blanks b hd h, fun _ => dropNewline_cons (by decide) (by decide)⟩

/-- A line break is passed over or taken as a line feed. -/
lemma multiBasic_break (b : Break) (trimming : Bool) :
    multiBasic trimming (b.chars ++ w) =
      if trimming then multiBasic true w
      else (multiBasic false w).map fun read => ('\n' :: read.1, read.2) := by
  cases b with
  | feed =>
    rw [Break.chars, List.singleton_append, multiBasic_step (.inr rfl) (by decide)
      (fun _ h => absurd h (by decide))]
    cases trimming <;> rfl
  | returnFeed =>
    rw [Option.map_eq_bind]
    rfl

/-- Blanks are passed over after a break that was taken away. -/
lemma multiBasic_blanks {blanks : List Char} (h : ∀ c ∈ blanks, isBlank c) :
    multiBasic true (blanks ++ w) = multiBasic true w := by
  induction blanks with
  | nil => rfl
  | cons c blanks ih =>
    have hc : isBlank c := h c List.mem_cons_self
    have hcases := isBlank_iff.1 hc
    have hplain : isPlain c ∧ c ≠ '\\' ∧ c ≠ '"' := by obtain rfl | rfl := hcases <;> decide
    rw [List.cons_append, multiBasic_step (.inl hplain.1) hplain.2.1
      (fun _ h => absurd h hplain.2.2), hc, Bool.true_or, Bool.true_and, if_pos rfl]
    exact ih fun d hd => h d (List.mem_cons_of_mem c hd)

/-- A backslash takes away the break before which it stands. -/
lemma multiBasic_joins (blanks : Blanks) (b : Break) (trimming : Bool) :
    multiBasic trimming ('\\' :: (blanks.chars ++ (b.chars ++ w))) = multiBasic true w := by
  have hends : endsLine (blanks.chars ++ (b.chars ++ w)) := by
    rw [endsLine, blanks.skipBlanks]
    cases b <;> rfl
  -- what follows the backslash is a blank or a break, and no letter of an escape
  have hhead : ∃ c v, blanks.chars ++ (b.chars ++ w) = c :: v ∧ c ≠ 'u' ∧ c ≠ 'U' := by
    cases hblanks : blanks.chars with
    | nil => cases b <;> exact ⟨_, _, rfl, by decide, by decide⟩
    | cons c v =>
      have hc := isBlank_iff.1 (blanks.blank c (hblanks ▸ List.mem_cons_self))
      exact ⟨c, _, rfl, by obtain rfl | rfl := hc <;> decide,
        by obtain rfl | rfl := hc <;> decide⟩
  obtain ⟨c, v, hcv, hu, hU⟩ := hhead
  rw [hcv] at hends ⊢
  rw [multiBasic_backslash trimming hu hU, if_pos hends, ← hcv, multiBasic_blanks blanks.blank, multiBasic_break, if_pos rfl]

/-- A content of several lines is taken up to the quotes that close it. -/
lemma IsLines.multiBasic_append (h : IsLines .double allowed w) (hallowed : allowed ≤ 2)
    (trimming : Bool) :
    ∃ s, ∀ rest, (∀ v, rest ≠ '"' :: v) →
      multiBasic trimming (w ++ '"' :: '"' :: '"' :: rest) = some (s, rest) := by
  -- for both values of `trimming`, since a break that is taken away sets it for what follows
  induction h generalizing trimming with
  | nil =>
    exact ⟨[], fun rest hrest => congrArg some (surplus_replicate_append (Nat.zero_le 2) hrest)⟩
  | @quote allowed w hw ih =>
    by_cases hs : w = [] ∨ w = ['"']
    · -- nothing but quotes is left, and the reader sees the first three as the closing ones
      obtain rfl | rfl := hs
      · exact ⟨['"'], fun rest hrest => congrArg some (surplus_replicate_append one_le_two hrest)⟩
      · exact ⟨['"', '"'], fun rest hrest =>
          congrArg some (surplus_replicate_append (Nat.le_refl 2) hrest)⟩
    · obtain ⟨s, hs'⟩ := ih (by omega) false
      have hplain : isPlain '"' := by decide
      refine ⟨'"' :: s, fun rest hrest => ?_⟩
      rw [Quote.char, List.cons_append, multiBasic_step (.inl hplain) (by decide)
        (fun v _ hv => hs (hw.eq_of_quotes (by omega) hv)), hs' rest hrest]
      cases trimming <;> rfl
  | @plain _ c w hp hq hb _ ih =>
    obtain ⟨s₁, h₁⟩ := ih (Nat.le_refl 2) true
    obtain ⟨s₂, h₂⟩ := ih (Nat.le_refl 2) false
    refine ⟨if trimming && (isBlank c || decide (c = '\n')) then s₁ else c :: s₂,
      fun rest hrest => ?_⟩
    rw [List.cons_append, multiBasic_step (.inl hp) (hb rfl) (fun _ h => absurd h hq),
      h₁ rest hrest, h₂ rest hrest]
    split <;> rfl
  | @line _ b w _ ih =>
    obtain ⟨s₁, h₁⟩ := ih (Nat.le_refl 2) true
    obtain ⟨s₂, h₂⟩ := ih (Nat.le_refl 2) false
    refine ⟨if trimming then s₁ else '\n' :: s₂, fun rest hrest => ?_⟩
    rw [List.append_assoc, multiBasic_break, h₁ rest hrest, h₂ rest hrest]
    split <;> rfl
  | @escape _ e w c _ he _ ih =>
    obtain ⟨s, hs⟩ := ih (Nat.le_refl 2) false
    refine ⟨c :: s, fun rest hrest => ?_⟩
    rw [List.append_assoc]
    exact multiBasic_escape he trimming (hs rest hrest)
  | joins blanks b _ _ ih =>
    obtain ⟨s, hs⟩ := ih (Nat.le_refl 2) true
    refine ⟨s, fun rest hrest => ?_⟩
    rw [List.cons_append, List.append_assoc, List.append_assoc, multiBasic_joins]
    exact hs rest hrest

lemma multiLiteral_break (b : Break) :
    multiLiteral (b.chars ++ w) =
      (multiLiteral w).map fun read => ('\n' :: read.1, read.2) := by
  rw [Option.map_eq_bind]
  cases b <;> rfl

/-- A literal content of several lines is taken up to the quotes that close it. -/
lemma IsLines.multiLiteral_append (h : IsLines .single allowed w) (hallowed : allowed ≤ 2) :
    ∃ s, ∀ rest, (∀ v, rest ≠ '\'' :: v) →
      multiLiteral (w ++ '\'' :: '\'' :: '\'' :: rest) = some (s, rest) := by
  induction h with
  | nil =>
    exact ⟨[], fun rest hrest => congrArg some (surplus_replicate_append (Nat.zero_le 2) hrest)⟩
  | @quote allowed w hw ih =>
    by_cases hs : w = [] ∨ w = ['\'']
    · -- nothing but quotes is left, and the reader sees the first three as the closing ones
      obtain rfl | rfl := hs
      · exact ⟨['\''], fun rest hrest => congrArg some (surplus_replicate_append one_le_two hrest)⟩
      · exact ⟨['\'', '\''], fun rest hrest =>
          congrArg some (surplus_replicate_append (Nat.le_refl 2) hrest)⟩
    · obtain ⟨s, hs'⟩ := ih (by omega)
      have hplain : isPlain '\'' := by decide
      exact ⟨'\'' :: s, fun rest hrest => multiLiteral_plain (.inl hplain)
        (fun v _ hv => hs (hw.eq_of_quotes (by omega) hv)) (hs' rest hrest)⟩
  | plain hp hq _ _ ih =>
    obtain ⟨s, hs⟩ := ih (Nat.le_refl 2)
    exact ⟨_ :: s, fun rest hrest =>
      multiLiteral_plain (.inl hp) (fun _ h => absurd h hq) (hs rest hrest)⟩
  | line b _ ih =>
    obtain ⟨s, hs⟩ := ih (Nat.le_refl 2)
    refine ⟨'\n' :: s, fun rest hrest => ?_⟩
    rw [List.append_assoc, multiLiteral_break, hs rest hrest]
    rfl
  | escape hd | joins _ _ hd => cases hd

end Lines

/-! ## Strings -/

/-- Every string is read, and what is read does not depend on what follows. -/
lemma IsText.text?_append {w : List Char} (h : IsText w) :
    ∃ s, ∀ rest, Ends rest → text? (w ++ rest) = some (s, rest) := by
  have hquote : ∀ {rest : List Char}, Ends rest → ∀ v, rest ≠ '"' :: v :=
    fun h => h.ne (by decide) (by decide)
  have hsingle : ∀ {rest : List Char}, Ends rest → ∀ v, rest ≠ '\'' :: v :=
    fun h => h.ne (by decide) (by decide)
  cases h with
  | @basic w s h =>
    refine ⟨String.ofList s, fun rest hrest => ?_⟩
    simp only [List.cons_append, List.append_assoc, List.nil_append]
    rw [text?_basic (h.append_ne (hquote hrest)), h.basic_append]
    rfl
  | @literal s h =>
    refine ⟨String.ofList s, fun rest hrest => ?_⟩
    simp only [List.cons_append, List.append_assoc, List.nil_append]
    rw [text?_literal (h.append_ne (hsingle hrest)), literal_append h]
    rfl
  | lines h =>
    obtain ⟨w', hw', hdrop⟩ := h.dropNewline_append
    obtain ⟨s, hs⟩ := hw'.multiBasic_append (Nat.le_refl 2) false
    refine ⟨String.ofList s, fun rest hrest => ?_⟩
    simp only [List.cons_append, List.append_assoc, List.nil_append]
    rw [Quote.char] at hdrop
    rw [text?_multiBasic, hdrop, hs rest (hquote hrest)]
    rfl
  | literalLines h =>
    obtain ⟨w', hw', hdrop⟩ := h.dropNewline_append
    obtain ⟨s, hs⟩ := hw'.multiLiteral_append (Nat.le_refl 2)
    refine ⟨String.ofList s, fun rest hrest => ?_⟩
    simp only [List.cons_append, List.append_assoc, List.nil_append]
    rw [Quote.char] at hdrop
    rw [text?_multiLiteral, hdrop, hs rest (hsingle hrest)]
    rfl

/-! ## Names -/

section Names

variable {written : List Char} {name : String}

/-- A bare name begins with no mark that means something else. -/
lemma IsBareName.cons (h : IsBareName name) :
    ∃ c w, name.toList = c :: w ∧ isBare c ∧ ∀ d, isBare d = false → c ≠ d := by
  cases hn : name.toList with
  | nil => exact absurd hn h.1
  | cons c w =>
    have hc : isBare c := List.all_eq_true.1 h.2 c (hn ▸ List.mem_cons_self)
    refine ⟨c, w, rfl, hc, ?_⟩
    rintro d hd rfl
    rw [hc] at hd
    cases hd

lemma IsBareName.skipBlanks (h : IsBareName name) (rest : List Char) :
    Toml.skipBlanks (name.toList ++ rest) = name.toList ++ rest := by
  obtain ⟨c, w, hn, -, hne⟩ := h.cons
  have hblank : isBlank c = false := by
    simp only [isBlank, Bool.or_eq_false_iff, decide_eq_false_iff_not]
    exact ⟨hne ' ' (by decide), hne '\t' (by decide)⟩
  rw [hn, List.cons_append]
  exact List.dropWhile_cons_of_neg (by simp [hblank])

/-- A bare name is read up to the first character that cannot stand in it. -/
lemma IsBareName.namePart? (h : IsBareName name) {rest : List Char}
    (hrest : ∀ c w, rest = c :: w → isBare c = false) :
    Toml.namePart? (name.toList ++ rest) = some (name, rest) := by
  have hbare := List.all_eq_true.1 h.2
  have htake : (name.toList ++ rest).takeWhile isBare = name.toList := by
    rw [List.takeWhile_append_of_pos hbare]
    cases rest with
    | nil => rw [List.takeWhile_nil, List.append_nil]
    | cons c w => rw [List.takeWhile_cons_of_neg (by simp [hrest c w rfl]), List.append_nil]
  have hdrop : (name.toList ++ rest).dropWhile isBare = rest := by
    rw [List.dropWhile_append_of_pos hbare]
    cases rest with
    | nil => rfl
    | cons c w => rw [List.dropWhile_cons_of_neg (by simp [hrest c w rfl])]
  obtain ⟨c, w, hn, -, hne⟩ := h.cons
  have hhead : ∀ {d w'}, isBare d = false → name.toList ++ rest ≠ d :: w' :=
    fun hd hw => hne _ hd (List.cons.inj (hn ▸ hw)).1
  rw [Toml.namePart?.eq_3 _ (fun _ => hhead (by decide)) fun _ => hhead (by decide), htake, hdrop,
    hn]
  exact congrArg (fun s => some (s, rest)) (by rw [← hn, String.ofList_toList])

/-- A part begins with a character of its own. -/
lemma IsPart.head (h : IsPart written name) : ∃ c v, written = c :: v ∧ beginsPart c := by
  cases h with
  | bare h =>
    obtain ⟨c, v, hn, hc, -⟩ := h.cons
    exact ⟨c, v, hn, by rw [beginsPart, hc]; rfl⟩
  | basic | literal => exact ⟨_, _, rfl, by decide⟩

/-- With no other mark does a part begin. -/
lemma ne_of_beginsPart {c d : Char} (hc : beginsPart c) (hd : beginsPart d = false) : c ≠ d := by
  rintro rfl
  rw [hc] at hd
  cases hd

lemma IsPart.skipBlanks_append (h : IsPart written name) (rest : List Char) :
    skipBlanks (written ++ rest) = written ++ rest := by
  obtain ⟨c, u, hw, hc⟩ := h.head
  have hblank : isBlank c = false := by
    rw [Bool.eq_false_iff, ne_eq, isBlank_iff, not_or]
    exact ⟨ne_of_beginsPart hc (by decide), ne_of_beginsPart hc (by decide)⟩
  rw [hw]
  exact skipBlanks_cons hblank _

/-- A part is read as the name it stands for. -/
lemma IsPart.namePart?_append (h : IsPart written name) {rest : List Char}
    (hrest : ∀ c w, rest = c :: w → isBare c = false) :
    namePart? (written ++ rest) = some (name, rest) := by
  cases h with
  | bare h => exact h.namePart? hrest
  | basic h =>
    rw [List.cons_append, List.append_assoc, List.singleton_append]
    exact congrArg asText (h.basic_append rest)
  | literal h =>
    rw [List.cons_append, List.append_assoc, List.singleton_append]
    exact congrArg asText (literal_append h rest)

/-- A part with its blanks leaves what begins with a mark. -/
lemma Part.nameParts?_step (part : Part) {mark : Char} (hmark : mark = '.' ∨ mark = '=')
    (rest : List Char) {fuel : Nat} :
    nameParts? (fuel + 1) (part.chars ++ mark :: rest) =
      if mark = '.' then
        (nameParts? fuel rest).map fun read => (part.name :: read.1, read.2)
      else some ([part.name], mark :: rest) := by
  have hblank : isBlank mark = false := by obtain rfl | rfl := hmark <;> rfl
  have hend : ∀ c w, part.after.chars ++ mark :: rest = c :: w → isBare c = false := by
    intro c w hc
    cases hafter : part.after.chars with
    | nil =>
      rw [hafter] at hc
      obtain ⟨rfl, -⟩ := List.cons.inj hc
      obtain rfl | rfl := hmark <;> rfl
    | cons d v =>
      have hd := isBlank_iff.1 (part.after.blank d (hafter ▸ List.mem_cons_self))
      rw [hafter] at hc
      obtain ⟨rfl, -⟩ := List.cons.inj hc
      obtain rfl | rfl := hd <;> rfl
  have hread : namePart? (skipBlanks (part.chars ++ mark :: rest)) =
      some (part.name, part.after.chars ++ mark :: rest) := by
    rw [Part.chars, List.append_assoc, part.before.skipBlanks, List.append_assoc,
      part.isPart.skipBlanks_append, part.isPart.namePart?_append hend]
  rw [nameParts?, hread]
  simp only [Option.bind_eq_bind, Option.bind_some]
  rw [part.after.skipBlanks, skipBlanks_cons hblank]
  obtain rfl | rfl := hmark
  · simp only [if_true, Option.map_eq_bind]
    rfl
  · rfl

/-- The parts of a name are read up to the equals sign. -/
lemma nameParts?_joined (first : Part) (more : List Part) (rest : List Char) {fuel : Nat}
    (hfuel : more.length < fuel) :
    nameParts? fuel (joined '.' first.chars (more.map Part.chars) ++ '=' :: rest) =
      some (first.name :: more.map Part.name, '=' :: rest) := by
  induction more generalizing first fuel with
  | nil =>
    obtain ⟨fuel, rfl⟩ := Nat.exists_eq_succ_of_ne_zero (Nat.ne_zero_of_lt hfuel)
    rw [List.map_nil, joined, first.nameParts?_step (.inr rfl)]
    rfl
  | cons next more ih =>
    obtain ⟨fuel, rfl⟩ := Nat.exists_eq_succ_of_ne_zero (Nat.ne_zero_of_lt hfuel)
    rw [List.map_cons, joined, List.append_assoc, List.cons_append,
      first.nameParts?_step (.inl rfl), if_pos rfl, ih next (Nat.lt_of_succ_lt_succ hfuel)]
    rfl

/-- A name is read as its parts. -/
lemma Name.name?_append (name : Name) :
    ∃ path last, path ++ [last] = name.parts ∧
      ∀ rest, name? (name.chars ++ '=' :: rest) = some ((path, last), '=' :: rest) := by
  have hne : name.parts ≠ [] := List.cons_ne_nil _ _
  have hlength : name.parts.length < tooManyParts := by
    rw [Name.parts, List.length_cons, List.length_map]
    exact name.few
  refine ⟨name.parts.dropLast, name.parts.getLast hne, List.dropLast_append_getLast hne,
    fun rest => ?_⟩
  have hparts : nameParts? tooManyParts (name.chars ++ '=' :: rest) =
      some (name.parts, '=' :: rest) :=
    nameParts?_joined name.first name.more rest (Nat.lt_of_succ_lt name.few)
  rw [name?, hparts]
  simp only [Option.bind_eq_bind, Option.bind_some]
  rw [if_pos hlength, List.getLast?_eq_some_getLast hne]
  rfl

/-- Blanks before a name are passed over. -/
lemma name?_skipBlanks (cs : List Char) : name? (skipBlanks cs) = name? cs := by
  have hskip : skipBlanks (skipBlanks cs) = skipBlanks cs := List.dropWhile_idempotent isBlank cs
  have hparts : ∀ fuel, nameParts? fuel (skipBlanks cs) = nameParts? fuel cs := by
    intro fuel
    cases fuel with
    | zero => rfl
    | succ fuel => rw [nameParts?, nameParts?, hskip]
  rw [name?, name?, hparts]

/-- After the blanks a name begins with a character of its own. -/
lemma Name.skipBlanks_append (name : Name) (rest : List Char) :
    ∃ c v, skipBlanks (name.chars ++ rest) = c :: v ∧ beginsPart c := by
  obtain ⟨c, v, hwritten, hc⟩ := name.first.isPart.head
  obtain ⟨tail, htail⟩ := exists_joined '.' name.first.chars (name.more.map Part.chars)
  refine ⟨c, v ++ (name.first.after.chars ++ tail ++ rest), ?_, hc⟩
  have hchars : name.chars ++ rest = name.first.before.chars ++
      (name.first.written ++ (name.first.after.chars ++ tail ++ rest)) := by
    rw [Name.chars, htail, Part.chars]
    simp only [List.append_assoc]
  rw [hchars, name.first.before.skipBlanks, name.first.isPart.skipBlanks_append, hwritten]
  rfl

end Names

end CheckIn.Toml
