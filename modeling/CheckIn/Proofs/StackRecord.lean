/-
# The record of the stack targets

A list of stack targets is folded into a map, and a map has no order of its own.  What the
reconciler writes about it has one: each stack of the list is named once, in the order of the
stacks, with the version in its last entry.  There is only one such list (`Canonical.unique`), so
that the record depends neither on the order in which the map gives its entries nor on anything in
the list of targets but the last entry of each stack
(`LoggingCollaborators.reconcile_canonical`).
-/
import CheckIn.LoggingCollaborators
import CheckIn.Proofs.DirectedWork
import Mathlib.Data.List.Dedup

namespace CheckIn

/-- The stacks of a list of targets, each of them once and in their order, with the version in its
last entry. -/
structure Canonical (targets : List StackTarget) (pairs : List (Int64 × Int64)) : Prop where
  increasing : pairs.Pairwise fun a b => a.1 < b.1
  ids : ∀ id, id ∈ pairs.map Prod.fst ↔ id ∈ targets.map (·.id)
  last : ∀ id version, (id, version) ∈ pairs → lastVersion targets id = some version
  count : pairs.length = (targets.map (·.id)).dedup.length

/-- Pairs with increasing identifiers have different ones. -/
lemma nodup_of_increasing {pairs : List (Int64 × Int64)}
    (h : pairs.Pairwise fun a b => a.1 < b.1) : (pairs.map Prod.fst).Nodup :=
  List.pairwise_map.2 (h.imp Int64.ne_of_lt)

section Lists

variable {targets others : List StackTarget} {pairs pairs' : List (Int64 × Int64)}
  {id version : Int64}

lemma Canonical.mem_iff (h : Canonical targets pairs) :
    (id, version) ∈ pairs ↔ lastVersion targets id = some version := by
  refine ⟨h.last id version, fun hlast => ?_⟩
  have hid : id ∈ pairs.map Prod.fst := (h.ids id).2 (lastVersion_isSome.1 (by simp [hlast]))
  obtain ⟨pair, hpair, rfl⟩ := List.mem_map.1 hid
  have hsame := h.last pair.1 pair.2 hpair
  rw [hlast] at hsame
  rwa [Option.some.inj hsame]

/-- Nothing but the last entries of the stacks counts. -/
lemma Canonical.unique (h : Canonical targets pairs) (h' : Canonical others pairs')
    (hlast : ∀ id, lastVersion targets id = lastVersion others id) : pairs = pairs' := by
  have hmem : ∀ pair, pair ∈ pairs ↔ pair ∈ pairs' := fun pair => by
    rw [h.mem_iff, h'.mem_iff, hlast]
  have hnodup := List.Nodup.of_map Prod.fst (nodup_of_increasing h.increasing)
  have hnodup' := List.Nodup.of_map Prod.fst (nodup_of_increasing h'.increasing)
  refine List.Perm.eq_of_pairwise (fun a b _ _ hab hba => ?_) h.increasing h'.increasing
    ((List.perm_ext_iff_of_nodup hnodup hnodup').2 hmem)
  exact absurd hba (Int64.lt_asymm hab)

/-- If no stack is listed twice, every entry is the last one of its stack. -/
lemma lastVersion_eq_some_iff (hnodup : (targets.map (·.id)).Nodup) :
    lastVersion targets id = some version ↔ ⟨id, version⟩ ∈ targets := by
  induction targets with
  | nil => simp [lastVersion]
  | cons target targets ih =>
    rw [List.map_cons, List.nodup_cons] at hnodup
    rw [lastVersion_cons, List.mem_cons]
    by_cases hid : target.id = id
    · subst hid
      have hnone : lastVersion targets target.id = none := by
        rw [← Option.not_isSome_iff_eq_none, lastVersion_isSome]
        exact hnodup.1
      have hnotMem : ⟨target.id, version⟩ ∉ targets := fun hmem =>
        hnodup.1 (List.mem_map.2 ⟨_, hmem, rfl⟩)
      obtain ⟨key, value⟩ := target
      simp [hnone, hnotMem, eq_comm]
    · have hne : ⟨id, version⟩ ≠ target := by
        rintro rfl
        exact hid rfl
      rw [if_neg hid, Option.or_none, ih hnodup.2, or_iff_right hne]

/-- The order of a list in which no stack is listed twice does not matter. -/
lemma lastVersion_of_perm (hperm : targets.Perm others) (hnodup : (targets.map (·.id)).Nodup)
    (id : Int64) : lastVersion targets id = lastVersion others id := by
  have hnodup' : (others.map (·.id)).Nodup := (hperm.map _).nodup_iff.1 hnodup
  refine Option.ext fun version => ?_
  rw [lastVersion_eq_some_iff hnodup, lastVersion_eq_some_iff hnodup', hperm.mem_iff]

end Lists

namespace StackVersions

variable {targets : List StackTarget} {versions : StackVersions}

lemma sorted_perm (versions : StackVersions) : versions.sorted.Perm versions.entries :=
  List.mergeSort_perm _ _

/-- Since no identifier occurs twice, sorting by the identifiers leaves no choice. -/
lemma increasing_sorted (versions : StackVersions) :
    versions.sorted.Pairwise fun a b => a.1 < b.1 := by
  have hle : versions.sorted.Pairwise fun a b => decide (a.1 ≤ b.1) = true := by
    refine List.pairwise_mergeSort (fun a b c hab hbc => ?_) (fun a b => ?_) versions.entries
    · rw [decide_eq_true_eq] at hab hbc ⊢
      exact Int64.le_trans hab hbc
    · rw [Bool.or_eq_true, decide_eq_true_eq, decide_eq_true_eq]
      exact Int64.le_total a.1 b.1
  have hne : versions.sorted.Pairwise fun a b => a.1 ≠ b.1 :=
    List.pairwise_map.1 ((versions.sorted_perm.map Prod.fst).nodup_iff.2 versions.nodup)
  exact (hle.and hne).imp fun h => Int64.lt_of_le_of_ne (of_decide_eq_true h.1) h.2

/-- Sorting the map of a list, in whichever order its entries come, gives its canonical form. -/
lemma canonical_sorted (h : versions.entries.Perm (ofTargets targets).entries) :
    Canonical targets versions.sorted := by
  have hperm := versions.sorted_perm.trans h
  have hwins := lastWins_ofTargets targets
  have hids : ∀ id, id ∈ versions.sorted.map Prod.fst ↔ id ∈ targets.map (·.id) :=
    fun id => (hperm.map Prod.fst).mem_iff.trans (hwins.keys id)
  refine ⟨versions.increasing_sorted, hids,
    fun id version hmem => hwins.values id version (hperm.mem_iff.1 hmem), ?_⟩
  have hsame : (versions.sorted.map Prod.fst).Perm (targets.map (·.id)).dedup := by
    rw [List.perm_ext_iff_of_nodup (nodup_of_increasing versions.increasing_sorted)
      (List.nodup_dedup _)]
    exact fun id => (hids id).trans List.mem_dedup.symm
  rw [← hsame.length_eq, List.length_map]

end StackVersions

namespace LoggingCollaborators
open LogRecord (pairList)

/-- The reconciler writes one record about the map of a list of targets, in whichever order the
map gives its entries: the canonical form of the list and the number of its stacks.  It is the
same for every list with the same last entries, and so, if no stack is listed twice, for every
order of the list. -/
theorem reconcile_canonical {targets : List StackTarget} {versions : StackVersions}
    (h : versions.entries.Perm (StackVersions.ofTargets targets).entries) :
    (∃ pairs, reconcile versions = [.stackTargetsReceived pairs] ∧ Canonical targets pairs ∧
      (LogRecord.stackTargetsReceived pairs).fields =
        [("stack_count", .integer (targets.map (·.id)).dedup.length),
          ("targets", .text (pairList pairs))]) ∧
    ∀ {others : List StackTarget} {otherVersions : StackVersions},
      otherVersions.entries.Perm (StackVersions.ofTargets others).entries →
      ((∀ id, lastVersion targets id = lastVersion others id) →
        reconcile otherVersions = reconcile versions) ∧
      (targets.Perm others → (targets.map (·.id)).Nodup →
        reconcile otherVersions = reconcile versions) := by
  have hcanonical := StackVersions.canonical_sorted h
  refine ⟨⟨versions.sorted, rfl, hcanonical, ?_⟩, fun {others otherVersions} hothers => ?_⟩
  · rw [LogRecord.fields, hcanonical.count]
  · have hsame : (∀ id, lastVersion targets id = lastVersion others id) →
        reconcile otherVersions = reconcile versions := by
      intro hlast
      rw [reconcile, reconcile,
        hcanonical.unique (StackVersions.canonical_sorted hothers) hlast]
    exact ⟨hsame, fun hperm hnodup => hsame (lastVersion_of_perm hperm hnodup)⟩

/-- Three entries for two stacks. -/
def thrice : List StackTarget := [⟨5, 1⟩, ⟨-3, 2⟩, ⟨5, 9⟩]

/-- Their last entries. -/
def twice : List StackTarget := [⟨5, 9⟩, ⟨-3, 2⟩]

/-- The map of the three entries, given from its end. -/
def backwards : StackVersions := ⟨[(-3, 2), (5, 9)], by decide⟩

/-- The map of three entries, given from its end, is written down in the order of its two stacks,
and the last entries alone are written down alike, also in the other order. -/
theorem written_alike :
    backwards.entries.Perm (StackVersions.ofTargets thrice).entries ∧
    backwards.entries ≠ (StackVersions.ofTargets thrice).entries ∧
    (∃ pairs, reconcile backwards = [.stackTargetsReceived pairs] ∧ Canonical thrice pairs ∧
      (LogRecord.stackTargetsReceived pairs).fields.head? = some ("stack_count", .integer 2)) ∧
    reconcile (StackVersions.ofTargets twice) = reconcile backwards ∧
    reconcile (StackVersions.ofTargets twice.reverse) =
      reconcile (StackVersions.ofTargets twice) := by
  have hperm : backwards.entries.Perm (StackVersions.ofTargets thrice).entries := by decide
  obtain ⟨⟨pairs, hrecord, hcanonical, hfields⟩, hsame⟩ := reconcile_canonical hperm
  obtain ⟨-, hsame'⟩ := reconcile_canonical (List.Perm.refl (StackVersions.ofTargets twice).entries)
  refine ⟨hperm, by decide, ⟨pairs, hrecord, hcanonical, ?_⟩,
    (hsame (List.Perm.refl _)).1 fun id => ?_,
    (hsame' (List.Perm.refl _)).2 (by decide) (by decide)⟩
  · have hcount : (thrice.map (·.id)).dedup.length = 2 := by decide
    rw [hfields, hcount]
    rfl
  · by_cases hid : (5 : Int64) = id
    · subst hid
      decide
    · simp [thrice, twice, lastVersion, List.find?_cons, hid]

end LoggingCollaborators

end CheckIn
