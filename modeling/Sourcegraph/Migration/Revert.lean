import Sourcegraph.Lang.Entries
import Mathlib.Data.Fintype.Card

/-! `desugarRevert` of the migration runner. It counts, for every version, the applied
versions that name it as a parent, in a Go map `counts` that also gets an entry for
every applied version with a definition; the keys of count zero are the applied
versions without an applied child, and the revert targets the parents of the only one.
The map is a list of entries in insertion order. Go ranges over a map in no fixed
order, but `desugarRevert` reads only how many leaves there are and, when there is one,
which (`revertTo_perm`). -/

namespace Sourcegraph.Migration

/-- `MigrationOperationType`. -/
inductive MigrationOperationType where
  | targetedUp
  | targetedDown
  | upgrade
  | revert
  deriving DecidableEq, Repr

/-- `MigrationOperation`. -/
structure MigrationOperation where
  schemaName : String
  type : MigrationOperationType
  targetVersions : List Int
  deriving DecidableEq, Repr

/-- Modelled from the spec: a migration definition (not under src/), with the fields
`desugarRevert` reads, its ID and its parents. -/
structure Definition where
  id : Int
  parents : List Int
  deriving DecidableEq, Repr

/-- Modelled from the spec: `Definitions.GetByID` (not under src/), the definition with
the ID. -/
def getByID (definitions : List Definition) (id : Int) : Option Definition :=
  definitions.find? (·.id = id)

/-- The fields of `schemaContext` that `desugarRevert` reads: the schema's definitions and
the applied versions of the initial schema version. -/
structure SchemaContext where
  definitions : List Definition
  appliedVersions : List Int
  deriving DecidableEq, Repr

/-! ## The map `counts` -/

/-- `counts[k]`, zero for a missing key. -/
def countOf (counts : List (Int × Nat)) (k : Int) : Nat := (Entries.get? counts k).getD 0

/-- One iteration of the loop over the applied versions. -/
def countVersion (definitions : List Definition) (counts : List (Int × Nat)) (version : Int) :
    List (Int × Nat) :=
  match getByID definitions version with
  | none => counts
  | some definition =>
    let counts := definition.parents.foldl
      (fun counts parent => Entries.set counts parent (countOf counts parent + 1)) counts
    Entries.set counts definition.id (countOf counts definition.id + 0)

/-- The loop over `counts`: the versions of count zero, in the order of the entries. -/
def leafVersions (counts : List (Int × Nat)) : List Int := (counts.filter (·.2 = 0)).map (·.1)

/-- The `switch` on the leaf versions. -/
def revertTo (definitions : List Definition) (operation : MigrationOperation) :
    List Int → Except String MigrationOperation
  | [] => .error "nothing to revert"
  | [v] =>
    match getByID definitions v with
    | none => .error s!"unknown version {v}"
    | some definition => .ok ⟨operation.schemaName, .targetedDown, definition.parents⟩
  | _ :: _ :: _ => .error "ambiguous revert"

/-- `desugarRevert`. -/
def desugarRevert (schemaContext : SchemaContext) (operation : MigrationOperation) :
    Except String MigrationOperation :=
  let counts := schemaContext.appliedVersions.foldl (countVersion schemaContext.definitions) []
  revertTo schemaContext.definitions operation (leafVersions counts)

/-! ## The applied versions and their leaves -/

/-- Whether `p` is a parent in the definition of `c`. -/
def isParentOf (definitions : List Definition) (p c : Int) : Bool :=
  match getByID definitions c with
  | some definition => decide (p ∈ definition.parents)
  | none => false

/-- The parent relation of the definitions. -/
def ParentOf (definitions : List Definition) (p c : Int) : Prop := isParentOf definitions p c = true

/-- `K`: the applied versions that have a definition. -/
def definedApplied (definitions : List Definition) (applied : List Int) : List Int :=
  applied.filter fun v => (getByID definitions v).isSome

/-- `L`: the versions of `K` that are a parent of no version of `K`. -/
def appliedLeaves (definitions : List Definition) (applied : List Int) : List Int :=
  (definedApplied definitions applied).filter fun v =>
    !(definedApplied definitions applied).any (isParentOf definitions v)

/-! ## Map lemmas -/

open Entries

theorem countOf_set (counts : List (Int × Nat)) (k j : Int) (n : Nat) :
    countOf (set counts k n) j = if j = k then n else countOf counts j := by
  simp only [countOf, get?_set]
  split_ifs <;> rfl

theorem countOf_of_mem {counts : List (Int × Nat)} (h : (keys counts).Nodup) {k : Int} {n : Nat}
    (hm : (k, n) ∈ counts) : countOf counts k = n := by
  simp [countOf, get?_of_mem h hm]

/-- The parents loop adds, to each key, its occurrences among the parents. -/
theorem foldl_parents (parents : List Int) :
    ∀ counts : List (Int × Nat), (keys counts).Nodup →
      let counts' := parents.foldl
        (fun counts parent => Entries.set counts parent (countOf counts parent + 1)) counts
      (keys counts').Nodup ∧ (∀ k, k ∈ keys counts' ↔ k ∈ keys counts ∨ k ∈ parents) ∧
        ∀ k, countOf counts' k = countOf counts k + parents.count k := by
  induction parents with
  | nil => intro counts h; simp [h]
  | cons p ps ih =>
    intro counts h
    obtain ⟨hnd, hkeys, hcount⟩ := ih _ (nodup_keys_set h p (countOf counts p + 1))
    refine ⟨hnd, fun k => ?_, fun k => ?_⟩
    · rw [List.foldl_cons, hkeys, mem_keys_set, List.mem_cons]
      simp only [or_assoc, or_comm, or_left_comm]
    · simp only [List.foldl_cons, hcount, countOf_set, List.count_cons, beq_iff_eq]
      split_ifs <;> subst_vars <;> omega

/-! ## The loop over the applied versions -/

/-- What `counts` holds once the loop has read versions whose defined ones are `K`. -/
structure CountsInv (definitions : List Definition) (K : List Int) (counts : List (Int × Nat)) : Prop where
  nodup : (keys counts).Nodup
  keys_iff : ∀ k, k ∈ keys counts ↔ k ∈ K ∨ ∃ c ∈ K, ParentOf definitions k c
  pos_iff : ∀ k, 0 < countOf counts k ↔ ∃ c ∈ K, ParentOf definitions k c

variable {definitions : List Definition}

theorem getByID_id {v : Int} {d : Definition} (h : getByID definitions v = some d) : d.id = v := by
  simpa using List.find?_some h

theorem parentOf_of_getByID {v : Int} {d : Definition} (h : getByID definitions v = some d) (k : Int) :
    ParentOf definitions k v ↔ k ∈ d.parents := by
  simp [ParentOf, isParentOf, h]

theorem definedApplied_append (applied : List Int) (v : Int) :
    definedApplied definitions (applied ++ [v]) =
      definedApplied definitions applied ++ if (getByID definitions v).isSome then [v] else [] := by
  simp [definedApplied, List.filter_append, List.filter_singleton]

theorem exists_parent_append (K : List Int) (k v : Int) :
    (∃ c ∈ K ++ [v], ParentOf definitions k c) ↔ (∃ c ∈ K, ParentOf definitions k c) ∨ ParentOf definitions k v := by
  simp [or_and_right, exists_or]

/-- One iteration keeps the invariant. -/
theorem CountsInv.countVersion {applied : List Int} {counts : List (Int × Nat)}
    (h : CountsInv definitions (definedApplied definitions applied) counts) (v : Int) :
    CountsInv definitions (definedApplied definitions (applied ++ [v])) (countVersion definitions counts v) := by
  rw [definedApplied_append]
  rcases hd : getByID definitions v with _ | d
  · simpa [Sourcegraph.Migration.countVersion, hd] using h
  · have hid := getByID_id hd
    have hpar := parentOf_of_getByID hd
    obtain ⟨hnd, hkeys, hcount⟩ := foldl_parents d.parents counts h.nodup
    simp only [Sourcegraph.Migration.countVersion, hd, Option.isSome_some, ite_true]
    refine ⟨nodup_keys_set hnd _ _, fun k => ?_, fun k => ?_⟩
    · rw [mem_keys_set, hkeys, h.keys_iff, exists_parent_append, hpar, hid, List.mem_append,
        List.mem_singleton]
      simp only [or_assoc, or_comm, or_left_comm]
    · have hc : 0 < countOf counts k + d.parents.count k ↔ 0 < countOf counts k ∨ k ∈ d.parents := by
        rw [← List.count_pos_iff]; omega
      rw [countOf_set, exists_parent_append, hpar, ← h.pos_iff, ← hc, ← hcount]
      split_ifs with e <;> simp [e]

/-- The whole loop keeps the invariant. -/
theorem countsInv_foldl (rest : List Int) :
    ∀ (applied : List Int) (counts : List (Int × Nat)),
      CountsInv definitions (definedApplied definitions applied) counts →
      CountsInv definitions (definedApplied definitions (applied ++ rest)) (rest.foldl (countVersion definitions) counts) := by
  induction rest with
  | nil => intro applied counts h; simpa using h
  | cons v rest ih =>
    intro applied counts h
    simpa using ih _ _ (h.countVersion v)

theorem mem_leafVersions {counts : List (Int × Nat)} (h : (keys counts).Nodup) {v : Int} :
    v ∈ leafVersions counts ↔ v ∈ keys counts ∧ countOf counts v = 0 := by
  simp only [leafVersions, keys, List.mem_map, List.mem_filter, decide_eq_true_eq]
  constructor
  · rintro ⟨⟨k, n⟩, ⟨hm, rfl⟩, rfl⟩
    exact ⟨⟨_, hm, rfl⟩, countOf_of_mem h hm⟩
  · rintro ⟨⟨⟨k, n⟩, hm, rfl⟩, hc⟩
    exact ⟨_, ⟨hm, by simpa [countOf_of_mem h hm] using hc⟩, rfl⟩

/-- **The leaves the loop finds.** For every applied list, the versions of count zero are
exactly `L`, and each once. -/
theorem leafVersions_eq_appliedLeaves (applied : List Int) :
    (leafVersions (applied.foldl (countVersion definitions) [])).Nodup ∧
      ∀ v, v ∈ leafVersions (applied.foldl (countVersion definitions) []) ↔
        v ∈ appliedLeaves definitions applied := by
  have h : CountsInv definitions (definedApplied definitions applied) (applied.foldl (countVersion definitions) []) := by
    simpa using countsInv_foldl applied [] [] ⟨List.nodup_nil, by simp [keys, definedApplied], by simp [countOf, get?, definedApplied]⟩
  refine ⟨((List.filter_sublist _).map _).nodup h.nodup, fun v => ?_⟩
  have hz : countOf (applied.foldl (countVersion definitions) []) v = 0 ↔
      ¬∃ c ∈ definedApplied definitions applied, ParentOf definitions v c := by
    rw [← h.pos_iff]; omega
  rw [mem_leafVersions h.nodup, h.keys_iff, hz]
  simp only [appliedLeaves, List.mem_filter, Bool.not_eq_true', List.any_eq_false, ParentOf]
  constructor
  · rintro ⟨hk | ⟨c, hc, hp⟩, hn⟩
    · exact ⟨hk, fun c hc hp => hn ⟨c, hc, hp⟩⟩
    · exact absurd ⟨c, hc, hp⟩ hn
  · rintro ⟨hk, hn⟩
    exact ⟨.inl hk, fun ⟨c, hc, hp⟩ => hn c hc hp⟩

/-! ## Acyclic definitions have a leaf -/

/-- With an acyclic parent relation, every non-empty set of versions has one that is a
parent of none of them. -/
theorem exists_leaf (hacyc : ∀ v, ¬Relation.TransGen (ParentOf definitions) v v) {K : List Int}
    {v : Int} (hv : v ∈ K) : ∃ m ∈ K, ∀ c ∈ K, ¬ParentOf definitions m c := by
  let S : {x // x ∈ K} → {x // x ∈ K} → Prop := fun a b => Relation.TransGen (ParentOf definitions) b.1 a.1
  haveI : IsTrans _ S := ⟨fun _ _ _ hab hbc => hbc.trans hab⟩
  haveI : IsIrrefl _ S := ⟨fun a => hacyc a.1⟩
  obtain ⟨m, -, hm⟩ := (Finite.wellFounded_of_trans_of_irrefl S).has_min Set.univ ⟨⟨v, hv⟩, trivial⟩
  exact ⟨m.1, m.2, fun c hc hp => hm ⟨c, hc⟩ trivial (.single hp)⟩

/-- Definitions whose parents all have smaller versions have an acyclic parent relation. -/
theorem acyclic_of_parents_lt (h : ∀ d ∈ definitions, ∀ p ∈ d.parents, p < d.id) :
    ∀ v, ¬Relation.TransGen (ParentOf definitions) v v := by
  have hlt : ∀ {p c}, ParentOf definitions p c → p < c := fun {p c} hp => by
    simp only [ParentOf, isParentOf] at hp
    split at hp
    · rename_i d hd
      exact getByID_id hd ▸ h d (List.mem_of_find?_eq_some hd) p (by simpa using hp)
    · cases hp
  have htrans : ∀ {a b}, Relation.TransGen (ParentOf definitions) a b → a < b := fun hab => by
    induction hab with
    | single hp => exact hlt hp
    | tail _ hp ih => exact ih.trans (hlt hp)
  exact fun v hv => lt_irrefl v (htrans hv)

/-! ## `desugarRevert` -/

theorem unknownVersion_ne (v : Int) :
    s!"unknown version {v}" ≠ "nothing to revert" ∧ s!"unknown version {v}" ≠ "ambiguous revert" := by
  constructor <;> intro h <;> have := congrArg (fun s => s.data.head?) h <;>
    simp [String.data_append] at this <;> exact absurd this (by decide)

/-- The `switch` reads only how many leaves there are and which, so any order of the map's
entries gives the same operation. -/
theorem revertTo_perm (operation : MigrationOperation) {l l' : List Int} (h : l.Perm l') :
    revertTo definitions operation l = revertTo definitions operation l' := by
  match l, l', h with
  | [], l', h => rw [List.Perm.nil_eq h]
  | [v], l', h => rw [List.perm_singleton.mp h.symm]
  | _ :: _ :: _, [], h => exact absurd h.length_eq (by simp)
  | _ :: _ :: _, [_], h => exact absurd h.length_eq (by simp)
  | _ :: _ :: _, _ :: _ :: _, _ => rfl

/-- **What a revert desugars to.** For every set of definitions with an acyclic parent
relation and every list of applied versions, with `K` the applied versions that have a
definition and `L` those of them that are a parent of none of them: `desugarRevert`
returns `nothing to revert` exactly when `K` is empty, `ambiguous revert` exactly when
`L` has two distinct versions, and otherwise a targeted down operation to the parents of
the one version of `L`; it never returns `unknown version`. -/
theorem desugarRevert_spec (schemaContext : SchemaContext) (operation : MigrationOperation)
    (hacyc : ∀ v, ¬Relation.TransGen (ParentOf schemaContext.definitions) v v) :
    (desugarRevert schemaContext operation = .error "nothing to revert" ↔
      definedApplied schemaContext.definitions schemaContext.appliedVersions = []) ∧
    (desugarRevert schemaContext operation = .error "ambiguous revert" ↔
      ∃ a ∈ appliedLeaves schemaContext.definitions schemaContext.appliedVersions,
        ∃ b ∈ appliedLeaves schemaContext.definitions schemaContext.appliedVersions, a ≠ b) ∧
    (∀ v ∈ appliedLeaves schemaContext.definitions schemaContext.appliedVersions,
      (∀ w ∈ appliedLeaves schemaContext.definitions schemaContext.appliedVersions, w = v) →
      ∃ d, getByID schemaContext.definitions v = some d ∧
        desugarRevert schemaContext operation = .ok ⟨operation.schemaName, .targetedDown, d.parents⟩) ∧
    ∀ v : Int, desugarRevert schemaContext operation ≠ .error s!"unknown version {v}" := by
  obtain ⟨hnd, hmem⟩ := @leafVersions_eq_appliedLeaves schemaContext.definitions
    schemaContext.appliedVersions
  have hK : ∀ v, v ∈ appliedLeaves schemaContext.definitions schemaContext.appliedVersions →
      v ∈ definedApplied schemaContext.definitions schemaContext.appliedVersions ∧
        ∃ d, getByID schemaContext.definitions v = some d := fun v hv => by
    have hv' := (List.mem_filter.mp hv).1
    exact ⟨hv', Option.isSome_iff_exists.mp (List.mem_filter.mp hv').2⟩
  dsimp only [desugarRevert]
  generalize leafVersions _ = lv at hnd hmem
  match lv, hnd, hmem with
  | [], _, hmem =>
    have hL : ∀ v, v ∉ appliedLeaves schemaContext.definitions schemaContext.appliedVersions :=
      fun v hv => by simpa using (hmem v).mpr hv
    refine ⟨⟨fun _ => List.eq_nil_iff_forall_not_mem.mpr fun v hv => ?_, fun _ => rfl⟩,
      ⟨fun h => by simp [revertTo] at h, fun ⟨a, ha, _⟩ => absurd ha (hL a)⟩,
      fun v hv => absurd hv (hL v), fun v h => (unknownVersion_ne v).1 (by simpa [revertTo] using h.symm)⟩
    obtain ⟨m, hm, hleaf⟩ := exists_leaf hacyc hv
    exact hL m (List.mem_filter.mpr ⟨hm, by simpa [List.any_eq_false, ParentOf] using hleaf⟩)
  | [v], _, hmem =>
    obtain ⟨hvK, d, hd⟩ := hK v ((hmem v).mp (List.mem_singleton_self v))
    have hr : revertTo schemaContext.definitions operation [v] = .ok ⟨operation.schemaName, .targetedDown, d.parents⟩ := by
      simp [revertTo, hd]
    refine ⟨⟨fun h => by simp [hr] at h, fun h => by simp [h] at hvK⟩, ⟨fun h => by simp [hr] at h, ?_⟩,
      fun w hw _ => ?_, fun w => by simp [hr]⟩
    · rintro ⟨a, ha, b, hb, hab⟩
      exact absurd ((List.mem_singleton.mp ((hmem a).mpr ha)).trans (List.mem_singleton.mp ((hmem b).mpr hb)).symm) hab
    · obtain rfl := List.mem_singleton.mp ((hmem w).mpr hw)
      exact ⟨d, hd, hr⟩
  | a :: b :: rest, hnd, hmem =>
    have ha := (hmem a).mp (List.mem_cons_self _ _)
    have hb := (hmem b).mp (List.mem_cons_of_mem _ (List.mem_cons_self _ _))
    have hab : a ≠ b := fun e => (List.nodup_cons.mp hnd).1 (e ▸ List.mem_cons_self _ _)
    refine ⟨⟨fun h => by simp [revertTo] at h, fun h => by have := (hK a ha).1; simp [h] at this⟩,
      ⟨fun _ => ⟨a, ha, b, hb, hab⟩, fun _ => rfl⟩, fun w _ hall => absurd ((hall a ha).trans (hall b hb).symm) hab,
      fun v h => (unknownVersion_ne v).2 (by simpa [revertTo] using h.symm)⟩

/-- Versions `1 ← 2` applied, `2` twice, and `3` applied with no definition. -/
def chainContext : SchemaContext := ⟨[⟨1, []⟩, ⟨2, [1]⟩], [1, 2, 2, 3]⟩

theorem desugarRevert_spec_chain :
    (∀ v, ¬Relation.TransGen (ParentOf chainContext.definitions) v v) ∧
    (desugarRevert chainContext ⟨"frontend", .revert, []⟩ = .error "nothing to revert" ↔
      definedApplied chainContext.definitions chainContext.appliedVersions = []) ∧
    (desugarRevert chainContext ⟨"frontend", .revert, []⟩ = .error "ambiguous revert" ↔
      ∃ a ∈ appliedLeaves chainContext.definitions chainContext.appliedVersions,
        ∃ b ∈ appliedLeaves chainContext.definitions chainContext.appliedVersions, a ≠ b) ∧
    (∀ v ∈ appliedLeaves chainContext.definitions chainContext.appliedVersions,
      (∀ w ∈ appliedLeaves chainContext.definitions chainContext.appliedVersions, w = v) →
      ∃ d, getByID chainContext.definitions v = some d ∧
        desugarRevert chainContext ⟨"frontend", .revert, []⟩ = .ok ⟨"frontend", .targetedDown, d.parents⟩) ∧
    ∀ v : Int, desugarRevert chainContext ⟨"frontend", .revert, []⟩ ≠ .error s!"unknown version {v}" :=
  have hacyc := @acyclic_of_parents_lt chainContext.definitions (by decide)
  ⟨hacyc, desugarRevert_spec chainContext ⟨"frontend", .revert, []⟩ hacyc⟩

example : desugarRevert chainContext ⟨"frontend", .revert, []⟩ = .ok ⟨"frontend", .targetedDown, [1]⟩ :=
  rfl

end Sourcegraph.Migration
