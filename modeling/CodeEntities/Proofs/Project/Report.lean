import CodeEntities.Project.Batch

namespace CodeEntities

namespace FileOutcome

variable {outcome : FileOutcome}

@[simp]
theorem analysis?_eq_some {analysis : FileAnalysis} :
    outcome.analysis? = some analysis ↔ outcome = .analyzed analysis := by
  cases outcome <;> simp [analysis?]

@[simp]
theorem failure?_eq_some {failure : FileFailure} :
    outcome.failure? = some failure ↔ outcome = .failed failure := by
  cases outcome <;> simp [failure?]

end FileOutcome

namespace BatchReport

section ByPath

variable {α : Type} {path : α → String} {items others : List α}

theorem byPath_perm (path : α → String) (items : List α) : (byPath path items).Perm items :=
  List.mergeSort_perm items _

theorem byPath_ordered (path : α → String) (items : List α) :
    (byPath path items).Pairwise fun x y => path x ≤ path y := by
  have ordered : (byPath path items).Pairwise fun x y => !decide (path y < path x) := by
    apply List.pairwise_mergeSort
    · intro x y z front behind
      simp only [Bool.not_eq_true', decide_eq_false_iff_not, String.not_lt] at front behind ⊢
      exact String.le_trans front behind
    · intro x y
      simp only [Bool.or_eq_true, Bool.not_eq_true', decide_eq_false_iff_not, String.not_lt]
      exact String.le_total (path x) (path y)
  refine ordered.imp fun found => ?_
  rwa [Bool.not_eq_true', decide_eq_false_iff_not, String.not_lt] at found

theorem byPath_strict (distinct : (items.map path).Nodup) :
    (byPath path items).Pairwise fun x y => path x < path y := by
  have different : ((byPath path items).map path).Nodup :=
    ((byPath_perm path items).map path).nodup_iff.mpr distinct
  have apart := (byPath_ordered path items).and (List.pairwise_map.mp different)
  refine apart.imp fun ⟨ordered, different⟩ => Decidable.byContradiction fun behind => ?_
  exact different (String.le_antisymm ordered (String.not_lt.mp behind))

theorem byPath_of_perm (distinct : (items.map path).Nodup) (perm : items.Perm others) :
    byPath path items = byPath path others := by
  have distinct' : (others.map path).Nodup := (perm.map path).nodup_iff.mp distinct
  have same : (byPath path items).Perm (byPath path others) :=
    (byPath_perm path items).trans (perm.trans (byPath_perm path others).symm)
  refine List.Perm.eq_of_pairwise ?_ (byPath_strict distinct) (byPath_strict distinct') same
  intro x y _ _ front behind
  exact absurd behind (String.lt_asymm front)

end ByPath

variable {outcomes others : List FileOutcome}

theorem mem_ofOutcomes_analyses {analysis : FileAnalysis} :
    analysis ∈ (ofOutcomes outcomes).analyses ↔ .analyzed analysis ∈ outcomes := by
  rw [ofOutcomes, (byPath_perm _ _).mem_iff, List.mem_filterMap]
  simp

theorem mem_ofOutcomes_failures {failure : FileFailure} :
    failure ∈ (ofOutcomes outcomes).failures ↔ .failed failure ∈ outcomes := by
  rw [ofOutcomes, (byPath_perm _ _).mem_iff, List.mem_filterMap]
  simp

theorem found_paths_perm (outcomes : List FileOutcome) :
    ((outcomes.filterMap (·.analysis?)).map (·.path) ++
      (outcomes.filterMap (·.failure?)).map (·.path)).Perm (outcomes.map (·.path)) := by
  induction outcomes with
  | nil => rfl
  | cons outcome outcomes ih =>
    cases outcome with
    | analyzed analysis => exact ih.cons analysis.path
    | failed failure => exact List.perm_middle.trans (ih.cons failure.path)

theorem ofOutcomes_paths_perm (outcomes : List FileOutcome) :
    ((ofOutcomes outcomes).analyses.map (·.path) ++
      (ofOutcomes outcomes).failures.map (·.path)).Perm (outcomes.map (·.path)) :=
  (((byPath_perm _ _).map _).append ((byPath_perm _ _).map _)).trans (found_paths_perm outcomes)

section Distinct

variable (distinct : (outcomes.map (·.path)).Nodup)

include distinct

theorem found_paths_distinct :
    ((outcomes.filterMap (·.analysis?)).map (·.path)).Nodup ∧
      ((outcomes.filterMap (·.failure?)).map (·.path)).Nodup := by
  have both := (found_paths_perm outcomes).nodup_iff.mpr distinct
  exact ⟨(List.nodup_append.mp both).1, (List.nodup_append.mp both).2.1⟩

theorem ofOutcomes_strict :
    ((ofOutcomes outcomes).analyses.Pairwise fun x y => x.path < y.path) ∧
      (ofOutcomes outcomes).failures.Pairwise fun x y => x.path < y.path :=
  (found_paths_distinct distinct).imp byPath_strict byPath_strict

-- A report says nothing of the order in which the outcomes came in.
theorem ofOutcomes_of_perm (perm : outcomes.Perm others) :
    ofOutcomes outcomes = ofOutcomes others := by
  obtain ⟨analyses, failures⟩ := found_paths_distinct distinct
  rw [ofOutcomes, byPath_of_perm analyses (perm.filterMap _),
    byPath_of_perm failures (perm.filterMap _)]
  rfl

end Distinct

end BatchReport

end CodeEntities
