import SlotPool.Failure.Network
/-!
Which failures count as absence. A failure is a tree: a named step has its cause below it and a collection its members.
It counts as absence exactly if everything at its ends is an absent thing and there is something at every end, so no
other failure is lost in a deletion that tolerates absence.
-/

namespace SlotPool.NetworkError

/-- A failure is part of another: it is the other, or part of the cause of a step or of a member of a collection. -/
inductive PartOf (part : NetworkError) : NetworkError → Prop
  | whole : PartOf part part
  | cause {name : String} {cause : NetworkError} (hpart : PartOf part cause) : PartOf part (.step name cause)
  | member {errors : List NetworkError} {error : NetworkError} (hmem : error ∈ errors) (hpart : PartOf part error) :
    PartOf part (.multiple errors)

/-- A failure with no others below it. -/
def IsLeaf : NetworkError → Prop
  | .step .. | .multiple _ => False
  | _ => True

/-- A failure consists of absent things: no collection in it is empty, and all its leaves are absent things. -/
structure Absence (error : NetworkError) : Prop where
  inhabited : ¬ PartOf (.multiple []) error
  leaves : ∀ leaf, PartOf leaf error → leaf.IsLeaf → ∃ what, leaf = .notFound what

variable {error cause : NetworkError} {errors : List NetworkError} {name : String}

/-- A failure at an end of the tree has no part but itself. -/
theorem IsLeaf.partOf_iff {part : NetworkError} (hleaf : error.IsLeaf) : part.PartOf error ↔ part = error := by
  constructor
  · intro hpart
    cases hpart with
    | whole => rfl
    | cause | member => exact hleaf.elim
  · rintro rfl
    exact .whole

/-- At an end of the tree only an absent thing counts as absence. -/
theorem IsLeaf.absence_iff (hleaf : error.IsLeaf) : error.Absence ↔ ∃ what, error = .notFound what := by
  refine ⟨fun h => h.leaves error .whole hleaf, fun habsent => ⟨fun hempty => ?_, fun leaf hpart _ => ?_⟩⟩
  · obtain rfl := hleaf.partOf_iff.mp hempty
    exact hleaf
  · obtain rfl := hleaf.partOf_iff.mp hpart
    exact habsent

/-- A named step counts as absence just when its cause does. -/
theorem absence_step : (step name cause).Absence ↔ cause.Absence := by
  constructor
  · intro h
    exact ⟨fun hempty => h.inhabited (.cause hempty), fun leaf hpart => h.leaves leaf (.cause hpart)⟩
  · intro h
    refine ⟨fun hempty => ?_, fun leaf hpart hleaf => ?_⟩
    · cases hempty with
      | cause hpart => exact h.inhabited hpart
    · cases hpart with
      | whole => exact hleaf.elim
      | cause hpart => exact h.leaves leaf hpart hleaf

/-- Several failures count as absence when there is one and each of them does. An empty collection has no ends,
    and it does not count. -/
theorem absence_multiple : (multiple errors).Absence ↔ errors ≠ [] ∧ ∀ error ∈ errors, error.Absence := by
  constructor
  · intro h
    refine ⟨fun hempty => h.inhabited (hempty ▸ .whole), fun error hmem => ⟨fun hempty => ?_, fun leaf hpart => ?_⟩⟩
    · exact h.inhabited (.member hmem hempty)
    · exact h.leaves leaf (.member hmem hpart)
  · rintro ⟨hsome, hall⟩
    refine ⟨fun hempty => ?_, fun leaf hpart hleaf => ?_⟩
    · cases hempty with
      | whole => exact hsome rfl
      | member hmem hpart => exact (hall _ hmem).inhabited hpart
    · cases hpart with
      | whole => exact hleaf.elim
      | member hmem hpart => exact (hall _ hmem).leaves leaf hpart hleaf

/-- A leaf is taken for absence only if it is an absent thing. -/
theorem IsLeaf.isNotFound_iff (hleaf : error.IsLeaf) : error.isNotFound = true ↔ error.Absence := by
  rw [hleaf.absence_iff]
  cases error with
  | notFound what => exact iff_of_true rfl ⟨what, rfl⟩
  | step | multiple => exact hleaf.elim
  | _ => exact iff_of_false Bool.false_ne_true nofun

-- the recursion is that of the failures themselves, with their lists beside them
mutual

/-- The test that deletions use decides absence. The recursion is that of the tree: a step goes to its cause, a
    collection to its members, and everything else is an end. -/
theorem isNotFound_iff_absence : (error : NetworkError) → (error.isNotFound = true ↔ error.Absence)
  | .step _ cause => (isNotFound_iff_absence cause).trans absence_step.symm
  | .multiple errors => by
    rw [absence_multiple, ← allNotFound_iff errors, isNotFound, Bool.and_eq_true, Bool.not_eq_true',
      List.isEmpty_eq_false_iff]
  | .command .. | .spawn .. | .systemCall .. | .io .. | .notFound _ | .firewallMissing _ | .workerGone =>
    IsLeaf.isNotFound_iff trivial

theorem allNotFound_iff : (errors : List NetworkError) →
    (allNotFound errors = true ↔ ∀ error ∈ errors, error.Absence)
  | [] => iff_of_true rfl nofun
  | error :: rest => by
    rw [allNotFound, Bool.and_eq_true, isNotFound_iff_absence error, allNotFound_iff rest, List.forall_mem_cons]

end

/-- Steps around an operation are found around its failure, the outermost first. -/
theorem foldr_inStep {α : Type} (names : List String) :
    names.foldr inStep (.error error : Except NetworkError α) = .error (names.foldr step error) := by
  induction names with
  | nil => rfl
  | cons name names ih => rw [List.foldr_cons, ih, List.foldr_cons, inStep]

theorem isNotFound_foldr_step (names : List String) :
    (names.foldr step error).isNotFound = error.isNotFound := by
  induction names with
  | nil => rfl
  | cons name names ih => exact ih

/-- Several failures are told as one that counts as absence exactly if there are some and all of them do. -/
theorem ofMany_isNotFound_iff : (∃ error, ofMany errors = .error error ∧ error.isNotFound = true) ↔
    errors ≠ [] ∧ ∀ error ∈ errors, error.isNotFound = true := by
  match errors with
  | [] => simp [ofMany]
  | [only] => simp [ofMany]
  | first :: second :: rest =>
    simp only [ofMany, Except.error.injEq, exists_eq_left', isNotFound_iff_absence, absence_multiple]

/-- Absence is never read into a failure. What counts as absence consists of absent things only, whatever steps it is
told in and however many failures are told together; and a deletion that tolerates absence passes on every failure that
holds anything else, just as it is. -/
theorem absence_exact :
    (∀ error : NetworkError, error.isNotFound = true ↔ error.Absence) ∧
    (∀ (α : Type) (names : List String) (error : NetworkError), ∃ told,
      names.foldr inStep (.error error : Except NetworkError α) = .error told ∧ told.isNotFound = error.isNotFound) ∧
    (∀ errors, (∃ error, ofMany errors = .error error ∧ error.isNotFound = true) ↔
      errors ≠ [] ∧ ∀ error ∈ errors, error.isNotFound = true) ∧
    (∀ error, (tolerateAbsent (.error error) = .ok () ↔ error.Absence) ∧
      (tolerateAbsent (.error error) = .error error ↔ ¬ error.Absence)) ∧
    tolerateAbsent (.ok ()) = .ok () := by
  refine ⟨isNotFound_iff_absence, fun α names error => ?_, fun errors => ofMany_isNotFound_iff, fun error => ?_, rfl⟩
  · exact ⟨_, foldr_inStep names, isNotFound_foldr_step names⟩
  · rw [← isNotFound_iff_absence, tolerateAbsent]
    cases error.isNotFound with
    | true => simp
    | false => simp

end SlotPool.NetworkError
