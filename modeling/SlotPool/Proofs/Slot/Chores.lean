import SlotPool.Proofs.Primitive.Recorded
import SlotPool.Proofs.Slot.Rules
import SlotPool.Slot.Removal
/-!
Sequences as lists of named calls. Such a list is either followed up to the first failure or followed to its end
whatever fails, and this is all that the record of a sequence shows: which calls were made, in which order, and what
is told of those that failed.
-/

namespace SlotPool

/-- A call of a sequence, with the names of the steps of which it is part, the outermost first. -/
structure Chore where
  steps : List String
  call : Call
  /-- whether the call counts as done when it finds nothing to act on -/
  tolerant : Bool

namespace Chore

/-- A call of which every failure counts. -/
def strict (name : String) (call : Call) : Chore := ⟨[name], call, false⟩

/-- A call that may find nothing to act on. -/
def lenient (name : String) (call : Call) : Chore := ⟨[name], call, true⟩

/-- A chore as part of one step more. -/
def within (name : String) (chore : Chore) : Chore := { chore with steps := name :: chore.steps }

/-- What is told of a failure: its cause, and the steps in which it occurred. -/
def blame (chore : Chore) (cause : NetworkError) : NetworkError := chore.steps.foldr .step cause

/-- What failed, if the result of the call counts as a failure. -/
def failure? {α : Type} (chore : Chore) : Except NetworkError α → Option NetworkError
  | .ok _ => none
  | .error cause => if chore.tolerant && cause.isNotFound then none else some (chore.blame cause)

theorem blame_isNotFound (chore : Chore) (cause : NetworkError) :
    (chore.blame cause).isNotFound = cause.isNotFound := by
  obtain ⟨steps, call, tolerant⟩ := chore
  induction steps with
  | nil => rfl
  | cons name steps ih => exact ih

/-- What is told of a failure begins with the outermost step. -/
theorem blame_of_head {chore : Chore} {name : String} {cause : NetworkError} (h : chore.steps.head? = some name) :
    chore.blame cause = .step name ({ chore with steps := chore.steps.tail }.blame cause) := by
  obtain ⟨steps, call, tolerant⟩ := chore
  cases steps with
  | nil => cases h
  | cons first rest =>
    obtain rfl := Option.some.inj h
    rfl

/-- A chore that is part of one step more fails exactly when it failed before, and its failure is told with the
    name of that step. -/
theorem within_failure? {α : Type} (name : String) (chore : Chore) (result : Except NetworkError α) :
    (chore.within name).failure? result = (chore.failure? result).map (.step name) := by
  cases result with
  | ok value => rfl
  | error cause =>
    rw [failure?, failure?, apply_ite (Option.map _)]
    rfl

theorem within_passed {α : Type} {name : String} {chore : Chore} {result : Except NetworkError α}
    (h : chore.failure? result = none) : (chore.within name).failure? result = none := by
  rw [within_failure?, h, Option.map_none]

theorem within_failed {α : Type} {name : String} {chore : Chore} {result : Except NetworkError α}
    {failure : NetworkError} (h : chore.failure? result = some failure) :
    (chore.within name).failure? result = some (.step name failure) := by
  rw [within_failure?, h, Option.map_some]

end Chore

/-! ### Up to the first failure -/

/-- Chores that are done one after another up to the first that fails: the calls that are made, and the end. -/
inductive Stopping : List Chore → List Record → Except NetworkError Unit → Prop
  | done : Stopping [] [] (.ok ())
  | pass {chore : Chore} {chores : List Chore} {records : List Record} {ended : Except NetworkError Unit}
      {result : Except NetworkError chore.call.Reply} (hpassed : chore.failure? result = none)
      (hrest : Stopping chores records ended) :
      Stopping (chore :: chores) (⟨chore.call, .returned result⟩ :: records) ended
  | stop {chore : Chore} {chores : List Chore} {failure : NetworkError}
      {result : Except NetworkError chore.call.Reply} (hfailed : chore.failure? result = some failure) :
      Stopping (chore :: chores) [⟨chore.call, .returned result⟩] (.error failure)

namespace Stopping

variable {chores more : List Chore} {records rest : List Record} {ended : Except NetworkError Unit}
  {failure : NetworkError}

/-- When all chores of a list have passed, the chores of a second list follow. The end is that of the second
    list. -/
theorem append (h : Stopping chores records (.ok ())) (hrest : Stopping more rest ended) :
    Stopping (chores ++ more) (records ++ rest) ended := by
  generalize hok : (Except.ok () : Except NetworkError Unit) = passed at h
  induction h with
  | done => exact hrest
  | pass hpassed _ ih => exact .pass hpassed (ih hok)
  | stop => cases hok

/-- What comes after a failure is not begun. -/
theorem skip (h : Stopping chores records (.error failure)) : Stopping (chores ++ more) records (.error failure) := by
  generalize herror : (Except.error failure : Except NetworkError Unit) = failed at h ⊢
  induction h with
  | done => cases herror
  | pass hpassed _ ih => exact .pass hpassed (ih herror)
  | stop hfailed => exact .stop hfailed

/-- Chores as part of one step more. -/
theorem within {name : String} (h : Stopping chores records ended) :
    Stopping (chores.map (·.within name)) records (NetworkError.inStep name ended) := by
  induction h with
  | done => exact .done
  | pass hpassed _ ih => exact .pass (Chore.within_passed hpassed) ih
  | stop hfailed => exact .stop (Chore.within_failed hfailed)

/-- The calls are the first of the list. -/
theorem calls_prefix (h : Stopping chores records ended) : records.map (·.call) <+: chores.map (·.call) := by
  induction h with
  | done => exact List.prefix_rfl
  | pass _ _ ih => exact List.cons_prefix_cons.mpr ⟨rfl, ih⟩
  | stop => exact List.cons_prefix_cons.mpr ⟨rfl, List.nil_prefix⟩

/-- Every call on record is that of a chore. -/
theorem call_mem {record : Record} (h : Stopping chores records ended) (hmem : record ∈ records) :
    ∃ chore ∈ chores, chore.call = record.call :=
  List.mem_map.mp (h.calls_prefix.subset (List.mem_map_of_mem hmem))

/-- A list that is gone through is gone through as a whole. -/
theorem calls_eq (h : Stopping chores records (.ok ())) : records.map (·.call) = chores.map (·.call) := by
  generalize hok : (Except.ok () : Except NetworkError Unit) = passed at h
  induction h with
  | done => rfl
  | pass _ _ ih => exact congrArg _ (ih hok)
  | stop => cases hok

/-- Who is to blame is one of the chores, and what is told of it is what failed there, with the steps in which
    it happened. A chore that may find nothing is never to blame for that. -/
theorem blamed (h : Stopping chores records (.error failure)) :
    ∃ chore ∈ chores, ∃ cause, failure = chore.blame cause ∧ (chore.tolerant = true → cause.isNotFound = false) := by
  generalize herror : (Except.error failure : Except NetworkError Unit) = failed at h
  induction h with
  | done => cases herror
  | pass _ _ ih =>
    obtain ⟨chore, hmem, hblame⟩ := ih herror
    exact ⟨chore, List.mem_cons_of_mem _ hmem, hblame⟩
  | @stop chore _ told result hfailed =>
    obtain rfl := Except.error.inj herror
    cases result with
    | ok value => cases hfailed
    | error cause =>
      simp only [Chore.failure?] at hfailed
      split at hfailed
      · cases hfailed
      · rename_i hcounts
        exact ⟨chore, List.mem_cons_self .., cause, (Option.some.inj hfailed).symm, by grind⟩

end Stopping

/-! ### Whatever fails -/

/-- A look for something by its name. -/
inductive Probe
  | link (name : String)
  | named (name : String)

/-- The record of a look. -/
def Probe.record (answer : Except NetworkError Bool) : Probe → Record
  | .link name => ⟨.linkExists name, .returned answer⟩
  | .named name => ⟨.namespaceExists name, .returned answer⟩

/-- What is to be tried: a chore, or a chore for which a look decides whether there is anything to do. -/
inductive Duty
  | always (chore : Chore)
  | ifFound (step : String) (probe : Probe) (chore : Chore)

/-- Duties that are all tried: the calls that are made, and what failed, in order. A look that fails is told of
    whatever its failure, and then there is nothing to do. -/
inductive Trying : List Duty → List Record → List NetworkError → Prop
  | done : Trying [] [] []
  | tried {chore : Chore} {duties : List Duty} {records : List Record} {failures : List NetworkError}
      {result : Except NetworkError chore.call.Reply} (hrest : Trying duties records failures) :
      Trying (.always chore :: duties) (⟨chore.call, .returned result⟩ :: records)
        ((chore.failure? result).toList ++ failures)
  | found {step : String} {probe : Probe} {chore : Chore} {duties : List Duty} {records : List Record}
      {failures : List NetworkError} (hrest : Trying (.always chore :: duties) records failures) :
      Trying (.ifFound step probe chore :: duties) (probe.record (.ok true) :: records) failures
  | missing {step : String} {probe : Probe} {chore : Chore} {duties : List Duty} {records : List Record}
      {failures : List NetworkError} (hrest : Trying duties records failures) :
      Trying (.ifFound step probe chore :: duties) (probe.record (.ok false) :: records) failures
  | unseen {step : String} {probe : Probe} {chore : Chore} {duties : List Duty} {records : List Record}
      {failures : List NetworkError} {cause : NetworkError} (hrest : Trying duties records failures) :
      Trying (.ifFound step probe chore :: duties) (probe.record (.error cause) :: records)
        (.step step cause :: failures)

/-- Chores that are tried without a look first are all done, once each and in order, whatever comes of them. -/
theorem Trying.calls {chores : List Chore} {records : List Record} {failures : List NetworkError}
    (h : Trying (chores.map .always) records failures) : records.map (·.call) = chores.map (·.call) := by
  generalize hduties : chores.map Duty.always = duties at h
  induction h generalizing chores with
  | done =>
    obtain rfl := List.map_eq_nil_iff.mp hduties
    rfl
  | tried _ ih =>
    obtain ⟨first, rest, rfl, hfirst, hrest⟩ := List.map_eq_cons_iff.mp hduties
    cases hfirst
    exact congrArg _ (ih hrest)
  | found | missing | unseen =>
    obtain ⟨first, rest, rfl, hfirst, -⟩ := List.map_eq_cons_iff.mp hduties
    cases hfirst

/-- Duties that are all tried can be put one list after another: the calls are made one after another, and the
    failures are told in the same order. -/
theorem Trying.append {duties more : List Duty} {records rest : List Record} {failures others : List NetworkError}
    (h : Trying duties records failures) (hrest : Trying more rest others) :
    Trying (duties ++ more) (records ++ rest) (failures ++ others) := by
  induction h with
  | done => exact hrest
  | tried _ ih =>
    rw [List.append_assoc]
    exact .tried ih
  | found _ ih => exact .found ih
  | missing _ ih => exact .missing ih
  | unseen _ ih => exact .unseen ih

/-- How several failures are told as one result. -/
structure Told (failures : List NetworkError) (result : Except NetworkError Unit) : Prop where
  none_iff : result = .ok () ↔ failures = []
  single : ∀ failure, failures = [failure] → result = .error failure
  several : 1 < failures.length → result = .error (.multiple failures)

/-- No failure is told as a success, one failure as itself and several as one failure that lists them. This is
    how the failures of all attempted sequences are put together. -/
theorem told_ofMany (failures : List NetworkError) : Told failures (NetworkError.ofMany failures) := by
  match failures with
  | [] => exact ⟨⟨fun _ => rfl, fun _ => rfl⟩, nofun, nofun⟩
  | [only] =>
    refine ⟨⟨nofun, nofun⟩, fun failure h => ?_, fun h => absurd h (by simp)⟩
    rw [(List.cons.inj h).1]
    rfl
  | first :: second :: rest => exact ⟨⟨nofun, nofun⟩, nofun, fun _ => rfl⟩

end SlotPool
