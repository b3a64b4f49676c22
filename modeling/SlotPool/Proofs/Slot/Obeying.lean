import Mathlib.Data.List.Forall2
import SlotPool.Proofs.Slot.Chores
/-!
How sequences obey lists of named calls. A single call does a chore, what is put together of sequences obeys
the chores of its parts one after another, and sequences that are all run try all their duties.
-/

namespace SlotPool

namespace Sequence

variable {α : Type} {name : String} {c : Call} {chore : Chore} {chores more : List Chore} {slot mid last : Slot}

/-- What a sequence ensures of its record holds of its calls on a machine on which they all return. The record
    is made of any replies, so it is known of every machine at once. -/
theorem Ensures.recorded {σ ε : Type} {machine : Machine σ} {state : σ} {steps : SequenceOf ε α}
    {post : Except ε α → Slot → List Record → Prop}
    (h : Ensures recording (fun _ => True) steps (fun value => post (.ok value)) (fun failure => post (.error failure))
      slot [])
    (hreturns : (steps.run.run slot).Returns machine state) :
    ∃ result after last, (steps.run.run slot).run machine state = (some (result, after), last) ∧
      post result after (((steps.run.run slot).trace machine state).map (·.toRecord)) := by
  obtain ⟨⟨result, after⟩, last, hrun, hpost⟩ := Program.Ensures.recorded h hreturns
  refine ⟨result, after, last, hrun, ?_⟩
  cases result with
  | ok value => exact hpost
  | error failure => exact hpost

/-- A call on record, and what follows if it succeeds. -/
theorem ensures_call {rest : c.Reply → Sequence α} {ok : α → Slot → List Record → Prop}
    {err : NetworkError → Slot → List Record → Prop} {told : List Record}
    (herror : ∀ cause, err cause slot (told ++ [⟨c, .returned (.error cause)⟩]))
    (hrest : ∀ value, Ensures recording (fun _ => True) (rest value) ok err slot
      (told ++ [⟨c, .returned (.ok value)⟩])) :
    Ensures recording (fun _ => True) (perform c >>= rest) ok err slot told := by
  rw [ensures_bind, ensures_perform]
  refine ⟨trivial, fun result told' htold => ?_⟩
  subst htold
  cases result with
  | ok value => exact hrest value
  | error cause => exact herror cause

/-- A call on record that is a step with a name, and what follows if it succeeds. -/
theorem ensures_namedCall {rest : c.Reply → Sequence α} {ok : α → Slot → List Record → Prop}
    {err : NetworkError → Slot → List Record → Prop} {told : List Record}
    (herror : ∀ cause, err (.step name cause) slot (told ++ [⟨c, .returned (.error cause)⟩]))
    (hrest : ∀ value, Ensures recording (fun _ => True) (rest value) ok err slot
      (told ++ [⟨c, .returned (.ok value)⟩])) :
    Ensures recording (fun _ => True) (Sequence.step name (perform c) >>= rest) ok err slot told := by
  rw [ensures_bind, ensures_step, ensures_perform]
  refine ⟨trivial, fun result told' htold => ?_⟩
  subst htold
  cases result with
  | ok value => exact hrest value
  | error cause => exact herror cause

/-- A guard adds one call at the end. -/
theorem ensures_guard {origin : Handle} {steps : Sequence α} {ok : α → Slot → List Record → Prop}
    {err : NetworkError → Slot → List Record → Prop} {told : List Record}
    (h : Ensures recording (fun _ => True) steps
      (fun value after told => ∀ reply, ok value after (told ++ [⟨.enterNamespace origin, .returned reply⟩]))
      (fun failure after told => ∀ reply, err failure after (told ++ [⟨.enterNamespace origin, .returned reply⟩]))
      slot told) :
    Ensures recording (fun _ => True) (guarded origin steps) ok err slot told := by
  rw [ensures_guarded]
  have hunder : Ensures (recording.under origin) (fun _ => True) steps _ _ slot told := h
  refine hunder.mono ?_ ?_
  · exact fun value after told hok => ⟨trivial, fun reply told' htold => htold ▸ hok reply⟩
  · exact fun failure after told herr => ⟨trivial, fun reply told' htold => htold ▸ herr reply⟩

/-- A sequence makes the call of a chore and fails if the chore does. The slot stays as it is. -/
def Does (steps : Sequence α) (chore : Chore) : Prop :=
  ∀ slot told, Ensures recording (fun _ => True) steps
    (fun _ after told' => after = slot ∧ ∃ result : Except NetworkError chore.call.Reply,
      told' = told ++ [⟨chore.call, .returned result⟩] ∧ chore.failure? result = none)
    (fun failure after told' => after = slot ∧ ∃ result : Except NetworkError chore.call.Reply,
      told' = told ++ [⟨chore.call, .returned result⟩] ∧ chore.failure? result = some failure) slot told

/-- A bare call is a chore of no step, and each of its failures counts. -/
theorem does_perform : Does (perform c) ⟨[], c, false⟩ := by
  intro slot told
  rw [ensures_perform]
  refine ⟨trivial, fun result told' htold => ?_⟩
  cases result with
  | ok value => exact ⟨rfl, .ok value, htold, rfl⟩
  | error cause => exact ⟨rfl, .error cause, htold, rfl⟩

/-- Within a step the call is the same, and its failure is told with the name of the step. -/
theorem Does.step {steps : Sequence α} (h : Does steps chore) : Does (step name steps) (chore.within name) := by
  intro slot told
  rw [ensures_step]
  refine (h slot told).mono ?_ ?_
  · rintro - after told' ⟨hslot, result, htold, hnone⟩
    exact ⟨hslot, result, htold, Chore.within_passed hnone⟩
  · rintro failure after told' ⟨hslot, result, htold, hfailed⟩
    exact ⟨hslot, result, htold, Chore.within_failed hfailed⟩

/-- A sequence that passes over absence does a chore that counts an absent thing as done. It must have counted
    it as a failure before. -/
theorem Does.tolerant {steps : Sequence Unit} (h : Does steps chore) (hstrict : chore.tolerant = false) :
    Does (tolerant steps) { chore with tolerant := true } := by
  intro slot told
  rw [ensures_tolerant]
  refine (h slot told).mono ?_ ?_
  · rintro - after told' ⟨hslot, result, htold, hnone⟩
    cases result with
    | ok value => exact ⟨hslot, .ok value, htold, rfl⟩
    | error cause => simp [Chore.failure?, hstrict] at hnone
  · rintro failure after told' ⟨hslot, result, htold, hfailed⟩
    cases result with
    | ok value => cases hfailed
    | error cause =>
      obtain rfl : chore.blame cause = failure := by simpa [Chore.failure?, hstrict] using hfailed
      rw [Chore.blame_isNotFound]
      split
      · rename_i habsent
        exact ⟨hslot, .error cause, htold, by simp [Chore.failure?, habsent]⟩
      · rename_i hpresent
        exact ⟨hslot, .error cause, htold, by simp [Chore.failure?, hpresent]; rfl⟩

theorem does_strict : Does (step name (perform c)) (.strict name c) := does_perform.step

theorem Does.lenient {steps : Sequence Unit} (h : Does steps ⟨[], c, false⟩) :
    Does (Sequence.step name (Sequence.tolerant steps)) (.lenient name c) :=
  (h.tolerant rfl).step

/-! ### Up to the first failure -/

/-- A sequence obeys a list of chores up to the first that fails. If none fails, it leaves the slot as `last`. The slot
    keeps its number. -/
def Obeys (slot : Slot) (steps : Sequence Unit) (chores : List Chore) (last : Slot) : Prop :=
  last.id = slot.id ∧ ∀ told, Ensures recording (fun _ => True) steps
    (fun _ after told' => after = last ∧ ∃ records, told' = told ++ records ∧ Stopping chores records (.ok ()))
    (fun failure after told' => after.id = slot.id ∧ ∃ records, told' = told ++ records ∧
      Stopping chores records (.error failure)) slot told

theorem obeys_pure : Obeys slot (pure ()) [] slot :=
  ⟨rfl, fun told => ⟨rfl, [], (List.append_nil told).symm, .done⟩⟩

theorem obeys_set (hid : last.id = slot.id) : Obeys slot (set last) [] last :=
  ⟨hid, fun told => ⟨rfl, [], (List.append_nil told).symm, .done⟩⟩

theorem obeys_modify {change : Slot → Slot} (hid : (change slot).id = slot.id) :
    Obeys slot (modify change) [] (change slot) :=
  ⟨hid, fun told => ⟨rfl, [], (List.append_nil told).symm, .done⟩⟩

/-- A sequence that begins by looking at the slot. -/
theorem Obeys.get {rest : Slot → Sequence Unit} (h : Obeys slot (rest slot) chores last) :
    Obeys slot (get >>= rest) chores last := h

theorem Does.obeys {steps : Sequence Unit} (h : Does steps chore) : Obeys slot steps [chore] slot := by
  refine ⟨rfl, fun told => (h slot told).mono ?_ ?_⟩
  · rintro - after told' ⟨hslot, result, htold, hnone⟩
    exact ⟨hslot, _, htold, .pass hnone .done⟩
  · rintro failure after told' ⟨hslot, result, htold, hfailed⟩
    exact ⟨congrArg Slot.id hslot, _, htold, .stop hfailed⟩

/-- What obeys one list of chores and then another obeys both, one after the other. The second list is only
    begun when the first has passed. -/
theorem Obeys.bind {steps : Sequence Unit} {rest : Unit → Sequence Unit} (h : Obeys slot steps chores mid)
    (hrest : Obeys mid (rest ()) more last) : Obeys slot (steps >>= rest) (chores ++ more) last := by
  refine ⟨hrest.1.trans h.1, fun told => ?_⟩
  rw [ensures_bind]
  refine (h.2 told).mono ?_ ?_
  · rintro - after told' ⟨rfl, records, rfl, hpassed⟩
    refine (hrest.2 _).mono ?_ ?_
    · rintro - after told'' ⟨hlast, others, rfl, hothers⟩
      exact ⟨hlast, records ++ others, List.append_assoc .., hpassed.append hothers⟩
    · rintro failure after told'' ⟨hid, others, rfl, hothers⟩
      exact ⟨hid.trans h.1, records ++ others, List.append_assoc .., hpassed.append hothers⟩
  · rintro failure after told' ⟨hid, records, htold, hstopped⟩
    exact ⟨hid, records, htold, hstopped.skip⟩

/-- Within a step the same chores are done, each told with the name of the step. -/
theorem Obeys.step {steps : Sequence Unit} (h : Obeys slot steps chores last) :
    Obeys slot (Sequence.step name steps) (chores.map (·.within name)) last := by
  refine ⟨h.1, fun told => ?_⟩
  rw [ensures_step]
  refine (h.2 told).mono ?_ ?_
  · rintro - after told' ⟨hlast, records, htold, hpassed⟩
    exact ⟨hlast, records, htold, hpassed.within⟩
  · rintro failure after told' ⟨hid, records, htold, hstopped⟩
    exact ⟨hid, records, htold, hstopped.within⟩

theorem Obeys.forM {γ : Type} {f : γ → Sequence Unit} {chore : γ → Chore} (xs : List γ)
    (h : ∀ x, Does (f x) (chore x)) : Obeys slot (xs.forM f) (xs.map chore) slot := by
  induction xs with
  | nil => exact obeys_pure
  | cons x xs ih => exact (h x).obeys.bind ih

/-! ### Whatever fails -/

/-- A sequence tries a duty, and it fails if anything fails in it. The slot stays as it is. -/
def Tries (steps : Sequence Unit) (duty : Duty) : Prop :=
  ∀ slot told, Ensures recording (fun _ => True) steps
    (fun _ after told' => after = slot ∧ ∃ records, told' = told ++ records ∧ Trying [duty] records [])
    (fun failure after told' => after = slot ∧ ∃ records, told' = told ++ records ∧ Trying [duty] records [failure])
    slot told

/-- A sequence that does a chore tries it: what it fails with is what is told of the chore. -/
theorem Does.tries {steps : Sequence Unit} (h : Does steps chore) : Tries steps (.always chore) := by
  have htrying {result : Except NetworkError chore.call.Reply} :
      Trying [.always chore] [⟨chore.call, .returned result⟩] (chore.failure? result).toList := by
    have hrest : Trying [.always chore] [⟨chore.call, .returned result⟩] ((chore.failure? result).toList ++ []) :=
      .tried .done
    rwa [List.append_nil] at hrest
  intro slot told
  refine (h slot told).mono ?_ ?_
  · rintro - after told' ⟨hslot, result, htold, hnone⟩
    exact ⟨hslot, _, htold, by simpa only [hnone, Option.toList_none] using @htrying result⟩
  · rintro failure after told' ⟨hslot, result, htold, hfailed⟩
    exact ⟨hslot, _, htold, by simpa only [hfailed, Option.toList_some] using @htrying result⟩

/-- A look for something. -/
def look : Probe → Sequence Bool
  | .link name => perform (.linkExists name)
  | .named name => perform (.namespaceExists name)

/-- A look is one call, and it is on record with what it answered. -/
theorem ensures_look {probe : Probe} {ok : Bool → Slot → List Record → Prop}
    {err : NetworkError → Slot → List Record → Prop} {told : List Record}
    (h : ∀ answer, byResult ok err answer slot (told ++ [probe.record answer])) :
    Ensures recording (fun _ => True) (look probe) ok err slot told := by
  cases probe with
  | link name => exact ensures_perform.mpr ⟨trivial, fun answer told' htold => htold ▸ h answer⟩
  | named name => exact ensures_perform.mpr ⟨trivial, fun answer told' htold => htold ▸ h answer⟩

/-- What is done only if a look finds something. A look that fails is told of, and then nothing is done. -/
theorem Does.ifFound {steps : Sequence Unit} (probe : Probe) (h : Does steps chore) :
    Tries (Slot.ifFound (Sequence.step name (look probe)) steps) (.ifFound name probe chore) := by
  intro slot told
  rw [Slot.ifFound, ensures_bind, ensures_step]
  refine ensures_look fun answer => ?_
  cases answer with
  | error cause => exact ⟨rfl, _, rfl, .unseen .done⟩
  | ok found =>
    cases found with
    | false => exact ⟨rfl, _, rfl, .missing .done⟩
    | true =>
      refine (h.tries slot _).mono ?_ ?_
      · rintro - after told' ⟨hslot, records, rfl, htrying⟩
        exact ⟨hslot, _, List.append_assoc .., .found htrying⟩
      · rintro failure after told' ⟨hslot, records, rfl, htrying⟩
        exact ⟨hslot, _, List.append_assoc .., .found htrying⟩

/-- Sequences that are all run try all their duties, and what they fail with is told in the order of the duties.
    -/
theorem tries_attemptAll {ε : Type} {list : List (Sequence Unit)} {duties : List Duty}
    (h : List.Forall₂ Tries list duties) (told : List Record) :
    Ensures recording (fun _ => True) (attemptAll list : SequenceOf ε (List NetworkError))
      (fun failures after told' => after = slot ∧ ∃ records, told' = told ++ records ∧ Trying duties records failures)
      (fun _ _ _ => False) slot told := by
  induction h generalizing told with
  | nil => exact ⟨rfl, [], (List.append_nil told).symm, .done⟩
  | @cons first duty rest duties hfirst _ ih =>
    have hrest {records : List Record} {found : List NetworkError} (htrying : Trying [duty] records found) :
        Ensures recording (fun _ => True) (attemptAll rest : SequenceOf ε (List NetworkError))
          (fun failures after told' => after = slot ∧ ∃ records, told' = told ++ records ∧
            Trying (duty :: duties) records (found ++ failures))
          (fun _ _ _ => False) slot (told ++ records) := by
      refine (ih _).mono ?_ fun _ _ _ h => h
      rintro failures after told' ⟨hslot, others, rfl, hothers⟩
      exact ⟨hslot, _, List.append_assoc .., htrying.append hothers⟩
    rw [ensures_attemptAll_cons]
    refine (hfirst slot told).mono ?_ ?_
    · rintro - after told' ⟨rfl, records, rfl, htrying⟩
      exact hrest htrying
    · rintro failure after told' ⟨rfl, records, rfl, htrying⟩
      exact hrest htrying

/-- What failed is told at the end. -/
theorem ensures_failWith_told {τ : Type} {replies : Replies τ} {inv : τ → Prop}
    (post : Except NetworkError Unit → Slot → τ → Prop) {failures : List NetworkError} {t : τ}
    (h : ∀ result, Told failures result → post result slot t) :
    Ensures replies inv (failWith failures) (fun _ => post (.ok ())) (fun failure => post (.error failure)) slot t := by
  have hpost := h _ (told_ofMany failures)
  rw [ensures_failWith]
  revert hpost
  cases NetworkError.ofMany failures with
  | ok value => exact id
  | error failure => exact id

end Sequence
end SlotPool
