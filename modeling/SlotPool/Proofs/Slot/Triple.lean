import SlotPool.Proofs.Slot.Rules
import SlotPool.Slot.Removal
/-!
Triples for sequences on behalf of a slot: from a state in which the precondition holds, whatever the
replies, a success ends in the postcondition and a failure in the condition for failures. Each way to
build a sequence has one rule.
-/

namespace SlotPool.Sequence

variable {τ ε α β : Type}

/-- A condition on what a slot remembers and on the state of the machine. -/
abbrev Assertion (τ : Type) := Slot → τ → Prop

/-- Whatever the replies, `steps` leads from `pre` to `post`, or to `fail` when it fails. -/
def Triple (replies : Replies τ) (inv : τ → Prop) (pre : Assertion τ) (steps : SequenceOf ε α)
    (post fail : Assertion τ) : Prop :=
  ∀ slot t, pre slot t →
    Ensures replies inv steps (fun _ => post) (fun _ => fail) slot t

section

variable {replies : Replies τ} {inv : τ → Prop} {pre mid post fail : Assertion τ}

theorem Triple.mono {pre' post' fail' : Assertion τ} {steps : SequenceOf ε α}
    (h : Triple replies inv pre steps post fail) (hpre : ∀ slot t, pre' slot t → pre slot t)
    (hpost : ∀ slot t, post slot t → post' slot t) (hfail : ∀ slot t, fail slot t → fail' slot t) :
    Triple replies inv pre' steps post' fail' :=
  fun slot t ht => (h slot t (hpre slot t ht)).mono (fun _ => hpost) fun _ => hfail

theorem Triple.weaken {post' : Assertion τ} {steps : SequenceOf ε α}
    (h : Triple replies inv pre steps post fail) (hpost : ∀ slot t, post slot t → post' slot t) :
    Triple replies inv pre steps post' fail :=
  h.mono (fun _ _ hpre => hpre) hpost fun _ _ hfail => hfail

/-- What holds for two reasons. -/
theorem Triple.and {inv' : τ → Prop} {pre' post' fail' : Assertion τ} {steps : SequenceOf ε α}
    (h : Triple replies inv pre steps post fail) (h' : Triple replies inv' pre' steps post' fail') :
    Triple replies (fun t => inv t ∧ inv' t) (fun slot t => pre slot t ∧ pre' slot t) steps
      (fun slot t => post slot t ∧ post' slot t) fun slot t => fail slot t ∧ fail' slot t :=
  fun slot t ht => (h slot t ht.1).and (h' slot t ht.2)

/-- Nothing is said of what a sequence leads to. -/
theorem Triple.anything {steps : SequenceOf ε α} :
    Triple replies (fun _ => True) pre steps (fun _ _ => True) fun _ _ => True := by
  intro slot t _
  refine Program.ensures_true.mono (fun _ h => h) ?_
  rintro ⟨result, after⟩ t' -
  cases result <;> trivial

theorem Triple.pure {value : α} : Triple (ε := ε) replies inv pre (Pure.pure value) pre fail :=
  fun _ _ hpre => hpre

theorem Triple.throw {failure : ε} :
    Triple replies inv fail (MonadExcept.throw failure : SequenceOf ε α) post fail :=
  fun _ _ hfail => hfail

/-- One sequence after another, with what holds in between. -/
theorem Triple.bind {steps : SequenceOf ε α} {rest : α → SequenceOf ε β}
    (hsteps : Triple replies inv pre steps mid fail)
    (hrest : ∀ value, Triple replies inv mid (rest value) post fail) :
    Triple replies inv pre (steps >>= rest) post fail := by
  intro slot t hpre
  rw [ensures_bind]
  exact (hsteps slot t hpre).mono (fun value slot t => hrest value slot t) fun _ _ _ hfail => hfail

/-- A sequence that begins by looking at the slot. -/
theorem Triple.get {rest : Slot → SequenceOf ε β}
    (hrest : ∀ seen,
      Triple replies inv (fun slot t => slot = seen ∧ pre slot t) (rest seen) post fail) :
    Triple replies inv pre (get >>= rest) post fail := by
  intro slot t hpre
  rw [ensures_bind, ensures_get]
  exact hrest slot slot t ⟨rfl, hpre⟩

theorem Triple.modify {change : Slot → Slot} (h : ∀ slot t, pre slot t → post (change slot) t) :
    Triple (ε := ε) replies inv pre (modify change) post fail := h

/-- A choice between two sequences, each of which may count on how the choice went. -/
theorem Triple.ite {c : Prop} [Decidable c] {steps steps' : SequenceOf ε α}
    (hthen : c → Triple replies inv pre steps post fail)
    (helse : ¬ c → Triple replies inv pre steps' post fail) :
    Triple replies inv pre (if c then steps else steps') post fail := by
  split
  · exact hthen ‹_›
  · exact helse ‹_›

/-- A single call: what each of its replies leads to. -/
theorem Triple.perform {c : Call} (hinv : ∀ slot t, pre slot t → inv t)
    (hok : ∀ slot t value t', pre slot t → replies c [] t (.ok value) t' → post slot t')
    (hfail : ∀ slot t failure t', pre slot t → replies c [] t (.error failure) t' → fail slot t') :
    Triple replies inv pre (perform c) post fail := by
  intro slot t hpre
  refine ⟨hinv slot t hpre, fun result t' hreply => ?_⟩
  cases result with
  | ok value => exact hok slot t value t' hpre hreply
  | error failure => exact hfail slot t failure t' hpre hreply

theorem Triple.attempt {steps : Sequence α} (h : Triple replies inv pre steps post post) :
    Triple (ε := ε) replies inv pre (attempt steps) post fail := by
  intro slot t hpre
  rw [ensures_attempt]
  exact h slot t hpre

theorem Triple.failure? {steps : Sequence α} (h : Triple replies inv pre steps post post) :
    Triple (ε := ε) replies inv pre (failure? steps) post fail := by
  intro slot t hpre
  rw [ensures_failure?]
  exact h slot t hpre

/-- Sequences that are all run keep together what each of them keeps, whether it succeeds or fails. -/
theorem Triple.attemptAll {list : List (Sequence Unit)}
    (h : ∀ steps ∈ list, Triple replies inv pre steps pre pre) :
    Triple (ε := ε) replies inv pre (attemptAll list) pre fail := by
  induction list with
  | nil => exact fun _ _ hpre => hpre
  | cons steps rest ih =>
    rw [Sequence.attemptAll]
    refine .bind (.failure? (h steps (List.mem_cons_self ..))) fun _ => .bind (ih ?_) fun _ => .pure
    exact fun steps hsteps => h steps (List.mem_cons_of_mem _ hsteps)

/-- Whatever the replies, `steps` leads from `pre` to `post` and does not fail. -/
def Flawless (replies : Replies τ) (pre : Assertion τ) (steps : SequenceOf ε α) (post : Assertion τ) :
    Prop :=
  Triple replies (fun _ => True) pre steps post fun _ _ => False

theorem Flawless.tolerant {steps : Sequence Unit} (h : Flawless replies pre steps post) :
    Flawless replies pre (tolerant steps) post := by
  intro slot t hpre
  rw [ensures_tolerant]
  exact (h slot t hpre).mono (fun _ _ _ hpost => hpost) fun _ _ _ => False.elim

/-- Several sequences lead from `pre` to `post`, and none fails. -/
def AllFlawless (replies : Replies τ) (pre : Assertion τ) (list : List (Sequence Unit))
    (post : Assertion τ) : Prop :=
  ∀ slot t, pre slot t → Ensures (ε := NetworkError) replies (fun _ => True) (attemptAll list)
    (fun failures slot t => failures = [] ∧ post slot t) (fun _ _ _ => False) slot t

theorem AllFlawless.nil : AllFlawless replies pre [] pre := fun _ _ hpre => ⟨rfl, hpre⟩

theorem AllFlawless.cons {steps : Sequence Unit} {rest : List (Sequence Unit)}
    (hsteps : Flawless replies pre steps mid) (hrest : AllFlawless replies mid rest post) :
    AllFlawless replies pre (steps :: rest) post := by
  intro slot t hpre
  rw [ensures_attemptAll_cons]
  exact (hsteps slot t hpre).mono (fun _ slot t hmid => hrest slot t hmid) fun _ _ _ => False.elim

end

section

variable {replies : Replies τ} {inv : τ → Prop} {pre mid post fail : Assertion τ}

theorem Triple.step {name : String} {steps : Sequence α}
    (h : Triple replies inv pre steps post fail) :
    Triple replies inv pre (step name steps) post fail := by
  intro slot t hpre
  rw [ensures_step]
  exact h slot t hpre

/-- Passing over absence turns a failure into a success, so the same must hold after both. -/
theorem Triple.tolerant {steps : Sequence Unit} (h : Triple replies inv pre steps post post)
    (hfail : ∀ slot t, post slot t → fail slot t) :
    Triple replies inv pre (tolerant steps) post fail := by
  intro slot t hpre
  rw [ensures_tolerant]
  refine (h slot t hpre).mono (fun _ _ _ hpost => hpost) fun failure slot t hpost => ?_
  split
  · exact hpost
  · exact hfail slot t hpost

/-- What fails because something is absent has not changed anything. -/
theorem Triple.tolerate {steps : Sequence Unit}
    (h : ∀ slot t, pre slot t → Ensures replies inv steps (fun _ => pre)
      (fun failure slot t => pre slot t ∧ (failure.isNotFound = true ∨ fail slot t)) slot t) :
    Triple replies inv pre (Sequence.tolerant steps) pre fail := by
  intro slot t hpre
  rw [ensures_tolerant]
  refine (h slot t hpre).mono (fun _ _ _ hpre => hpre) fun failure slot t hfailed => ?_
  split
  · exact hfailed.1
  · rename_i hpresent
    exact hfailed.2.resolve_left hpresent

/-- Telling of several failures as one changes nothing. -/
theorem Triple.failWith {failures : List NetworkError}
    (hpost : ∀ slot t, pre slot t → post slot t) (hfail : ∀ slot t, pre slot t → fail slot t) :
    Triple replies inv pre (failWith failures) post fail := by
  intro slot t hpre
  rw [ensures_failWith]
  cases NetworkError.ofMany failures with
  | ok value => exact hpost slot t hpre
  | error failure => exact hfail slot t hpre

/-- What each round of a loop keeps, the loop keeps. -/
theorem Triple.forM {γ : Type} {f : γ → Sequence Unit} {xs : List γ}
    (h : ∀ x ∈ xs, Triple replies inv pre (f x) pre fail) :
    Triple replies inv pre (xs.forM f) pre fail := by
  induction xs with
  | nil => exact fun _ _ hpre => hpre
  | cons x xs ih =>
    intro slot t hpre
    rw [ensures_forM_cons]
    refine (h x (List.mem_cons_self ..) slot t hpre).mono
      (fun _ slot t hpre => ?_) fun _ _ _ hfail => hfail
    exact ih (fun y hy => h y (List.mem_cons_of_mem _ hy)) slot t hpre

/-- Under a guard the thread is taken back at the end, whether the sequence succeeds or fails. -/
theorem Triple.guarded {post' fail' : Assertion τ} {origin : Handle} {steps : Sequence α}
    (h : Triple (replies.under origin) inv pre steps post fail)
    (hinv : ∀ slot t, post slot t ∨ fail slot t → inv t)
    (hpost : ∀ slot t result t', post slot t → replies (.enterNamespace origin) [] t result t' →
      post' slot t')
    (hfail : ∀ slot t result t', fail slot t → replies (.enterNamespace origin) [] t result t' →
      fail' slot t') :
    Triple replies inv pre (guarded origin steps) post' fail' := by
  intro slot t hpre
  rw [ensures_guarded]
  exact (h slot t hpre).mono
    (fun _ slot t hslot => ⟨hinv slot t (.inl hslot), fun result t' => hpost slot t result t' hslot⟩)
    fun _ slot t hslot => ⟨hinv slot t (.inr hslot), fun result t' => hfail slot t result t' hslot⟩

/-- What is undone when it fails: after a failure of the steps, what undoes them begins where they stopped, and
    its own failure changes nothing of what holds then. -/
theorem Triple.orUndo {undone : Assertion τ} {steps undo : Sequence Unit}
    {blame : NetworkError → Option NetworkError → ε}
    (hsteps : Triple replies inv pre steps post fail)
    (hundo : Triple replies inv fail undo undone undone) :
    Triple replies inv pre (Slot.orUndo steps undo blame) post undone := by
  intro slot t hpre
  rw [Slot.ensures_orUndo]
  exact (hsteps slot t hpre).mono (fun _ _ _ hpost => hpost)
    fun _ slot t hfail => hundo slot t hfail

theorem Triple.deletion {name : String} {delete : Sequence Unit}
    (h : Triple replies inv pre delete post post) (hfail : ∀ slot t, post slot t → fail slot t) :
    Triple replies inv pre (Slot.deletion name delete) post fail :=
  .step (.tolerant h hfail)

theorem Triple.ifFound {probe : Sequence Bool} {delete : Sequence Unit}
    (hprobe : Triple replies inv pre probe pre fail)
    (hdelete : Triple replies inv pre delete pre fail) :
    Triple replies inv pre (Slot.ifFound probe delete) pre fail :=
  .bind hprobe fun _ => .ite (fun _ => hdelete) fun _ => .pure

end

section

variable {σ : Type} {machine : Machine σ} {view : σ → τ} {replies : Replies τ} {inv : τ → Prop}
  {pre post fail : Assertion τ} {steps : SequenceOf ε α} {slot after : Slot} {state state' : σ}

/-- What a run on a machine comes to when it ends. -/
theorem Triple.run {result : Except ε α} (h : Triple replies inv pre steps post fail)
    (hmachine : machine.Within view replies) (hpre : pre slot (view state))
    (hrun : (steps.run.run slot).run machine state = (some (result, after), state')) :
    byResult (fun _ => post) (fun _ => fail) result after (view state') :=
  have hresult := Program.Ensures.run hmachine (h slot (view state) hpre) hrun
  hresult

/-- What is left after any number of calls. -/
theorem Triple.cut (h : Triple replies inv pre steps post fail) (hmachine : machine.Within view replies)
    (hpre : pre slot (view state)) (count : Nat) :
    inv (view ((steps.run.run slot).cut machine count state)) ∨
      ∃ after, post after (view ((steps.run.run slot).cut machine count state)) ∨
        fail after (view ((steps.run.run slot).cut machine count state)) := by
  rcases Program.Ensures.cut hmachine (h slot (view state) hpre) count with hinv | ⟨⟨result, after⟩, hend⟩
  · exact .inl hinv
  · cases result with
    | ok value => exact .inr ⟨after, .inl hend⟩
    | error failure => exact .inr ⟨after, .inr hend⟩

/-- What is left when a run ends with the thread. -/
theorem Triple.crash (h : Triple replies inv pre steps post fail)
    (hmachine : machine.Within view replies)
    (hinv : ∀ origin t result t', replies (.enterNamespace origin) [] t result t' → inv t → inv t')
    (hpre : pre slot (view state))
    (hrun : (steps.run.run slot).run machine state = (none, state')) : inv (view state') :=
  Program.Ensures.crash hmachine hinv (h slot (view state) hpre) hrun

end

end SlotPool.Sequence
