import SlotPool.Proofs.Primitive.Ensures
import SlotPool.Slot.Preparation
/-!
What a sequence on behalf of a slot brings about whatever the replies are. Each way to build a
sequence has one rule, stated as an equivalence, so that a sequence can be taken apart from its
first step on.
-/

namespace SlotPool

namespace Sequence

variable {τ ε ε' α β : Type}

/-- `ok` for a success and `err` for a failure. -/
def byResult (ok : α → Slot → τ → Prop) (err : ε → Slot → τ → Prop) :
    Except ε α → Slot → τ → Prop
  | .ok value => ok value
  | .error failure => err failure

@[simp]
theorem byResult_ok {ok : α → Slot → τ → Prop} {err : ε → Slot → τ → Prop} {value : α} :
    byResult ok err (.ok value) = ok value := rfl

@[simp]
theorem byResult_error {ok : α → Slot → τ → Prop} {err : ε → Slot → τ → Prop} {failure : ε} :
    byResult ok err (.error failure) = err failure := rfl

/-- Whatever the replies, `inv` holds whenever a call is made, `ok` when the sequence succeeds and
    `err` when it fails. -/
def Ensures (replies : Replies τ) (inv : τ → Prop) (steps : SequenceOf ε α)
    (ok : α → Slot → τ → Prop) (err : ε → Slot → τ → Prop) (slot : Slot) (t : τ) : Prop :=
  (steps.run.run slot).Ensures replies inv (fun result t => byResult ok err result.1 result.2 t) t

section

variable {replies : Replies τ} {inv : τ → Prop} {ok : α → Slot → τ → Prop}
  {err : ε → Slot → τ → Prop} {slot : Slot} {t : τ}

/-- What a sequence ensures may be weakened, for successes and for failures. -/
theorem Ensures.mono {ok' : α → Slot → τ → Prop} {err' : ε → Slot → τ → Prop}
    {steps : SequenceOf ε α} (h : Ensures replies inv steps ok err slot t)
    (hok : ∀ value slot t, ok value slot t → ok' value slot t)
    (herr : ∀ failure slot t, err failure slot t → err' failure slot t) :
    Ensures replies inv steps ok' err' slot t := by
  apply Program.Ensures.mono h (fun _ hinv => hinv)
  rintro ⟨result | value, slot⟩ t hpost
  · exact herr _ _ _ hpost
  · exact hok _ _ _ hpost

theorem Ensures.mono_inv {inv' : τ → Prop} {steps : SequenceOf ε α}
    (h : Ensures replies inv steps ok err slot t) (hinv : ∀ t, inv t → inv' t) :
    Ensures replies inv' steps ok err slot t :=
  Program.Ensures.mono h hinv fun _ _ hpost => hpost

/-- What holds for two reasons. -/
theorem Ensures.and {inv' : τ → Prop} {ok' : α → Slot → τ → Prop} {err' : ε → Slot → τ → Prop}
    {steps : SequenceOf ε α} (h : Ensures replies inv steps ok err slot t)
    (h' : Ensures replies inv' steps ok' err' slot t) :
    Ensures replies (fun t => inv t ∧ inv' t) steps (fun value slot t => ok value slot t ∧ ok' value slot t)
      (fun failure slot t => err failure slot t ∧ err' failure slot t) slot t := by
  refine Program.Ensures.mono (Program.Ensures.and h h') (fun _ hinv => hinv) ?_
  rintro ⟨result, after⟩ t' hboth
  cases result <;> exact hboth

@[simp]
theorem ensures_pure {value : α} :
    Ensures replies inv (pure value) ok err slot t ↔ ok value slot t := Iff.rfl

@[simp]
theorem ensures_throw {failure : ε} :
    Ensures replies inv (throw failure) ok err slot t ↔ err failure slot t := Iff.rfl

/-- One sequence after another: when the first succeeds the rest goes on from there, and when it fails the rest
    is left out. -/
@[simp]
theorem ensures_bind {ok : β → Slot → τ → Prop} {steps : SequenceOf ε α}
    {rest : α → SequenceOf ε β} :
    Ensures replies inv (steps >>= rest) ok err slot t ↔
      Ensures replies inv steps (fun value slot t => Ensures replies inv (rest value) ok err slot t)
        err slot t := by
  change ((steps.run.run slot).bind _).Ensures replies inv _ t ↔ _
  rw [Program.ensures_bind]
  apply Program.ensures_congr
  rintro ⟨failure | value, slot⟩ t
  · rfl
  · rfl

@[simp]
theorem ensures_get {ok : Slot → Slot → τ → Prop} :
    Ensures replies inv (get : SequenceOf ε Slot) ok err slot t ↔ ok slot slot t := Iff.rfl

@[simp]
theorem ensures_set {ok : Unit → Slot → τ → Prop} {slot' : Slot} :
    Ensures replies inv (set slot' : SequenceOf ε Unit) ok err slot t ↔ ok () slot' t := Iff.rfl

@[simp]
theorem ensures_modify {ok : Unit → Slot → τ → Prop} {change : Slot → Slot} :
    Ensures replies inv (modify change : SequenceOf ε Unit) ok err slot t ↔
      ok () (change slot) t := Iff.rfl

@[simp]
theorem ensures_ite {c : Prop} [Decidable c] {steps steps' : SequenceOf ε α} :
    Ensures replies inv (if c then steps else steps') ok err slot t ↔
      if c then Ensures replies inv steps ok err slot t
      else Ensures replies inv steps' ok err slot t := by
  split <;> rfl

/-- Building on the result of a sequence without a call in between. -/
theorem ensures_mk_map {ε' : Type} {α' : Type} {ok : α' → Slot → τ → Prop}
    {err : ε' → Slot → τ → Prop} {steps : SequenceOf ε α}
    {change : Except ε α → Except ε' α'} :
    Ensures replies inv (ExceptT.mk (change <$> steps.run)) ok err slot t ↔
      Ensures replies inv steps (fun value => byResult ok err (change (.ok value)))
        (fun failure => byResult ok err (change (.error failure))) slot t := by
  change ((steps.run.run slot).bind _).Ensures replies inv _ t ↔ _
  rw [Program.ensures_bind]
  apply Program.ensures_congr
  rintro ⟨failure | value, slot⟩ t
  · rfl
  · rfl

@[simp]
theorem ensures_attempt {ok : Except NetworkError α → Slot → τ → Prop} {steps : Sequence α} :
    Ensures replies inv (attempt steps) ok err slot t ↔
      Ensures replies inv steps (fun value slot t => ok (.ok value) slot t)
        (fun failure slot t => ok (.error failure) slot t) slot t :=
  ensures_mk_map

/-- A sequence of which only the failure is kept always succeeds. -/
@[simp]
theorem ensures_failure? {ok : Option NetworkError → Slot → τ → Prop} {steps : Sequence α} :
    Ensures replies inv (failure? steps) ok err slot t ↔
      Ensures replies inv steps (fun _ slot t => ok none slot t)
        (fun failure slot t => ok (some failure) slot t) slot t := by
  have hmap : (failure? steps : SequenceOf ε (Option NetworkError)) =
      attempt steps >>= fun result => pure (NetworkError.failure? result) := rfl
  rw [hmap, ensures_bind, ensures_attempt]
  rfl

@[simp]
theorem ensures_attemptAll_nil {ok : List NetworkError → Slot → τ → Prop} :
    Ensures replies inv (attemptAll []) ok err slot t ↔ ok [] slot t := Iff.rfl

/-- Of sequences that are all run, the others are run whatever comes of the first, and its failure is put before
    theirs. -/
@[simp]
theorem ensures_attemptAll_cons {ok : List NetworkError → Slot → τ → Prop}
    {steps : Sequence Unit} {rest : List (Sequence Unit)} :
    Ensures replies inv (attemptAll (steps :: rest)) ok err slot t ↔
      Ensures replies inv steps
        (fun _ slot t => Ensures replies inv (attemptAll rest) ok err slot t)
        (fun failure slot t => Ensures replies inv (attemptAll rest)
          (fun failures => ok (failure :: failures)) err slot t) slot t := by
  rw [attemptAll, ensures_bind, ensures_failure?]
  simp only [ensures_bind, ensures_pure, Option.toList_none, Option.toList_some, List.nil_append,
    List.singleton_append]

end

section

variable {replies : Replies τ} {inv : τ → Prop} {ok : α → Slot → τ → Prop}
  {err : NetworkError → Slot → τ → Prop} {slot : Slot} {t : τ}

@[simp]
theorem ensures_step {name : String} {steps : Sequence α} :
    Ensures replies inv (step name steps) ok err slot t ↔
      Ensures replies inv steps ok (fun failure slot t => err (.step name failure) slot t) slot t :=
  ensures_mk_map

/-- A failure that says no more than that something is absent is passed over. Any other one is handed on. -/
@[simp]
theorem ensures_tolerant {ok : Unit → Slot → τ → Prop} {steps : Sequence Unit} :
    Ensures replies inv (tolerant steps) ok err slot t ↔
      Ensures replies inv steps ok
        (fun failure slot t =>
          if failure.isNotFound = true then ok () slot t else err failure slot t) slot t := by
  rw [tolerant, ensures_mk_map]
  have herr : ∀ failure slot t,
      byResult ok err (NetworkError.tolerateAbsent (.error failure)) slot t ↔
        if failure.isNotFound = true then ok () slot t else err failure slot t := by
    intro failure slot t
    unfold NetworkError.tolerateAbsent
    by_cases habsent : failure.isNotFound = true
    · simp only [habsent, if_true, byResult_ok]
    · simp only [habsent]
      exact Iff.rfl
  constructor
  · exact fun h => h.mono (fun _ _ _ hok => hok) fun failure slot t => (herr failure slot t).mp
  · exact fun h => h.mono (fun _ _ _ hok => hok) fun failure slot t => (herr failure slot t).mpr

@[simp]
theorem ensures_failWith {ok : Unit → Slot → τ → Prop} {failures : List NetworkError} :
    Ensures replies inv (failWith failures) ok err slot t ↔
      byResult ok err (NetworkError.ofMany failures) slot t := Iff.rfl

/-- Making one call. -/
theorem ensures_perform {c : Call} {ok : c.Reply → Slot → τ → Prop} :
    Ensures replies inv (perform c) ok err slot t ↔
      inv t ∧ ∀ result t', replies c [] t result t' → byResult ok err result slot t' := Iff.rfl

/-- What is run under a guard is asked the same, on a machine with one guard more. After it the guard makes one
    call that takes the thread back, and what comes of this call is not looked at, so any reply to it must be
    allowed for. -/
@[simp]
theorem ensures_guarded {origin : Handle} {steps : Sequence α} :
    Ensures replies inv (guarded origin steps) ok err slot t ↔
      Ensures (replies.under origin) inv steps
        (fun value slot t => inv t ∧ ∀ result t',
          replies (.enterNamespace origin) [] t result t' → ok value slot t')
        (fun failure slot t => inv t ∧ ∀ result t',
          replies (.enterNamespace origin) [] t result t' → err failure slot t') slot t := by
  change ((steps.run.run slot).guarded origin).Ensures replies inv _ t ↔ _
  rw [Program.ensures_guarded]
  apply Program.ensures_congr
  rintro ⟨failure | value, slot⟩ t
  · rfl
  · rfl

@[simp]
theorem ensures_forM_nil {γ : Type} {ok : Unit → Slot → τ → Prop} {f : γ → Sequence Unit} :
    Ensures replies inv ([].forM f) ok err slot t ↔ ok () slot t := Iff.rfl

/-- A sequence for each element of a list: the first, and then, if it succeeded, those of the others. -/
@[simp]
theorem ensures_forM_cons {γ : Type} {ok : Unit → Slot → τ → Prop} {f : γ → Sequence Unit}
    {x : γ} {xs : List γ} :
    Ensures replies inv ((x :: xs).forM f) ok err slot t ↔
      Ensures replies inv (f x) (fun _ slot t => Ensures replies inv (xs.forM f) ok err slot t)
        err slot t := by
  have hfirst : (x :: xs).forM f = (f x >>= fun _ => xs.forM f) := rfl
  rw [hfirst, ensures_bind]

end

end Sequence

namespace Slot

open Sequence

variable {τ ε : Type} {replies : Replies τ} {inv : τ → Prop} {slot : Slot} {t : τ}

/-- A sequence that undoes itself when it fails. -/
@[simp]
theorem ensures_orUndo {ok : Unit → Slot → τ → Prop} {err : ε → Slot → τ → Prop}
    {steps undo : Sequence Unit} {blame : NetworkError → Option NetworkError → ε} :
    Ensures replies inv (orUndo steps undo blame) ok err slot t ↔
      Ensures replies inv steps ok
        (fun cause slot t => Ensures replies inv undo
          (fun _ slot t => err (blame cause none) slot t)
          (fun failure slot t => err (blame cause (some failure)) slot t) slot t) slot t := by
  simp only [orUndo, ensures_bind, ensures_attempt, ensures_pure, ensures_failure?, ensures_throw]

end Slot
end SlotPool
