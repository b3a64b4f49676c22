import SlotPool.Proofs.Primitive.Mild
import SlotPool.Proofs.Slot.Triple
import SlotPool.Proofs.World.Replies
/-!
Jobs for a slot in which calls may fail, but none while what was made is undone. Each way to build a job has
one rule, which says what a run of it comes to.
-/

namespace SlotPool

variable {σ ε α β : Type}

/-- Every call may fail but those by which guards take the thread back. -/
def Hazard.homing : Hazard := fun call guards _ => guards = [] → ∀ origin, call ≠ .enterNamespace origin

theorem Hazard.homing_returns : Hazard.homing.Returns :=
  fun origin _ hstruck => hstruck rfl origin rfl

/-- What undoes the network of a slot. -/
inductive Slot.Undoing (egress : String) : Program (Except NetworkError Unit × Slot) → Prop
  | remove (slot : Slot) : Undoing egress ((Slot.remove egress).run.run slot)
  | reap (slot : Slot) : Undoing egress ((Slot.reap egress).run.run slot)

/-- The machine brings a program to its end. Calls may fail as `hazard` says, but none by which the network of
    a slot is undone. -/
def Program.Spared (hazard : Hazard) (machine : Machine σ) (view : σ → World) (egress : String)
    (p : Program α) (s : σ) : Prop :=
  p.Mild machine view (World.replies hazard) (World.replies .none) (Slot.Undoing egress) s

/-- Nothing fails on an honest machine. -/
theorem Rehearsal.Honest.spared {hazard : Hazard} {egress : String} {p : Program α}
    {rehearsal : Rehearsal World} (h : rehearsal.Honest) :
    p.Spared hazard (rehearsing World.machine) (·.machine) egress rehearsal :=
  Program.mild_of_strict Honest.answer (fun _ _ _ _ _ hreply => .inl (World.replies_none hreply)) h

/-- Nothing is undone by what begins with a look for a namespace. -/
theorem Slot.Undoing.begins {egress : String} {p : Program (Except NetworkError Unit × Slot)}
    (h : Slot.Undoing egress p) :
    ∃ c guards next, p = .call c guards next ∧ ∀ name, c ≠ .namespaceExists name := by
  cases h with
  | remove slot =>
    obtain ⟨id, state⟩ := slot
    cases state <;> exact ⟨_, _, _, rfl, fun name => by simp⟩
  | reap slot => exact ⟨_, _, _, rfl, fun name => by simp⟩

/-- Nothing fails while something is undone when only the look for a namespace fails: what is undone begins with
    another call, and by then the failure is spent. -/
theorem Rehearsal.Blinded.spared {egress : String} {policy : Internet} {slot : Slot}
    {rehearsal : Rehearsal World} (h : rehearsal.Blinded) :
    ((Slot.prepare egress policy).run.run slot).Spared .homing (rehearsing World.machine) (·.machine) egress
      rehearsal := by
  obtain ⟨failure, after, hanswer, hsame, hhonest⟩ := h.answer
  have hspared {next : Except NetworkError Bool → Program (Except PrepareFailure Unit × Slot)} :
      (Program.call (.namespaceExists slot.id.namespaceName) [] next).Spared .homing
        (rehearsing World.machine) (·.machine) egress rehearsal := by
    refine ⟨fun part rest hundoing hwhole => ?_, _, after, hanswer,
      .inr ⟨failure, fun _ origin hcall => (by cases hcall), rfl, hsame⟩, hhonest.spared⟩
    obtain ⟨c, guards, next, rfl, hother⟩ := hundoing.begins
    simp only [Program.bind, Program.call.injEq] at hwhole
    exact (hother _ hwhole.1.symm).elim
  exact hspared

namespace Sequence

variable {hazard : Hazard} {machine : Machine σ} {view : σ → World} {egress : String}

/-- A spared run of a sequence comes to its end, with `ok` when it succeeds and with `err` when it fails. -/
def Attains (hazard : Hazard) (machine : Machine σ) (view : σ → World) (egress : String)
    (steps : SequenceOf ε α) (ok : α → Assertion World) (err : ε → Assertion World) (slot : Slot) (s : σ) :
    Prop :=
  (steps.run.run slot).Spared hazard machine view egress s →
    ∃ result after s', (steps.run.run slot).run machine s = (some (result, after), s') ∧
      byResult ok err result after (view s')

variable {ok : α → Assertion World} {err : ε → Assertion World} {slot : Slot} {s : σ}

/-- What a spared run comes to may be weakened. -/
theorem Attains.mono {ok' : α → Assertion World} {err' : ε → Assertion World} {steps : SequenceOf ε α}
    (h : Attains hazard machine view egress steps ok err slot s)
    (hok : ∀ value slot world, ok value slot world → ok' value slot world)
    (herr : ∀ failure slot world, err failure slot world → err' failure slot world) :
    Attains hazard machine view egress steps ok' err' slot s := by
  intro hspared
  obtain ⟨result, after, s', hrun, hend⟩ := h hspared
  refine ⟨result, after, s', hrun, ?_⟩
  cases result with
  | ok value => exact hok value after _ hend
  | error failure => exact herr failure after _ hend

/-- A sequence that cannot fail succeeds. -/
theorem Attains.succeeds {steps : SequenceOf ε α}
    (h : Attains hazard machine view egress steps ok (fun _ _ _ => False) slot s)
    (hspared : (steps.run.run slot).Spared hazard machine view egress s) :
    ∃ value after s',
      (steps.run.run slot).run machine s = (some (.ok value, after), s') ∧ ok value after (view s') := by
  obtain ⟨result, after, s', hrun, hend⟩ := h hspared
  cases result with
  | ok value => exact ⟨value, after, s', hrun, hend⟩
  | error failure => exact hend.elim

/-- What holds whatever calls fail holds in a spared run. -/
theorem attains_of_ensures {inv : World → Prop} {steps : SequenceOf ε α}
    (h : Ensures (World.replies hazard) inv steps ok err slot (view s)) :
    Attains hazard machine view egress steps ok err slot s := by
  intro hspared
  obtain ⟨⟨result, after⟩, s', hrun, hend⟩ := hspared.meets.run h
  exact ⟨result, after, s', hrun, hend⟩

/-- No call fails while the network of a slot is undone. -/
theorem attains_undoing {inv : World → Prop} {ok : Unit → Assertion World}
    {err : NetworkError → Assertion World} {steps : Sequence Unit}
    (hundoing : Slot.Undoing egress (steps.run.run slot))
    (h : Ensures (World.replies .none) inv steps ok err slot (view s)) :
    Attains hazard machine view egress steps ok err slot s := by
  intro hspared
  rw [← Program.bind_done (steps.run.run slot)] at hspared
  obtain ⟨⟨result, after⟩, s', hrun, hend⟩ := (hspared.strictly hundoing).run h
  exact ⟨result, after, s', hrun, hend⟩

theorem attains_pure {value : α} (h : ok value slot (view s)) :
    Attains hazard machine view egress (pure value : SequenceOf ε α) ok err slot s :=
  fun _ => ⟨.ok value, slot, s, rfl, h⟩

theorem attains_throw {failure : ε} (h : err failure slot (view s)) :
    Attains hazard machine view egress (throw failure : SequenceOf ε α) ok err slot s :=
  fun _ => ⟨.error failure, slot, s, rfl, h⟩

/-- A sequence goes on after a success. That the whole run is spared says the same of its first part, and of the
    rest from where the first part ends. -/
theorem Attains.bind {ok : β → Assertion World} {mid : α → Assertion World} {steps : SequenceOf ε α}
    {rest : α → SequenceOf ε β} (hsteps : Attains hazard machine view egress steps mid err slot s)
    (hrest : ∀ value after s', mid value after (view s') →
      Attains hazard machine view egress (rest value) ok err after s') :
    Attains hazard machine view egress (steps >>= rest) ok err slot s := by
  let go (ended : Except ε α × Slot) : Program (Except ε β × Slot) :=
    match ended with
    | (.ok value, after) => (rest value).run.run after
    | (.error failure, after) => .done (.error failure, after)
  have hbind : (steps >>= rest).run.run slot = (steps.run.run slot).bind go := by
    change (steps.run.run slot).bind _ = _
    refine congrArg _ (funext ?_)
    rintro ⟨result, after⟩
    cases result <;> rfl
  intro hspared
  rw [hbind] at hspared
  obtain ⟨result, after, s', hrun, hend⟩ := hsteps hspared.first
  have hnext : (go (result, after)).Spared hazard machine view egress s' := hspared.next hrun
  rw [hbind, Program.run_bind, hrun]
  cases result with
  | ok value => exact hrest value after s' hend hnext
  | error failure => exact ⟨.error failure, after, s', rfl, hend⟩

/-- A sequence that begins by looking at the slot. -/
theorem Attains.get {rest : Slot → SequenceOf ε α}
    (hrest : Attains hazard machine view egress (rest slot) ok err slot s) :
    Attains hazard machine view egress (get >>= rest) ok err slot s :=
  hrest

/-- A sequence that is attempted does not fail: what it comes to is handed on as its result. -/
theorem Attains.attempt {ok : Except NetworkError α → Assertion World} {steps : Sequence α}
    (h : Attains hazard machine view egress steps (fun value => ok (.ok value)) (fun failure => ok (.error failure))
      slot s) :
    Attains hazard machine view egress (Sequence.attempt steps : SequenceOf ε _) ok err slot s := by
  have hbind : (Sequence.attempt steps : SequenceOf ε _).run.run slot =
      (steps.run.run slot).bind fun ended => .done (.ok ended.1, ended.2) := rfl
  intro hspared
  rw [hbind] at hspared
  obtain ⟨result, after, s', hrun, hend⟩ := h hspared.first
  refine ⟨.ok result, after, s', ?_, ?_⟩
  · rw [hbind, Program.run_bind, hrun]
    rfl
  · cases result <;> exact hend

/-- A sequence of which only the failure is kept does not fail either. -/
theorem Attains.failure? {ok : Option NetworkError → Assertion World} {steps : Sequence α}
    (h : Attains hazard machine view egress steps (fun _ => ok none) (fun failure => ok (some failure)) slot s) :
    Attains hazard machine view egress (Sequence.failure? steps : SequenceOf ε _) ok err slot s := by
  have hmap : (Sequence.failure? steps : SequenceOf ε _) =
      Sequence.attempt steps >>= fun result => pure (NetworkError.failure? result) := rfl
  have hattempt : Attains hazard machine view egress (Sequence.attempt steps : SequenceOf ε _)
      (fun result => ok (NetworkError.failure? result)) err slot s := .attempt h
  rw [hmap]
  exact hattempt.bind fun _ _ _ hend => attains_pure hend

/-- A sequence that can be undone, whatever it failed of, fails with nothing but the cause. What undoes it comes
    to its end, since nothing fails in it. -/
theorem Attains.orUndo {done failed undone : Assertion World} {steps undo : Sequence Unit}
    {blame : NetworkError → Option NetworkError → ε}
    (hsteps : Attains hazard machine view egress steps (fun _ => done) (fun _ => failed) slot s)
    (hundo : ∀ after s', failed after (view s') →
      Attains hazard machine view egress undo (fun _ => undone) (fun _ _ _ => False) after s') :
    Attains hazard machine view egress (Slot.orUndo steps undo blame) (fun _ => done)
      (fun failure slot world => (∃ cause, failure = blame cause none) ∧ undone slot world) slot s := by
  have hattempt : Attains hazard machine view egress (Sequence.attempt steps : SequenceOf ε _)
      (byResult (fun _ => done) fun _ => failed) (fun failure slot world =>
        (∃ cause, failure = blame cause none) ∧ undone slot world) slot s := .attempt hsteps
  refine hattempt.bind fun result after s' hend => ?_
  cases result with
  | ok value => exact attains_pure hend
  | error cause =>
    have hfailure : Attains hazard machine view egress (Sequence.failure? undo : SequenceOf ε _)
        (fun failure slot world => failure = none ∧ undone slot world) (fun failure slot world =>
          (∃ cause, failure = blame cause none) ∧ undone slot world) after s' :=
      .failure? ((hundo after s' hend).mono (fun _ _ _ hundone => ⟨rfl, hundone⟩) fun _ _ _ => False.elim)
    refine hfailure.bind fun failure after s' hundone => ?_
    obtain ⟨rfl, hundone⟩ := hundone
    exact attains_throw ⟨⟨cause, rfl⟩, hundone⟩

end Sequence
end SlotPool
