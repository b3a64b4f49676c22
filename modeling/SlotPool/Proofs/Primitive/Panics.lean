import SlotPool.Primitive.Program
/-!
Where a program dies. A run has no value exactly when one of its calls kills the thread. The guards that are alive
at this call then take the thread back, and this is the last that the program does to the machine.
-/

namespace SlotPool.Program

variable {α σ : Type} {machine : Machine σ} {call : Call} {guards : List Handle} {program : Program α}
  {state after between : σ}

/-- A program comes to a call that kills the thread. The guards are those alive at this call, and the last state is
    the one in which the call leaves the machine. -/
inductive Panics (machine : Machine σ) : Program α → σ → Call → List Handle → σ → Prop
  | here {call guards next state between} (hcrash : machine.answer call state = (.crashed, between)) :
      Panics machine (.call call guards next) state call guards between
  | later {first alive next state result after call guards between}
      (hanswer : machine.answer first state = (.returned result, after))
      (hpanics : Panics machine (next result) after call guards between) :
      Panics machine (.call first alive next) state call guards between

theorem Panics.run_eq (h : Panics machine program state call guards between) :
    program.run machine state = (none, restore machine guards between) := by
  induction h with
  | here hcrash => simp only [run, hcrash]
  | later hanswer hpanics ih => simp only [run, hanswer, ih]

/-- A run without a value has come to such a call. -/
theorem exists_panics (h : program.run machine state = (none, after)) : ∃ call guards between,
    Panics machine program state call guards between ∧ after = restore machine guards between := by
  induction program generalizing state with
  | done value => cases h
  | call first alive next ih =>
    cases hanswer : machine.answer first state with
    | mk answer left =>
      cases answer with
      | crashed =>
        simp only [run, hanswer] at h
        exact ⟨first, alive, left, .here hanswer, (Prod.mk.inj h).2.symm⟩
      | returned result =>
        simp only [run, hanswer] at h
        obtain ⟨call, guards, between, hpanics, hafter⟩ := ih result h
        exact ⟨call, guards, between, .later hanswer hpanics, hafter⟩

end SlotPool.Program
