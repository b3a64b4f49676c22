import SlotPool.Proofs.Primitive.Mild
import SlotPool.Proofs.Primitive.Trace
/-!
Programs seen through the record of their calls alone. A machine may answer each call in any way; what a program
ensures when all that is known of the past is its record, it ensures on every machine.
-/

namespace SlotPool

/-- Every reply is put on record, and there is nothing else. -/
def recording : Replies (List Record) :=
  fun call _ told result told' => told' = told ++ [⟨call, .returned result⟩]

namespace Program

variable {σ τ α : Type} {machine : Machine σ} {state : σ}

/-- Every call returns to which the program comes on the machine. -/
def Returns (machine : Machine σ) (p : Program α) (state : σ) : Prop :=
  p.Meets machine id (fun _ _ _ _ _ => True) state

/-- Where every answer meets the replies, every call returns: to be killed by a call is no reply to it. -/
theorem Meets.returns {view : σ → τ} {replies : Replies τ} {p : Program α}
    (h : p.Meets machine view replies state) : p.Returns machine state := by
  induction p generalizing state with
  | done value => trivial
  | call c guards next ih =>
    obtain ⟨result, after, hanswer, -, hrest⟩ := h
    exact ⟨result, after, hanswer, trivial, ih result hrest⟩

/-- A run that has a value has lost no thread on the way. -/
theorem returns_of_run {p : Program α} {value : α} {after : σ} (h : p.run machine state = (some value, after)) :
    p.Returns machine state := by
  induction p generalizing state with
  | done value => trivial
  | call c guards next ih =>
    cases hanswer : machine.answer c state with
    | mk answer between =>
      cases answer with
      | crashed =>
        simp only [run, hanswer] at h
        cases h
      | returned result =>
        simp only [run, hanswer] at h
        exact ⟨result, between, hanswer, trivial, ih result h⟩

/-- What a program ensures of its record holds of the calls that it makes on a machine. -/
theorem Ensures.recorded {inv : List Record → Prop} {post : α → List Record → Prop} {p : Program α}
    {told : List Record} (hp : p.Ensures recording inv post told) (hreturns : p.Returns machine state) :
    ∃ value after, p.run machine state = (some value, after) ∧
      post value (told ++ (p.trace machine state).map (·.toRecord)) := by
  induction p generalizing told state with
  | done value =>
    refine ⟨value, state, rfl, ?_⟩
    rw [trace, List.map_nil, List.append_nil]
    exact hp
  | call c guards next ih =>
    obtain ⟨result, between, hanswer, -, hrest⟩ := hreturns
    obtain ⟨value, after, hrun, hpost⟩ := ih result (hp.2 result _ rfl) hrest
    refine ⟨value, after, ?_, ?_⟩
    · simp only [Program.run, hanswer]
      exact hrun
    · simpa only [trace, hanswer, List.map_cons, List.append_assoc, List.singleton_append] using hpost

end Program
end SlotPool
