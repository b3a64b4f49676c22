import SlotPool.Proofs.Primitive.Ensures
import SlotPool.Proofs.Primitive.Trace
/-!
Programs that set guards one after another. A guard is alive from the capture of the current namespace on until the
thread is taken back there, and this is done once, whatever the answers to the calls in between are and also when
one of them kills the thread.
-/

namespace SlotPool

variable {α β σ : Type}

/-- The calls of a run in which each guard is dropped once. As long as none is alive, the thread is not moved but by
    dropping one. `here` is the namespace in which the thread is. -/
inductive Guarded (here : σ → String) : List (Event σ) → Prop
  | nil : Guarded here []
  | free {event : Event σ} {rest : List (Event σ)} (hguards : event.guards = []) (hcaptured : event.captured = none)
      (hstays : ∀ target, event.call ≠ .enterNamespace target) (hrest : Guarded here rest) :
      Guarded here (event :: rest)
  /-- all calls between a capture and the drop are made under the guard -/
  | scope {capture drop : Event σ} {inner rest : List (Event σ)} {origin : Handle} (hguards : capture.guards = [])
      (hcaptured : capture.captured = some origin) (horigin : origin.label = here capture.before)
      (hinner : ∀ event ∈ inner, event.guards = [origin] ∧ event.captured = none)
      (hdrop : drop.call = .enterNamespace origin) (hdropped : drop.guards = []) (hrest : Guarded here rest) :
      Guarded here (capture :: (inner ++ drop :: rest))

/-- A call that is not a look at the current namespace captures nothing. -/
theorem captured_eq_none {call : Call} {answer : Answer call.Reply} {guards : List Handle} {before : σ}
    (h : call ≠ .currentNamespace) : (⟨⟨call, answer⟩, guards, before⟩ : Event σ).captured = none := by
  cases call with
  | currentNamespace => exact (h rfl).elim
  | _ => rfl

namespace Program

variable {machine : Machine σ} {state : σ}

/-- A kind of programs that one can put together. -/
structure Closed (kind : (α : Type) → Program α → Prop) : Prop where
  done : ∀ {α : Type} (value : α), kind α (.done value)
  bind : ∀ {α β : Type} {p : Program α} {f : α → Program β}, kind α p → (∀ value, kind β (f value)) →
    kind β (p.bind f)

/-- A program in which no guard is set. -/
def Plain (α : Type) : Program α → Prop
  | .done _ => True
  | .call c guards next => guards = [] ∧ c ≠ .currentNamespace ∧ ∀ result, (next result).Plain

/-- Programs that capture nothing and take the thread nowhere can be put together in every way. -/
theorem plain_closed : Closed Plain where
  done _ := trivial
  bind {_ _ p _} hp hf := by
    induction p with
    | done value => exact hf value
    | call c guards next ih => exact ⟨hp.1, hp.2.1, fun result => ih result (hp.2.2 result)⟩

/-- A program in which no guard is set leaves what holds at each call when one of them ends it. -/
theorem Plain.crash {τ : Type} {view : σ → τ} {replies : Replies τ} {inv : τ → Prop} {post : α → τ → Prop}
    {p : Program α} {state' : σ} (hplain : p.Plain) (hmachine : machine.Within view replies)
    (hp : p.Ensures replies inv post (view state)) (hrun : p.run machine state = (none, state')) :
    inv (view state') := by
  induction p generalizing state with
  | done value => simp [run] at hrun
  | call c guards next ih =>
    obtain ⟨rfl, -, hnext⟩ := hplain
    have hanswer := hmachine c [] state
    cases hcall : machine.answer c state with
    | mk answer after =>
      simp only [hcall] at hanswer
      cases answer with
      | returned result =>
        simp only [run, hcall] at hrun
        exact ih result (hnext result) (hp.2 result _ hanswer) hrun
      | crashed =>
        simp only [run, hcall, restore, List.foldl_nil, Prod.mk.injEq, true_and] at hrun
        rw [← hrun, hanswer]
        exact hp.1

/-- A program in which guards are set one after another. A guard is set whenever a namespace is captured, and its
    scope is a part of the program in which no other guard is set. -/
inductive Scoped : (α : Type) → Program α → Prop
  | done {α : Type} (value : α) : Scoped α (.done value)
  | call {α : Type} {c : Call} {next : Except NetworkError c.Reply → Program α} (hcapture : c ≠ .currentNamespace)
      (hstays : ∀ target, c ≠ .enterNamespace target) (hnext : ∀ result, Scoped α (next result)) :
      Scoped α (.call c [] next)
  | scope {α β : Type} {next : Except NetworkError Handle → Program α} {inner : Handle → Program β}
      {rest : Handle → β → Program α} (hfailed : ∀ failure, Scoped α (next (.error failure)))
      (hscope : ∀ origin, next (.ok origin) = ((inner origin).guarded origin).bind (rest origin))
      (hinner : ∀ origin, (inner origin).Plain) (hrest : ∀ origin value, Scoped α (rest origin value)) :
      Scoped α (.call .currentNamespace [] next)

/-- Programs that set their guards one after another can be put together in every way. -/
theorem scoped_closed : Closed Scoped where
  done := .done
  bind {_ _ p _} hp hf := by
    induction hp with
    | done value => exact hf value
    | call hcapture hstays hnext ih => exact .call hcapture hstays fun result => ih result
    | scope hfailed hscope hinner hrest ihFailed ihRest =>
      refine .scope ihFailed (fun origin => ?_) hinner ihRest
      rw [hscope, bind_assoc]

/-- Whatever comes of the calls under a guard, the last call takes the thread back. -/
theorem Plain.trace_guarded {p : Program α} {origin : Handle} (h : p.Plain) : ∃ inner drop,
    (p.guarded origin).trace machine state = inner ++ [drop] ∧
      (∀ event ∈ inner, event.guards = [origin] ∧ event.captured = none) ∧
      drop.call = .enterNamespace origin ∧ drop.guards = [] := by
  induction p generalizing state with
  | done value =>
    refine ⟨[], ⟨⟨.enterNamespace origin, (machine.answer (.enterNamespace origin) state).1⟩, [], state⟩, ?_,
      by simp, rfl, rfl⟩
    cases hanswer : machine.answer (.enterNamespace origin) state with
    | mk answer after => cases answer <;> simp [guarded, trace, restoring, hanswer]
  | call c guards next ih =>
    obtain ⟨rfl, hcapture, hnext⟩ := h
    cases hanswer : machine.answer c state with
    | mk answer after =>
      cases answer with
      | returned result =>
        obtain ⟨inner, drop, htrace, hinner, hdrop⟩ := @ih result after (hnext result)
        refine ⟨⟨⟨c, .returned result⟩, [origin], state⟩ :: inner, drop, ?_, ?_, hdrop⟩
        · simp only [guarded, trace, hanswer, htrace, List.nil_append, List.cons_append]
        · exact List.forall_mem_cons.mpr ⟨⟨rfl, captured_eq_none hcapture⟩, hinner⟩
      | crashed =>
        refine ⟨[⟨⟨c, .crashed⟩, [origin], state⟩],
          ⟨⟨.enterNamespace origin, (machine.answer (.enterNamespace origin) after).1⟩, [], after⟩, ?_, ?_, rfl, rfl⟩
        · simp only [guarded, trace, hanswer, restoring, List.nil_append, List.singleton_append]
        · exact List.forall_mem_cons.mpr ⟨⟨rfl, captured_eq_none hcapture⟩, by simp⟩

/-- In a run of such a program each guard is dropped once. -/
theorem Scoped.trace_guarded {here : σ → String} {p : Program α}
    (hmachine : ∀ state origin after, machine.answer .currentNamespace state = (.returned (.ok origin), after) →
      origin.label = here state)
    (h : p.Scoped) : Guarded here (p.trace machine state) := by
  induction h generalizing state with
  | done value => exact .nil
  | @call c next hcapture hstays hnext ih =>
    cases hanswer : machine.answer c state with
    | mk answer after =>
      cases answer with
      | returned result =>
        simp only [trace, hanswer]
        exact .free rfl (captured_eq_none hcapture) hstays (ih result)
      | crashed =>
        simp only [trace, hanswer, restoring]
        exact .free rfl (captured_eq_none hcapture) hstays .nil
  | @scope β next inner rest hfailed hscope hinner hrest ihFailed ihRest =>
    cases hanswer : machine.answer .currentNamespace state with
    | mk answer after =>
      cases answer with
      | crashed =>
        simp only [trace, hanswer, restoring]
        exact .free rfl rfl (by simp) .nil
      | returned result =>
        simp only [trace, hanswer]
        cases result with
        | error failure => exact .free rfl rfl (by simp) (ihFailed failure)
        | ok origin =>
          obtain ⟨events, drop, htrace, hevents, hdrop, hdropped⟩ :=
            @Plain.trace_guarded β σ machine after (inner origin) origin (hinner origin)
          rw [hscope, trace_bind, htrace, List.append_assoc, List.singleton_append]
          refine .scope rfl rfl (hmachine state origin after hanswer) hevents hdrop hdropped ?_
          split
          · exact ihRest origin _
          · exact .nil

end Program
end SlotPool
