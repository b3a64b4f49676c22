import SlotPool.Proofs.Slot.Lasting
import SlotPool.Proofs.Slot.Scopes
import SlotPool.Proofs.World.Relics
/-!
Calls that change the current namespace of a machine and nothing else. What holds of the namespace whatever fails is
kept apart from what is known of it exactly, unless a call fails besides those that the machine itself refuses.
-/

namespace SlotPool

theorem Hazard.any_strikes : Hazard.any.Strikes := ⟨.currentNamespace, [], .notFound "", trivial⟩

/-- What a program without guards leads to, whichever calls fail and whichever of them ends it. -/
theorem Program.Plain.leads {α : Type} {inv : World → Prop} {post : α → World → Prop} {p : Program α}
    {before after : World} {outcome : Option α} (hplain : p.Plain)
    (hp : p.Ensures (World.replies .any) inv post before) (hleads : p.Leads before outcome after) :
    match outcome with
    | none => inv after
    | some value => post value after := by
  obtain ⟨σ, machine, view, state, state', hmachine, rfl, hrun, rfl⟩ := hleads
  cases outcome with
  | none => exact hplain.crash hmachine hp hrun
  | some value => exact hp.run hmachine hrun

open Sequence

/-- What a slot remembers of its firewall. -/
def SlotId.Records (id : SlotId) (record : Option Internet) (slot : Slot) : Prop :=
  slot.id = id ∧ slot.firewall = record

/-- The current namespace of a machine that otherwise is as it was at first: `sure` holds of it whatever fails, and
    `exact` unless a call fails besides those that the machine itself refuses. -/
def Held (hazard : Hazard) (start : World) (memory : Slot → Prop) (sure exact : Namespace → Prop) : Assertion World :=
  fun slot world => memory slot ∧ ∃ ns, sure ns ∧ (¬ hazard.Strikes → exact ns) ∧
    world = start.setNamespace start.current ns

namespace Held

variable {hazard : Hazard} {id : SlotId} {start : World} {base : Namespace} {memory : Slot → Prop}
  {sure sure' exact exact' : Namespace → Prop} {name : String} {c : Call}
  {change : Namespace → Except NetworkError Namespace}

theorem relic (hsure : ∀ ns, sure ns → base.Relic id ns) {slot : Slot} {world : World}
    (h : Held hazard start memory sure exact slot world) : World.Relic id base start world := by
  obtain ⟨-, ns, hns, -, hworld⟩ := h
  exact ⟨ns, hsure ns hns, hworld⟩

/-- A call that changes the current namespace. If it fails, the namespace is as it was, and it is the machine that
    refused the call unless some call may fail besides. -/
theorem edited (hedits : c.Edits change) (hsure : ∀ ns, sure ns → base.Relic id ns)
    (hok : ∀ ns ns', sure ns → change ns = .ok ns' → sure' ns' ∧ (exact ns → exact' ns')) (slot : Slot) (world : World)
    (h : Held hazard start memory sure exact slot world) :
    Ensures (World.replies hazard) (World.Relic id base start) (perform c)
      (fun _ => Held hazard start memory sure' exact')
      (fun failure => Held hazard start memory sure fun ns => exact ns ∧ change ns = .error failure) slot world := by
  rw [ensures_perform]
  refine ⟨h.relic hsure, fun result world' hreply => ?_⟩
  obtain ⟨hmemory, ns, hns, hexact, rfl⟩ := h
  -- either the machine answers, and its answer tells the change, or the call is struck and nothing is changed
  rcases hreply with hanswered | ⟨failure, hstruck, rfl, rfl⟩
  · rcases hedits.answer hanswered with ⟨failure, hchange, rfl, rfl⟩ | ⟨ns', value, hchange, rfl, rfl⟩
    · exact ⟨hmemory, ns, hns, fun hcalm => ⟨hexact hcalm, hchange⟩, rfl⟩
    · obtain ⟨hns', hexact'⟩ := hok ns ns' hns hchange
      exact ⟨hmemory, ns', hns', fun hcalm => hexact' (hexact hcalm), rfl⟩
  · exact ⟨hmemory, ns, hns, fun hcalm => (hcalm ⟨_, _, _, hstruck⟩).elim, rfl⟩

/-- A call that has to succeed, and that the machine does not refuse where the namespace is as expected. If it
    fails all the same, it was made to fail, and then nothing is known but what is left in any case. -/
theorem strict {here there : Namespace} (hedits : c.Edits change) (hsure : ∀ ns, sure ns → base.Relic id ns)
    (hok : ∀ ns ns', sure ns → change ns = .ok ns' → sure' ns') (hmade : change here = .ok there) :
    Triple (World.replies hazard) (World.Relic id base start) (Held hazard start memory sure (· = here))
      (step name (perform c)) (Held hazard start memory sure' (· = there))
      (Held hazard start memory (base.Relic id) fun _ => False) := by
  have hexact (ns ns' : Namespace) (hns : sure ns) (hchange : change ns = .ok ns') :
      sure' ns' ∧ (ns = here → ns' = there) := by
    refine ⟨hok ns ns' hns hchange, ?_⟩
    rintro rfl
    exact Except.ok.inj (hchange.symm.trans hmade)
  intro slot world h
  rw [ensures_step]
  refine (edited hedits hsure hexact slot world h).mono (fun _ _ _ hpost => hpost) ?_
  rintro failure after world' ⟨hmemory, ns, hns, hrefused, hworld⟩
  refine ⟨hmemory, ns, hsure ns hns, fun hcalm => ?_, hworld⟩
  obtain ⟨rfl, hchange⟩ := hrefused hcalm
  cases hchange.symm.trans hmade

/-- A call that may find nothing to act on. That it finds nothing says that the namespace is already as it is to
    be. -/
theorem lenient {steps : Sequence Unit}
    (hsteps : ∀ slot world, Held hazard start memory (base.Relic id) exact slot world →
      Ensures (World.replies hazard) (World.Relic id base start) steps
        (fun _ => Held hazard start memory (base.Relic id) exact')
        (fun failure => Held hazard start memory (base.Relic id) fun ns => exact ns ∧ change ns = .error failure)
        slot world)
    (herror : ∀ ns failure, base.Relic id ns → exact ns → change ns = .error failure →
      failure.isNotFound = true ∧ exact' ns) :
    Triple (World.replies hazard) (World.Relic id base start) (Held hazard start memory (base.Relic id) exact)
      (step name (tolerant steps)) (Held hazard start memory (base.Relic id) exact')
      (Held hazard start memory (base.Relic id) fun _ => False) := by
  intro slot world h
  rw [ensures_step, ensures_tolerant]
  refine (hsteps slot world h).mono (fun _ _ _ hpost => hpost) ?_
  rintro failure after world' ⟨hmemory, ns, hns, hexact, hworld⟩
  have hrefused (hcalm : ¬ hazard.Strikes) := herror ns failure hns (hexact hcalm).1 (hexact hcalm).2
  split
  · exact ⟨hmemory, ns, hns, fun hcalm => (hrefused hcalm).2, hworld⟩
  · rename_i hpresent
    exact ⟨hmemory, ns, hns, fun hcalm => hpresent (hrefused hcalm).1, hworld⟩

/-- Where any call may fail nothing is known exactly, and what is sure is all that a sequence needs and leaves. -/
theorem leaves {steps : Sequence Unit} {exact'' : Namespace → Prop} {memory' memory'' : Slot → Prop} {slot : Slot}
    {world : World}
    (hsteps : Triple (World.replies .any) (World.Relic id base start)
      (Held .any start memory (base.Relic id) exact) steps (Held .any start memory' (base.Relic id) exact')
      (Held .any start memory'' (base.Relic id) exact''))
    (hmemory : memory slot) (h : World.Relic id base start world) :
    Ensures (World.replies .any) (World.Relic id base start) steps (fun _ _ => World.Relic id base start)
      (fun _ _ => World.Relic id base start) slot world := by
  obtain ⟨ns, hns, rfl⟩ := h
  refine (hsteps slot _ ⟨hmemory, ns, hns, fun hcalm => (hcalm Hazard.any_strikes).elim, rfl⟩).mono ?_ ?_
  · exact fun _ _ _ hpost => hpost.relic fun _ h => h
  · exact fun _ _ _ hfail => hfail.relic fun _ h => h

/-- Where no call fails besides those that the machine refuses, the exact state is reached, and the run has come
    to its end. -/
theorem run {inv : World → Prop} {steps : Sequence Unit} {memory' memory'' : Slot → Prop}
    {sure'' : Namespace → Prop} {ns : Namespace} {slot : Slot} {world : World}
    (hsteps : Triple (World.replies .none) inv (Held .none start memory sure exact) steps
      (Held .none start memory' sure' (· = ns)) (Held .none start memory'' sure'' fun _ => False))
    (h : Held .none start memory sure exact slot world) :
    ∃ after, (steps.run.run slot).run World.machine world =
      (some (.ok (), after), start.setNamespace start.current ns) ∧ memory' after := by
  obtain ⟨⟨result, after⟩, last, hrun, hend⟩ := World.run_of_ensures (hsteps slot world h)
  cases result with
  | error failure =>
    obtain ⟨-, found, -, hfailed, -⟩ := hend
    exact (hfailed Hazard.none_strikes).elim
  | ok value =>
    obtain ⟨hmemory, found, -, hfound, rfl⟩ := hend
    obtain rfl := hfound Hazard.none_strikes
    exact ⟨after, hrun, hmemory⟩

end Held

end SlotPool
