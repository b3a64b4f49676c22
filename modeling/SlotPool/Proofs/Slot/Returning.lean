import SlotPool.Proofs.Slot.Mild
import SlotPool.Proofs.Slot.Scopes
import SlotPool.Proofs.World.Places
/-!
The way back. Whatever is done for a slot on the host and whatever fails in it, the thread is on the host in the end,
unless the very call fails by which a guard takes it back. And this call is made once for each guard that is set, to
the namespace that was current when it was set.
-/

namespace SlotPool

open Sequence

/-- The host's own namespace is never gone. No call deletes it, and every call leaves the others on record or
    takes one other off. -/
theorem World.host_stays {world after : World} {call : Call} {result : Except NetworkError call.Reply}
    (hanswer : world.answer call = (result, after)) (hhost : hostNamespace ∈ world.namespaces) :
    hostNamespace ∈ after.namespaces := by
  cases result with
  | error failure => exact answer_error hanswer ▸ hhost
  | ok value =>
    cases call with
    | currentNamespace | namespaceExists name | egressInterface =>
      obtain ⟨-, rfl⟩ := by simpa [answer] using hanswer
      exact hhost
    | linkExists name => exact linkExists_ok hanswer ▸ hhost
    | enterNamespace target =>
      obtain ⟨-, rfl⟩ := enter_ok hanswer
      exact hhost
    | openNamespace name =>
      obtain ⟨-, -, rfl⟩ := openNamed_ok hanswer
      exact hhost
    | createNamespace name =>
      obtain ⟨-, -, rfl⟩ := createNamed_ok hanswer
      exact Std.ExtTreeMap.mem_insert.mpr (.inr hhost)
    | deleteNamespace name => exact ((deleteNamed_places hanswer).2 _).mpr ⟨(deleteNamed_ok hanswer).1.symm, hhost⟩
    | addVethPair name peer =>
      obtain ⟨ns, -, rfl⟩ := layCable_ok hanswer
      exact Std.ExtTreeMap.mem_insert.mpr (.inr hhost)
    | moveLink link target =>
      obtain ⟨-, ns, -, -, rfl⟩ := moveLink_ok hanswer
      exact Std.ExtTreeMap.mem_modify.mpr (Std.ExtTreeMap.mem_insert.mpr (.inr hhost))
    | deleteLink name =>
      obtain ⟨ns, hns, -, rfl⟩ := deleteLink_ok hanswer
      exact (((samePlaces_setNamespace hns).trans samePlaces_dropPeer).namespaces _).mpr hhost
    | _ => exact ((samePlaces_edit hanswer).namespaces _).mpr hhost

/-- A job for a slot on a machine that has its host. -/
def Hosted (id : SlotId) (slot : Slot) (world : World) : Prop :=
  slot.id = id ∧ hostNamespace ∈ world.namespaces

namespace Hosted

variable {hazard : Hazard} {id : SlotId} {egress : String} {slot : Slot} {world world' : World} {c : Call}
  {guards : List Handle} {result : Except NetworkError c.Reply}

/-- No call takes the host away. -/
theorem call (h : Hosted id slot world) (hreply : World.replies hazard c guards world result world') :
    Hosted id slot world' := by
  rcases hreply with hanswer | ⟨-, -, -, rfl⟩
  · exact ⟨h.1, World.host_stays hanswer h.2⟩
  · exact h

variable (hazard id egress)

/-- The host stays on record whatever is done for a slot, so that there is always a host to return to. Nothing
    else is asked of the calls. -/
theorem frame : Frame (World.replies hazard) (fun _ => True) id egress (fun _ => True) (fun _ => True)
    (fun _ => True) (Hosted id) (Hosted id) (Hosted id) where
  of_inside h := h
  holds _ := trivial
  id_eq h := h.1
  handle _ _ := trivial
  capture h hreply := ⟨h.call hreply, fun _ _ => trivial⟩
  returns _ h hreply := h.call hreply
  opens h hreply := ⟨h.call hreply, fun _ _ => trivial⟩
  enters _ h hreply := ⟨h.call hreply, fun _ => h.call hreply⟩
  rules _ h hreply := h.call hreply
  unchains _ h _ hreply := h.call hreply
  chains h _ hreply := ⟨h.call hreply, fun _ => h.call hreply⟩
  hooks h hreply := ⟨h.call hreply, fun _ => ⟨by simpa using h.1, (h.call hreply).2⟩⟩
  made_holds _ := trivial
  memory hid _ _ := ⟨fun h => ⟨hid.trans h.1, h.2⟩, fun h => ⟨hid.trans h.1, h.2⟩⟩
  forgets h := h
  outer _ h hreply := h.call hreply
  deletes h _ hreply := h.call hreply
  inner _ h hreply := h.call hreply
  creates h hreply := ⟨h.call hreply, fun _ _ => h.call hreply⟩

variable {hazard}

/-- Visits that begin on the host, where guards always take the thread back. Nothing else is asked of what holds
    in between. -/
theorem around (hreturns : hazard.Returns) :
    Around (World.replies hazard) (fun _ => True) (fun origin => origin.label = hostNamespace) (Hosted id)
      (fun slot world => Hosted id slot world ∧ world.current = hostNamespace)
      (fun slot world => Hosted id slot world ∧ world.current = hostNamespace) where
  holds _ := trivial
  returns {origin slot world result world'} horigin h hreply := by
    refine ⟨h.call hreply, ?_⟩
    rcases hreply with hanswered | ⟨failure, hstruck, -⟩
    · obtain ⟨rfl, rfl⟩ := World.enter_mem (horigin ▸ h.2) hanswered
      exact horigin
    · exact (hreturns _ _ hstruck).elim
  out h := h.1
  stays h := h
  captures h hreply := by
    obtain ⟨rfl, hcaptured⟩ := World.replies_captured hreply
    exact ⟨h, fun origin hresult => hcaptured origin hresult ▸ h.2⟩
  unwalled h := ⟨⟨by simpa using h.1.1, h.1.2⟩, h.2⟩

end Hosted

/-- Faults strike no move between namespaces, and none kills the thread. -/
def Rehearsal.Homing (rehearsal : Rehearsal World) : Prop :=
  rehearsal.refused = [] ∧ ∀ fault ∈ rehearsal.faults,
    fault.operation ≠ "enter_namespace" ∧ fault.failure.isSome = true

/-- When no ordered fault can hit the way back, the run meets a hazard that spares the way back. -/
theorem Rehearsal.Homing.meets {α : Type} {p : Program α} {rehearsal : Rehearsal World} (h : rehearsal.Homing) :
    p.Meets (rehearsing World.machine) (·.machine) (World.replies .homing) rehearsal := by
  have hanswer (c : Call) (guards : List Handle) (rehearsal : Rehearsal World) (h : rehearsal.Homing) :
      ∃ result after, (rehearsing World.machine).answer c rehearsal = (.returned result, after) ∧
        World.replies .homing c guards rehearsal.machine result after.machine ∧ after.Homing := by
    refine answer_faulty (fun _ _ _ hfault _ => hfault) (fun fault hfault hoperation => ?_) h.1 h.2
    obtain ⟨failure, hfailure⟩ := Option.isSome_iff_exists.mp hfault.2
    refine ⟨failure, hfailure, ?_⟩
    rintro - origin rfl
    exact hfault.1 hoperation
  have hmild : p.Mild (rehearsing World.machine) (·.machine) (World.replies .homing) (World.replies .homing)
      (fun _ : Program Unit => False) rehearsal :=
    Program.mild_of_strict hanswer (fun _ _ _ _ _ hreply => hreply) h
  exact hmild.meets

namespace Errand

variable {σ : Type} {machine : Machine σ} {view : σ → World} {egress : String} {slot : Slot} {state : σ}

/-- Where guards always take the thread back, whatever is done on the host ends there. -/
theorem returns {hazard : Hazard} (errand : Errand) (hreturns : hazard.Returns) (id : SlotId) :
    Triple (World.replies hazard) (fun _ => True)
      (fun slot world => Hosted id slot world ∧ world.current = hostNamespace) (errand.steps egress)
      (fun slot world => Hosted id slot world ∧ world.current = hostNamespace)
      (fun slot world => Hosted id slot world ∧ world.current = hostNamespace) :=
  have hclearing := World.clearing_staying (Hosted.frame hazard id egress).clearing hostNamespace
  errand.steps_around (Hosted.frame hazard id egress) (Hosted.around id hreturns) (Hosted.around id hreturns) hclearing
    hclearing fun _ _ => trivial

/-- Whatever is done for a slot from the host ends on the host, unless a call fails by which a guard takes the
    thread back. Each guard that is set is dropped once, by a call that takes the thread to the namespace that was
    current when it was set, whatever fails and even if the thread dies. -/
theorem returns_home (errand : Errand) (hmachine : machine.Within view (World.replies .any))
    (hcurrent : (view state).current = hostNamespace) (hhost : hostNamespace ∈ (view state).namespaces) :
    Guarded (fun state => (view state).current) ((errand.program egress slot).trace machine state) ∧
      ((errand.program egress slot).Meets machine view (World.replies .homing) state →
        ∃ result after state', (errand.program egress slot).run machine state = (some (result, after), state') ∧
          (view state').current = hostNamespace) := by
  constructor
  · refine (errand.scoped slot).trace_guarded fun state origin after hanswer => ?_
    have hreply := hmachine .currentNamespace [] state
    rw [hanswer] at hreply
    exact congrArg Handle.label ((World.replies_captured hreply).2 origin rfl)
  · intro hmeets
    obtain ⟨⟨result, after⟩, state', hrun, hend⟩ :=
      hmeets.run (errand.returns Hazard.homing_returns slot.id slot _ ⟨⟨rfl, hhost⟩, hcurrent⟩)
    refine ⟨result, after, state', hrun, ?_⟩
    cases result with
    | ok value => exact hend.2
    | error failure => exact hend.2

/-- A tap device cannot be made. -/
def tapFault : Fault := ⟨"add_tap", 0, 1, some (.command "ip" "failed")⟩

/-- The tap device cannot be added. The guard still takes the thread back to the host, by the one call that it
    makes. -/
theorem returns_home_withoutTap :
    Guarded (fun rehearsal : Rehearsal World => rehearsal.machine.current)
        (((operate .create).program "eth0" (.fresh 0)).trace (Rehearsal.rehearsing World.machine)
          (Rehearsal.order (.start .fresh) tapFault)) ∧
      ∃ result after rehearsal, ((operate .create).program "eth0" (.fresh 0)).run (Rehearsal.rehearsing World.machine)
          (Rehearsal.order (.start .fresh) tapFault) = (some (result, after), rehearsal) ∧
        rehearsal.machine.current = hostNamespace := by
  have hhoming : (Rehearsal.order (.start .fresh) tapFault).Homing :=
    ⟨rfl, fun fault hmem => List.mem_singleton.mp hmem ▸ ⟨by decide, rfl⟩⟩
  have hcurrent : (Rehearsal.order (.start World.fresh) tapFault).machine.current = hostNamespace := rfl
  have hhost : hostNamespace ∈ (Rehearsal.order (.start World.fresh) tapFault).machine.namespaces :=
    Std.ExtTreeMap.mem_insert_self
  have hends := @returns_home _ _ _ "eth0" (.fresh 0) _ (operate .create) Rehearsal.rehearsing_within hcurrent hhost
  exact ⟨hends.1, hends.2 hhoming.meets⟩

end Errand
end SlotPool
