import SlotPool.Proofs.Slot.Frame
/-!
What a slot remembers after a job, whatever any machine replies: its number never changes, a slot
that is handed out remembers the policy that was asked for, and one that was taken back remembers
that it is open.
-/

namespace SlotPool

/-- Any reply at all. -/
def Replies.any : Replies Unit := fun _ _ _ _ _ => True

theorem Machine.within_any {σ : Type} (machine : Machine σ) :
    machine.Within (fun _ => ()) Replies.any := by
  intro c guards s
  split
  · trivial
  · rfl

instance : Nonempty Handle := ⟨⟨hostNamespace, true⟩⟩

namespace Sequence

variable {ε α : Type}

/-- What holds of result and slot at the end, whatever the replies. -/
abbrev Yields (ok : α → Slot → Prop) (err : ε → Slot → Prop) (steps : SequenceOf ε α)
    (slot : Slot) : Prop :=
  Ensures Replies.any (fun _ => True) steps (fun value slot _ => ok value slot)
    (fun failure slot _ => err failure slot) slot ()

/-- Of a call of which nothing is known, any reply must be allowed for. -/
@[simp]
theorem ensures_perform_any {c : Call} {ok : c.Reply → Slot → Unit → Prop}
    {err : NetworkError → Slot → Unit → Prop} {slot : Slot} {t : Unit} :
    Ensures (α := no_index c.Reply) Replies.any (fun _ => True) (perform c) ok err slot t ↔
      (∀ value, ok value slot ()) ∧ ∀ failure, err failure slot () := by
  rw [ensures_perform]
  constructor
  · intro h
    exact ⟨fun value => h.2 (.ok value) () trivial, fun failure => h.2 (.error failure) () trivial⟩
  · intro h
    refine ⟨trivial, fun result t' _ => ?_⟩
    cases result with
    | ok value => exact h.1 value
    | error failure => exact h.2 failure

@[simp]
theorem under_any {origin : Handle} : Replies.any.under origin = Replies.any := rfl

/-- Inside the slot's namespace a sequence does to the slot what it does elsewhere. Getting there and back does
    nothing to what the slot remembers. -/
theorem Yields.inNamespace {ok : α → Slot → Prop} {err : NetworkError → Slot → Prop}
    {steps : Sequence α} {slot : Slot} (h : Yields ok err steps slot)
    (herr : ∀ failure, err failure slot) : Yields ok err (inNamespace steps) slot := by
  have hsteps (origin : Handle) : Ensures Replies.any (fun _ => True) steps
      (fun value slot _ => True ∧ ∀ result t',
        Replies.any (.enterNamespace origin) [] () result t' → ok value slot)
      (fun failure slot _ => True ∧ ∀ result t',
        Replies.any (.enterNamespace origin) [] () result t' → err failure slot) slot () :=
    h.mono (fun _ _ _ hok => ⟨trivial, fun _ _ _ => hok⟩)
      fun _ _ _ herr => ⟨trivial, fun _ _ _ => herr⟩
  simp only [Sequence.inNamespace, underGuard, ensures_bind, ensures_perform_any, ensures_guarded,
    under_any, ensures_get]
  refine ⟨fun origin => ?_, herr⟩
  have herr' (failure : NetworkError) :
      True ∧ ∀ (_ : Except NetworkError Unit) (_ : Unit), True → err failure slot :=
    ⟨trivial, fun _ _ _ => herr failure⟩
  split
  · simp only [ensures_bind, ensures_perform_any]
    exact ⟨fun _ => hsteps origin, herr'⟩
  · simp only [ensures_bind, ensures_perform_any]
    exact ⟨fun _ => ⟨fun _ => hsteps origin, herr'⟩, herr'⟩

end Sequence

namespace Firewall

open Sequence

variable {slot : Slot}

/-- Only a slot that remembers a firewall can be configured, and it then remembers the policy. -/
theorem configure_memory (policy : Internet) :
    Yields (fun _ after => slot.hasFirewall = true ∧ after = slot.setInternet policy)
      (fun _ after => after = slot) (configure policy) slot := by
  cases h : slot.hasFirewall with
  | false => simp [configure, h]
  | true => cases policy <;> simp [configure, h, Internet.rules, blockRules]

end Firewall

namespace Slot

open Sequence

variable {slot : Slot}

/-- No call changes which slot the work is done for. This holds on any machine, as nothing is asked of its
    replies. -/
theorem frame_id (id : SlotId) (egress : String) :
    Frame Replies.any (fun _ => True) id egress (fun _ => True) (fun _ => True) (fun _ => True)
      (fun slot _ => slot.id = id) (fun slot _ => slot.id = id) (fun slot _ => slot.id = id) where
  of_inside h := h
  holds _ := trivial
  id_eq h := h
  handle _ _ := trivial
  capture h _ := ⟨h, fun _ _ => trivial⟩
  returns _ h _ := h
  opens h _ := ⟨h, fun _ _ => trivial⟩
  enters _ h _ := ⟨h, fun _ => h⟩
  rules _ h _ := h
  unchains _ h _ _ := h
  chains h _ _ := ⟨h, fun _ => h⟩
  hooks h _ := ⟨h, fun _ => by simpa using h⟩
  made_holds _ := trivial
  memory hid _ _ := ⟨fun h => hid.trans h, fun h => hid.trans h⟩
  forgets h := h
  outer _ h _ := h
  deletes h _ _ := h
  inner _ h _ := h
  creates h _ := ⟨h, fun _ _ => h⟩

/-- Applying a policy inside the namespace fails for a slot that has no firewall. When it succeeds, the slot
    remembers the policy, and it never changes the number. -/
theorem configure_inNamespace_memory (policy : Internet) :
    Yields (fun _ after => slot.hasFirewall = true ∧ after.id = slot.id ∧
        after.firewall = some policy)
      (fun _ after => after.id = slot.id) (inNamespace (Firewall.configure policy)) slot := by
  apply Yields.inNamespace
  · refine (Firewall.configure_memory policy).mono (fun _ after _ hafter => ?_) fun _ after _ hsame => ?_
    · obtain ⟨hfirewall, rfl⟩ := hafter
      exact ⟨hfirewall, by simp, setInternet_firewall hfirewall⟩
    · rw [hsame]
  · exact fun _ => rfl

/-- A policy that cannot be applied has the slot removed. -/
theorem applyPolicy_memory {ε : Type} (egress : String) (policy : Internet)
    (blame : NetworkError → Option NetworkError → ε) :
    Yields (fun _ after => slot.hasFirewall = true ∧ after.id = slot.id ∧
        after.firewall = some policy)
      (fun _ _ => True)
      (orUndo (inNamespace (Firewall.configure policy)) (remove egress) blame) slot := by
  rw [Yields, ensures_orUndo]
  refine (configure_inNamespace_memory policy).mono (fun _ _ _ hok => hok) fun _ after _ hid => ?_
  exact ((frame_id slot.id egress).remove_anywhere after () hid).mono (fun _ _ _ _ => trivial)
    fun _ _ _ _ => trivial

/-- A slot that was made ready keeps its number and remembers the policy that was asked for. -/
theorem prepare_memory (egress : String) (policy : Internet) :
    Yields (fun _ after => after.id = slot.id ∧ after.firewall = some policy) (fun _ _ => True)
      (prepare egress policy) slot := by
  have hprovide : Yields (fun _ after => after.id = slot.id) (fun _ after => after.id = slot.id)
      (provide egress) slot := (frame_id slot.id egress).provide_anywhere (fun _ => trivial) slot () rfl
  rw [prepare, Yields, ensures_bind]
  refine hprovide.mono ?_ fun _ _ _ _ => trivial
  rintro - after ⟨⟩ hid
  refine (applyPolicy_memory egress policy PrepareFailure.firewall).mono ?_ fun _ _ _ _ => trivial
  rintro - last - ⟨-, hlast, hpolicy⟩
  exact ⟨hlast.trans hid, hpolicy⟩

/-- Only a slot with a firewall can be taken back, and it then remembers that it is open. -/
theorem release_memory (egress : String) :
    Yields (fun _ after => slot.hasFirewall = true ∧ after.id = slot.id ∧
        after.firewall = some .allowed)
      (fun _ _ => True) (release egress) slot :=
  applyPolicy_memory egress .allowed ResetFailure.mk

variable {σ : Type} {machine : Machine σ} {egress : String} {policy : Internet} {after : Slot}
  {state state' : σ}

theorem prepare_run_ok
    (hrun : ((prepare egress policy).run.run slot).run machine state =
      (some (.ok (), after), state')) :
    after.id = slot.id ∧ after.firewall = some policy :=
  have hmemory := Program.Ensures.run machine.within_any (prepare_memory egress policy) hrun
  hmemory

theorem release_run_ok
    (hrun : ((release egress).run.run slot).run machine state = (some (.ok (), after), state')) :
    slot.hasFirewall = true ∧ after.id = slot.id ∧ after.firewall = some .allowed :=
  have hmemory := Program.Ensures.run machine.within_any (release_memory egress) hrun
  hmemory

end Slot
end SlotPool
