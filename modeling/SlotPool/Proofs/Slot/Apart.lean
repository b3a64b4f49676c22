import SlotPool.Proofs.World.Apart
/-!
A job for one slot leaves what belongs to the others alone. Whatever fails, and wherever the thread is
taken, only what belongs to the slot changes, and its devices stay where they belong. A network is only
made from the host, so that its cable leads there.
-/

namespace SlotPool

open Sequence

/-- What holds of a slot and of the machine at any time of a job for the slot. -/
structure Apart (id : SlotId) (egress : String) (surroundings : Surroundings) (slot : Slot)
    (world : World) : Prop where
  id_eq : slot.id = id
  home : ∀ handle, slot.handle = some handle → handle.label = id.namespaceName
  tidy : world.Tidy id
  surroundings : world.without id egress = surroundings

namespace Apart

/-- What holds at every call of a job for a slot. -/
abbrev Kept (id : SlotId) (egress : String) (surroundings : Surroundings) (world : World) : Prop :=
  world.Tidy id ∧ world.without id egress = surroundings

/-- While the thread is in the slot's namespace. -/
def Inside (id : SlotId) (egress : String) (surroundings : Surroundings) (slot : Slot)
    (world : World) : Prop :=
  Apart id egress surroundings slot world ∧ world.current = id.namespaceName

variable {id : SlotId} {egress : String} {surroundings : Surroundings} {slot after : Slot}
  {world world' : World} {hazard : Hazard}

theorem kept (h : Apart id egress surroundings slot world) : Kept id egress surroundings world :=
  ⟨h.tidy, h.surroundings⟩

/-- The machine changes only in what belongs to the slot. -/
theorem change (h : Apart id egress surroundings slot world)
    (hchange : world'.Tidy id ∧ world'.without id egress = world.without id egress) :
    Apart id egress surroundings slot world' :=
  ⟨h.id_eq, h.home, hchange.1, hchange.2.trans h.surroundings⟩

/-- What a job has left alone does not depend on what the slot remembers, as long as the slot keeps its number
    and remembers its handle or none. -/
theorem memory (h : Apart id egress surroundings slot world) (hid : after.id = slot.id)
    (hhandle : after.handle = slot.handle ∨ after.handle = none) :
    Apart id egress surroundings after world where
  id_eq := hid.trans h.id_eq
  home handle hsome := by
    rcases hhandle with hsame | hnone
    · exact h.home handle (hsame ▸ hsome)
    · rw [hnone] at hsome
      cases hsome
  tidy := h.tidy
  surroundings := h.surroundings

theorem enter {target : Handle} (h : Apart id egress surroundings slot world)
    (hanswer : world.enter target = (.ok (), world')) : Apart id egress surroundings slot world' := by
  obtain ⟨-, rfl⟩ := World.enter_ok hanswer
  exact h.change ⟨h.tidy.congr (fun _ _ => Iff.rfl) rfl, rfl⟩

/-- A change of the slot's namespace that leaves the devices alone. -/
theorem Inside.edit {change : Namespace → Except NetworkError Namespace}
    (h : Inside id egress surroundings slot world)
    (hlinks : ∀ ns ns', change ns = .ok ns' → ns'.links = ns.links)
    (hanswer : world.edit change = (.ok (), world')) : Inside id egress surroundings slot world' := by
  refine ⟨h.1.change (World.edit_inside_apart hlinks h.1.tidy h.2 hanswer), ?_⟩
  obtain ⟨ns, ns', -, -, rfl⟩ := World.edit_ok hanswer
  exact h.2

/-- Every call of a job for a slot changes only what belongs to the slot, wherever the thread is and whatever
    fails. Each field is about one kind of call, and goes back to what the machine does at such a call. -/
theorem frame (hazard : Hazard) (id : SlotId) (egress : String) (surroundings : Surroundings) :
    Frame (World.replies hazard) (Kept id egress surroundings) id egress (fun _ => True)
      (fun target => target.label = hostNamespace) (fun handle => handle.label = id.namespaceName)
      (Apart id egress surroundings) (Inside id egress surroundings)
      (Inside id egress surroundings) where
  of_inside h := h.1
  holds h := h.kept
  id_eq h := h.id_eq
  handle h hsome := h.home _ hsome
  capture h hreply := by
    obtain ⟨rfl, -⟩ := World.replies_captured hreply
    exact ⟨h, fun _ _ => trivial⟩
  returns _ h hreply := World.replies_keeps hreply h fun _ hanswer => h.enter hanswer
  opens h hreply := by
    obtain ⟨rfl, hlabel⟩ := World.replies_opened hreply
    exact ⟨h, hlabel⟩
  enters htarget h hreply := by
    have hkept := World.replies_keeps hreply h fun _ hanswer => h.enter hanswer
    refine ⟨hkept, ?_⟩
    rintro rfl
    exact ⟨hkept, (World.replies_entered hreply).trans htarget⟩
  rules hc h hreply := World.replies_keeps hreply h fun _ hanswer => by
    cases hc with
    | flush => exact h.edit World.flushChain_links hanswer
    | rule rule hrule => exact h.edit World.appendRule_links hanswer
  unchains hc h _ hreply := World.replies_keeps hreply h fun _ hanswer => by
    cases hc with
    | unhook => exact h.edit World.deleteRule_links hanswer
    | unchain => exact h.edit World.deleteChain_links hanswer
  chains h _ hreply := by
    have hkept := World.replies_keeps hreply h fun _ hanswer => h.edit World.newChain_links hanswer
    exact ⟨hkept, fun _ => hkept⟩
  hooks {guards slot world result world'} h hreply := by
    have hkept : Inside id egress surroundings slot world' :=
      World.replies_keeps hreply h fun _ hanswer => by
        have hedit : world.edit (World.appendRule id.hookRule) = (.ok (), world') := hanswer
        exact h.edit World.appendRule_links hedit
    exact ⟨hkept, fun _ => ⟨hkept.1.memory (by simp) (by simp), hkept.2⟩⟩
  made_holds h := h.1.kept
  memory hid hhandle _ := ⟨fun h => h.memory hid (.inl hhandle),
    fun h => ⟨h.1.memory hid (.inl hhandle), h.2⟩⟩
  forgets h := h.memory (by simp) (by simp)
  outer hc h hreply := World.replies_keeps hreply h fun _ hanswer =>
    h.change (World.outer_apart hc h.tidy hanswer)
  deletes h _ hreply := World.replies_keeps hreply h fun _ hanswer =>
    h.change (World.deleteNamed_apart h.tidy hanswer)
  inner hc h hreply := World.replies_keeps hreply h fun _ hanswer =>
    ⟨h.1.change (World.inner_apart hc h.1.tidy h.2 hanswer), (World.current_inner hc hanswer).trans h.2⟩
  creates h hreply := by
    refine ⟨World.replies_keeps hreply h fun _ hanswer =>
      h.change (World.createNamed_apart h.tidy hanswer), ?_⟩
    rintro handle rfl
    have hanswer := World.replies_ok hreply
    have hmade := h.change (World.createNamed_apart h.tidy hanswer)
    obtain ⟨-, rfl, rfl⟩ := World.createNamed_ok hanswer
    refine ⟨⟨h.id_eq, ?_, hmade.tidy, hmade.surroundings⟩, rfl⟩
    rintro handle ⟨⟩
    rfl

/-- Before a slot is made ready: a slot without a handle may need a network, which is made from the
    host, and one with a handle has its namespace. -/
def Ready (id : SlotId) (egress : String) (surroundings : Surroundings) (slot : Slot)
    (world : World) : Prop :=
  Apart id egress surroundings slot world ∧ (slot.handle = none → world.current = hostNamespace) ∧
    (slot.handle ≠ none → id.namespaceName ∈ world.namespaces)

/-- Where a network is made. -/
def OnHost (id : SlotId) (egress : String) (surroundings : Surroundings) (slot : Slot)
    (world : World) : Prop :=
  Apart id egress surroundings slot world ∧ world.current = hostNamespace

variable (hazard id egress surroundings)

/-- Making a slot ready for a policy touches nothing that belongs to another slot, whatever fails. A network
    that is still to be made must be made from the host, since the outer end of its cable goes to where the
    thread was; `Ready` asks for no more than that. -/
theorem prepare (policy : Internet) :
    Triple (World.replies hazard) (Kept id egress surroundings) (Ready id egress surroundings)
      (Slot.prepare egress policy) (Apart id egress surroundings) (Apart id egress surroundings) := by
  have hframe := frame hazard id egress surroundings
  have haround : Around (World.replies hazard) (Kept id egress surroundings) (fun _ => True)
      (Apart id egress surroundings) (OnHost id egress surroundings) (Apart id egress surroundings) :=
    hframe.around.narrow fun _ _ h => h.1
  refine .bind (hframe.provide haround hframe.around (fun h hreply => hframe.outer .onRecord h.1 hreply)
    (fun h hreply => ?_) (fun h => h.1) (World.clearing_staying hframe.clearing hostNamespace)
    hframe.clearing fun h hreply => ?_)
    fun _ => hframe.applyPolicy hframe.around hframe.clearing
      (hframe.inNamespace hframe.around fun origin => (hframe.under origin).configure policy)
  · have hanswer := World.replies_ok hreply
    obtain ⟨habsent, rfl⟩ := by simpa [World.answer] using hanswer
    exact ⟨h.1, h.2.1 (Decidable.not_not.mp fun hhandle => habsent (h.2.2 hhandle))⟩
  · have hanswer := World.replies_ok hreply
    obtain ⟨rfl, rfl⟩ := by simpa [World.answer] using hanswer
    exact h.2

theorem release :
    Triple (World.replies hazard) (Kept id egress surroundings) (Apart id egress surroundings)
      (Slot.release egress) (Apart id egress surroundings) (Apart id egress surroundings) := by
  have hframe := frame hazard id egress surroundings
  exact hframe.applyPolicy hframe.around hframe.clearing
    (hframe.inNamespace hframe.around fun origin => (hframe.under origin).configure .allowed)

theorem remove :
    Triple (World.replies hazard) (Kept id egress surroundings) (Apart id egress surroundings)
      (Slot.remove egress) (Apart id egress surroundings) (Apart id egress surroundings) :=
  (frame hazard id egress surroundings).remove_anywhere.of_bare

end Apart
end SlotPool
