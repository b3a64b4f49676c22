import SlotPool.Proofs.Slot.Apart
import SlotPool.Proofs.World.Holdings
/-!
A job for one slot that begins on the host stays between the host and the slot's own namespace, whatever
fails. So nothing changes anywhere else.
-/

namespace SlotPool

open Sequence

/-- An open handle of a slot leads to the slot's own namespace. -/
def Slot.Homed (slot : Slot) : Prop :=
  ∀ handle, slot.handle = some handle → handle.label = slot.id.namespaceName

/-- What holds at any time of a job for a slot that began on the host of `base`. -/
structure Confined (id : SlotId) (egress : String) (base : World) (slot : Slot) (world : World) : Prop
    extends Apart id egress (base.without id egress) slot world where
  thread : world.current = hostNamespace ∨ world.current = id.namespaceName
  elsewhere : World.SameElsewhere id base world

namespace Confined

/-- What holds at every call of such a job, and wherever the thread is taken when it ends. -/
structure Kept (id : SlotId) (egress : String) (base world : World) : Prop where
  tidy : world.Tidy id
  surroundings : world.without id egress = base.without id egress
  elsewhere : World.SameElsewhere id base world

/-- While the thread is in the slot's namespace. -/
def Inside (id : SlotId) (egress : String) (base : World) (slot : Slot) (world : World) : Prop :=
  Confined id egress base slot world ∧ world.current = id.namespaceName

/-- While the thread is on the host. -/
def OnHost (id : SlotId) (egress : String) (base : World) (slot : Slot) (world : World) : Prop :=
  Confined id egress base slot world ∧ world.current = hostNamespace

/-- Where the guards of such a job return to. -/
def Back (id : SlotId) (origin : Handle) : Prop :=
  origin.label = hostNamespace ∨ origin.label = id.namespaceName

variable {hazard : Hazard} {id : SlotId} {egress : String} {base world world' : World}
  {slot after : Slot}

theorem kept (h : Confined id egress base slot world) : Kept id egress base world :=
  ⟨h.tidy, h.surroundings, h.elsewhere⟩

theorem start (egress : String) (hhome : slot.Homed) (htidy : world.Tidy slot.id)
    (hcurrent : world.current = hostNamespace) :
    OnHost slot.id egress world slot world :=
  ⟨⟨⟨rfl, hhome, htidy, rfl⟩, .inl hcurrent, .refl _ _⟩, hcurrent⟩

theorem homed (h : Confined id egress base slot world) : slot.Homed :=
  fun handle hsome => h.id_eq ▸ h.home handle hsome

theorem memory (h : Confined id egress base slot world) (hid : after.id = slot.id)
    (hhandle : after.handle = slot.handle ∨ after.handle = none) :
    Confined id egress base after world :=
  ⟨h.toApart.memory hid hhandle, h.thread, h.elsewhere⟩

theorem change (h : Confined id egress base slot world)
    (happly : world'.Tidy id ∧ world'.without id egress = world.without id egress)
    (hcurrent : world'.current = world.current) (helse : World.SameElsewhere id world world') :
    Confined id egress base slot world' :=
  ⟨h.toApart.change happly, hcurrent ▸ h.thread, h.elsewhere.trans helse⟩

/-- Entering a namespace where a guard may lead keeps a job confined: nothing changes but where the thread is.
    -/
theorem enter {target : Handle} (htarget : Back id target) (h : Confined id egress base slot world)
    (hanswer : world.enter target = (.ok (), world')) : Confined id egress base slot world' := by
  refine ⟨h.toApart.enter hanswer, ?_, ?_⟩
  · rw [(World.enter_ok hanswer).2]
    exact htarget
  · rw [(World.enter_ok hanswer).2]
    exact h.elsewhere

/-- A change of the slot's namespace that leaves the devices alone. -/
theorem Inside.edit {change : Namespace → Except NetworkError Namespace}
    (h : Inside id egress base slot world) (hlinks : ∀ ns ns', change ns = .ok ns' → ns'.links = ns.links)
    (hanswer : world.edit change = (.ok (), world')) : Inside id egress base slot world' := by
  have hcurrent := (World.samePlaces_edit hanswer).current
  exact ⟨h.1.change (World.edit_inside_apart hlinks h.1.tidy h.2 hanswer) hcurrent
    (World.sameElsewhere_edit h.1.thread hanswer), hcurrent.trans h.2⟩

variable (hazard id egress base)

/-- Every call of a job that began on the host keeps the job confined to the host and to the slot's own
    namespace. The thread only follows handles of the host or of the slot, so a call can reach no other
    namespace, whatever fails. -/
theorem frame :
    Frame (World.replies hazard) (Kept id egress base) id egress (Back id)
      (fun target => target.label = hostNamespace) (fun handle => handle.label = id.namespaceName)
      (Confined id egress base) (Inside id egress base) (Inside id egress base) where
  of_inside h := h.1
  holds h := h.kept
  id_eq h := h.id_eq
  handle h hsome := h.home _ hsome
  capture h hreply := by
    obtain ⟨rfl, hcaptured⟩ := World.replies_captured hreply
    exact ⟨h, fun origin hresult => hcaptured origin hresult ▸ h.thread⟩
  returns htarget h hreply := World.replies_keeps hreply h fun _ hanswer => h.enter htarget hanswer
  opens h hreply := by
    obtain ⟨rfl, hlabel⟩ := World.replies_opened hreply
    exact ⟨h, hlabel⟩
  enters htarget h hreply := by
    have hkept := World.replies_keeps hreply h fun _ hanswer => h.enter (.inr htarget) hanswer
    refine ⟨hkept, ?_⟩
    rintro rfl
    exact ⟨hkept, (World.replies_entered hreply).trans htarget⟩
  rules hc h hreply := World.replies_keeps hreply h fun _ hanswer => by
    cases hc with
    | flush => exact h.edit World.flushChain_links hanswer
    | rule rule hrule => exact h.edit World.appendRule_links hanswer
  unchains hc h _ hreply := World.replies_keeps hreply h fun _ hanswer => by
    cases hc with
    | unhook => exact h.edit World.deleteRule_links hanswer
    | unchain => exact h.edit World.deleteChain_links hanswer
  chains h _ hreply := by
    have hkept := World.replies_keeps hreply h fun _ hanswer => h.edit World.newChain_links hanswer
    exact ⟨hkept, fun _ => hkept⟩
  hooks {guards slot world result world'} h hreply := by
    have hkept : Inside id egress base slot world' := World.replies_keeps hreply h fun _ hanswer => by
      have hedit : world.edit (World.appendRule id.hookRule) = (.ok (), world') := hanswer
      exact h.edit World.appendRule_links hedit
    exact ⟨hkept, fun _ => ⟨hkept.1.memory (by simp) (by simp), hkept.2⟩⟩
  made_holds h := h.1.kept
  memory hid hhandle _ := ⟨fun h => h.memory hid (.inl hhandle),
    fun h => ⟨h.1.memory hid (.inl hhandle), h.2⟩⟩
  forgets h := h.memory (by simp) (by simp)
  outer hc h hreply := World.replies_keeps hreply h fun _ hanswer =>
    h.change (World.outer_apart hc h.tidy hanswer) (World.samePlaces_outer hc hanswer).current
      (World.sameElsewhere_outer hc h.tidy h.thread hanswer)
  deletes h _ hreply := World.replies_keeps hreply h fun _ hanswer =>
    h.change (World.deleteNamed_apart h.tidy hanswer) (World.deleteNamed_places hanswer).1
      (World.sameElsewhere_deleteNamed h.tidy hanswer)
  inner hc h hreply := World.replies_keeps hreply h fun _ hanswer =>
    have hcurrent := World.current_inner hc hanswer
    ⟨h.1.change (World.inner_apart hc h.1.tidy h.2 hanswer) hcurrent
      (World.sameElsewhere_inner hc h.2 hanswer), hcurrent.trans h.2⟩
  creates {guards slot world result world'} h hreply := by
    have happly (handle : Handle) (hanswer : world.createNamed id.namespaceName = (.ok handle, world')) :
        Confined id egress base slot world' := by
      refine ⟨h.toApart.change (World.createNamed_apart h.tidy hanswer), ?_,
        h.elsewhere.trans (World.sameElsewhere_createNamed hanswer)⟩
      rw [(World.createNamed_ok hanswer).2.2]
      exact .inr rfl
    refine ⟨World.replies_keeps hreply h happly, ?_⟩
    rintro handle rfl
    have hanswer := World.replies_ok hreply
    have hmade := happly handle hanswer
    obtain ⟨-, rfl, rfl⟩ := World.createNamed_ok hanswer
    refine ⟨⟨⟨h.id_eq, ?_, hmade.tidy, hmade.surroundings⟩, hmade.thread, hmade.elsewhere⟩, rfl⟩
    rintro handle ⟨⟩
    rfl

/-- A job that begins on the host ends between the host and the slot's namespace. -/
theorem around :
    Around (World.replies hazard) (Kept id egress base) (Back id) (Confined id egress base)
      (OnHost id egress base) (Confined id egress base) :=
  (frame hazard id egress base).around.narrow fun _ _ h => h.1

variable {hazard}

/-- Where guards always take the thread back, a job that begins on the host ends there. In between it may be in
    the slot's namespace and nowhere else. -/
theorem landing (hreturns : hazard.Returns) (hhost : hostNamespace ∈ base.namespaces) :
    Around (World.replies hazard) (Kept id egress base) (fun origin => origin.label = hostNamespace)
      (Confined id egress base) (OnHost id egress base) (OnHost id egress base) where
  holds h := h.kept
  returns {origin slot world result world'} horigin h hreply := by
    rcases hreply with hanswered | ⟨failure, hstruck, -⟩
    · have hmem : origin.label ∈ world.namespaces :=
        horigin ▸ World.mem_of_without h.surroundings (by simp) hhost
      obtain ⟨rfl, rfl⟩ := World.enter_mem hmem hanswered
      exact ⟨h.enter (.inl horigin) hanswered, horigin⟩
    · exact (hreturns _ _ hstruck).elim
  out h := h.1
  stays h := h
  captures h hreply := by
    obtain ⟨rfl, hcaptured⟩ := World.replies_captured hreply
    exact ⟨h, fun origin hresult => hcaptured origin hresult ▸ h.2⟩
  unwalled h := ⟨h.1.memory (by simp) (by simp), h.2⟩

variable {id egress base}

theorem kept_returns {origin : Handle} {guards : List Handle} {result : Except NetworkError Unit}
    (hreply : World.replies hazard (.enterNamespace origin) guards world result world')
    (h : Kept id egress base world) : Kept id egress base world' :=
  World.replies_keeps hreply h fun _ hanswer => by
    obtain ⟨-, rfl⟩ := World.enter_ok hanswer
    exact ⟨h.tidy.congr (fun _ _ => Iff.rfl) rfl, h.surroundings, h.elsewhere⟩

end Confined
end SlotPool
