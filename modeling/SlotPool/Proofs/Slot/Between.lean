import SlotPool.Proofs.World.Places
/-!
Jobs for a slot that go between the host and the slot's namespace, while something holds of the machine that does
not depend on where the thread is.
-/

namespace SlotPool

open Sequence

/-- A job for a slot: the thread is on the host or in the slot's namespace, to which an open handle leads, and
    `kept` holds of the machine. -/
structure Between (id : SlotId) (kept : World → Prop) (slot : Slot) (world : World) : Prop where
  id_eq : slot.id = id
  home : ∀ handle, slot.handle = some handle → handle.label = id.namespaceName
  thread : world.current = hostNamespace ∨ world.current = id.namespaceName
  kept : kept world

namespace Between

variable {hazard : Hazard} {id : SlotId} {kept kept' : World → Prop} {slot after : Slot} {world world' : World}

/-- While the thread is in the slot's namespace. -/
def Inside (id : SlotId) (kept : World → Prop) (slot : Slot) (world : World) : Prop :=
  Between id kept slot world ∧ world.current = id.namespaceName

/-- While the thread is on the host. -/
def OnHost (id : SlotId) (kept : World → Prop) (slot : Slot) (world : World) : Prop :=
  Between id kept slot world ∧ world.current = hostNamespace

/-- Where the guards of such a job return to. -/
def Back (id : SlotId) (origin : Handle) : Prop :=
  origin.label = hostNamespace ∨ origin.label = id.namespaceName

theorem mono (h : Between id kept slot world) (hkept : kept world → kept' world) : Between id kept' slot world :=
  ⟨h.id_eq, h.home, h.thread, hkept h.kept⟩

/-- Where the thread is and what is kept do not depend on the slot's memory, as long as it keeps its number and
    its handle or forgets the handle. -/
theorem memory (h : Between id kept slot world) (hid : after.id = slot.id)
    (hhandle : after.handle = slot.handle ∨ after.handle = none) : Between id kept after world := by
  refine ⟨hid.trans h.id_eq, fun handle hsome => ?_, h.thread, h.kept⟩
  rcases hhandle with hsame | hnone
  · exact h.home handle (hsame ▸ hsome)
  · rw [hnone] at hsome
    cases hsome

/-- A call that leaves the thread where it is. -/
theorem change (h : Between id kept slot world) (hcurrent : world'.current = world.current) (hkept : kept' world') :
    Between id kept' slot world' :=
  ⟨h.id_eq, h.home, hcurrent ▸ h.thread, hkept⟩

theorem Inside.change (h : Inside id kept slot world) (hcurrent : world'.current = world.current)
    (hkept : kept' world') : Inside id kept' slot world' :=
  ⟨h.1.change hcurrent hkept, hcurrent.trans h.2⟩

section

variable (hmoved : ∀ world current, kept world → kept { world with current })
include hmoved

theorem enter {target : Handle} (htarget : Back id target) (h : Between id kept slot world)
    (hanswer : world.enter target = (.ok (), world')) : Between id kept slot world' := by
  obtain ⟨-, rfl⟩ := World.enter_ok hanswer
  exact ⟨h.id_eq, h.home, htarget, hmoved _ _ h.kept⟩

/-- Coming and going keeps a condition that does not depend on where the thread is. Any calls may fail in it. -/
theorem visit : Visit (World.replies hazard) kept id (Back id) (fun handle => handle.label = id.namespaceName)
    (Between id kept) (Inside id kept) where
  of_inside h := h.1
  holds h := h.kept
  id_eq h := h.id_eq
  handle h hsome := h.home _ hsome
  capture h hreply := by
    obtain ⟨rfl, hcaptured⟩ := World.replies_captured hreply
    exact ⟨h, fun origin hresult => hcaptured origin hresult ▸ h.thread⟩
  returns htarget h hreply := World.replies_keeps hreply h fun _ hanswer => h.enter hmoved htarget hanswer
  opens h hreply := by
    obtain ⟨rfl, hlabel⟩ := World.replies_opened hreply
    exact ⟨h, hlabel⟩
  enters htarget h hreply := by
    have hkept := World.replies_keeps hreply h fun _ hanswer => h.enter hmoved (.inr htarget) hanswer
    refine ⟨hkept, ?_⟩
    rintro rfl
    exact ⟨hkept, (World.replies_entered hreply).trans htarget⟩

theorem around :
    Around (World.replies hazard) kept (Back id) (Between id kept) (Between id kept) (Between id kept) :=
  (visit hmoved).around fun h => h.memory (by simp) (.inl (by simp))

/-- Going back to the host, which is always there. -/
theorem back {result : Except NetworkError Unit} (hhost : ∀ world, kept world → hostNamespace ∈ world.namespaces)
    (h : Between id kept slot world)
    (hreply : World.replies .none (.enterNamespace ⟨hostNamespace, true⟩) [] world result world') :
    OnHost id kept slot world' := by
  have hanswer : world.enter ⟨hostNamespace, true⟩ = (result, world') := World.replies_none hreply
  obtain ⟨rfl, rfl⟩ := World.enter_mem (hhost world h.kept) hanswer
  exact ⟨h.enter hmoved (.inl rfl) hanswer, rfl⟩

section

variable {α : Type} {steps : Sequence α} {ok : α → Prop}
variable (hweak : ∀ world, kept world → kept' world)
variable (hsteps : ∀ slot world, Inside id kept slot world → Ensures (World.replies .none) (fun _ => True) steps
  (fun value slot world => ok value ∧ Inside id kept' slot world) (fun _ _ _ => False) slot world)
include hweak hsteps

/-- The steps of a visit, through whatever handle leads to the slot's namespace. What fails before them fails
    because the namespace is gone. -/
theorem through {handle : Handle} (hlabel : handle.label = id.namespaceName) (h : Between id kept slot world) :
    Ensures (World.replies .none) (fun _ => True) (perform (.enterNamespace handle) >>= fun _ => steps)
      (fun value slot world => ok value ∧ Between id kept' slot world)
      (fun failure slot world => failure.isNotFound = true ∧ Between id kept' slot world) slot world := by
  rw [ensures_bind, ensures_perform]
  refine ⟨trivial, fun result world' hreply => ?_⟩
  have hanswer : world.enter handle = (result, world') := World.replies_none hreply
  cases result with
  | ok value =>
    have hinside : Inside id kept slot world' :=
      ⟨h.enter hmoved (.inr hlabel) hanswer, (World.replies_entered hreply).trans hlabel⟩
    exact (hsteps slot world' hinside).mono (fun _ _ _ hend => ⟨hend.1, hend.2.1⟩) fun _ _ _ => False.elim
  | error failure =>
    unfold World.enter at hanswer
    split at hanswer
    · cases hanswer
    · obtain ⟨rfl, rfl⟩ := by simpa using hanswer
      exact ⟨rfl, h.mono (hweak _)⟩

/-- The way in: through the handle that is open, or else through one that is opened for it. Which of the two it
    is makes no difference to what the steps find. -/
theorem within (h : Between id kept slot world) :
    Ensures (World.replies .none) (fun _ => True)
      (match slot.handle with
        | some handle => perform (.enterNamespace handle) >>= fun _ => steps
        | none => perform (.openNamespace slot.id.namespaceName) >>= fun handle =>
            perform (.enterNamespace handle) >>= fun _ => steps)
      (fun value slot world => ok value ∧ Between id kept' slot world)
      (fun failure slot world => failure.isNotFound = true ∧ Between id kept' slot world) slot world := by
  cases hhandle : slot.handle with
  | some handle => exact through hmoved hweak hsteps (h.home handle hhandle) h
  | none =>
    rw [ensures_bind, ensures_perform]
    refine ⟨trivial, fun result world' hreply => ?_⟩
    have hanswer : world.openNamed slot.id.namespaceName = (result, world') := World.replies_none hreply
    cases result with
    | ok handle =>
      obtain ⟨-, rfl, rfl⟩ := World.openNamed_ok hanswer
      exact through hmoved hweak hsteps (congrArg SlotId.namespaceName h.id_eq) h
    | error failure =>
      unfold World.openNamed at hanswer
      split at hanswer
      · cases hanswer
      · obtain ⟨rfl, rfl⟩ := by simpa using hanswer
        exact ⟨rfl, h.mono (hweak _)⟩

/-- A visit that begins on the host ends there, unless a call fails. It fails only when there is no namespace to
    go to. -/
theorem visits (hhost : ∀ world, kept' world → hostNamespace ∈ world.namespaces)
    (hmoved' : ∀ world current, kept' world → kept' { world with current }) (h : OnHost id kept slot world) :
    Ensures (World.replies .none) (fun _ => True) (Sequence.inNamespace steps)
      (fun value slot world => ok value ∧ OnHost id kept' slot world)
      (fun failure slot world => failure.isNotFound = true ∧ OnHost id kept' slot world) slot world := by
  unfold Sequence.inNamespace Sequence.underGuard
  rw [ensures_bind, ensures_perform]
  refine ⟨trivial, fun result world' hreply => ?_⟩
  obtain ⟨rfl, rfl⟩ := Prod.mk.inj (World.replies_none hreply)
  rw [byResult_ok, h.2, ensures_guarded, ensures_bind, ensures_get]
  exact Ensures.mono (within hmoved hweak hsteps h.1)
    (fun _ _ _ hend => ⟨trivial, fun _ _ hreply => ⟨hend.1, back hmoved' hhost hend.2 hreply⟩⟩)
    fun _ _ _ hend => ⟨trivial, fun _ _ hreply => ⟨hend.1, back hmoved' hhost hend.2 hreply⟩⟩

end

end

end Between
end SlotPool
