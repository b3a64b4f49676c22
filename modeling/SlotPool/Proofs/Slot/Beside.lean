import SlotPool.Proofs.Slot.Operation
import SlotPool.Proofs.World.Only
/-!
An operation beside itself: on a machine and on the same machine with nothing but what belongs to the
slot. Without failures the two runs cannot be told apart, so the outcome of an operation depends on
nothing that belongs to other slots.
-/

namespace SlotPool

open Sequence

/-- A machine, another that is asked the same, and whether they have always answered the same. -/
structure Beside where
  world : World
  double : World
  agree : Prop

namespace Beside

/-- Both machines answer every call, and none fails for another reason. -/
def replies : Replies Beside := fun call _ before result after =>
  before.world.answer call = (result, after.world) ∧
    before.double.answer call = ((before.double.answer call).1, after.double) ∧
    (after.agree ↔ before.agree ∧ (before.double.answer call).1 = result)

theorem answered {call : Call} {guards : List Handle} {result : Except NetworkError call.Reply}
    {t t' : Beside} (hreply : replies call guards t result t') :
    World.replies .none call guards t.world result t'.world := .inl hreply.1

/-- What is ensured of both machines holds where a run ends, and as long as they have agreed, a run on
    the second ends as one on the first. -/
theorem run_of_ensures {α : Type} {inv : Beside → Prop} {post : α → Beside → Prop} {p : Program α}
    {t : Beside} (hp : p.Ensures replies inv post t) :
    ∃ value t', p.run World.machine t.world = (some value, t'.world) ∧ post value t' ∧
      (t'.agree → t.agree ∧ p.run World.machine t.double = (some value, t'.double)) := by
  induction p generalizing t with
  | done value => exact ⟨value, t, rfl, hp, fun hagree => ⟨hagree, rfl⟩⟩
  | call c guards next ih =>
    have hreply : replies c guards t (t.world.answer c).1 ⟨(t.world.answer c).2, (t.double.answer c).2,
        t.agree ∧ (t.double.answer c).1 = (t.world.answer c).1⟩ := ⟨rfl, rfl, Iff.rfl⟩
    obtain ⟨value, t', hrun, hpost, hdouble⟩ := ih _ (hp.2 _ _ hreply)
    refine ⟨value, t', hrun, hpost, fun hagree => ?_⟩
    obtain ⟨⟨hbefore, hsame⟩, hrun'⟩ := hdouble hagree
    refine ⟨hbefore, ?_⟩
    change (next (t.double.answer c).1).run World.machine (t.double.answer c).2 = _
    rw [hsame]
    exact hrun'

/-- The second machine has just what belongs to the slot, and has always answered like the first. -/
structure Echoes (id : SlotId) (egress : String) (t : Beside) : Prop where
  double : t.double = t.world.only id egress
  agree : t.agree

variable {id : SlotId} {egress : String} {base : World} {slot : Slot} {t t' : Beside}

theorem Echoes.next {call : Call} {guards : List Handle} {result : Except NetworkError call.Reply}
    (h : t.Echoes id egress) (hmirrors : t.world.Mirrors id egress call)
    (hreply : replies call guards t result t') : t'.Echoes id egress := by
  obtain ⟨hworld, hdouble, hagree⟩ := hreply
  rw [h.double, hmirrors, hworld] at hdouble hagree
  exact ⟨(congrArg Prod.snd hdouble).symm, hagree.mpr ⟨h.agree, rfl⟩⟩

/-- What holds at any time of a job for a slot that began on the host of `base`. -/
def Confined (id : SlotId) (egress : String) (base : World) (slot : Slot) (t : Beside) : Prop :=
  SlotPool.Confined id egress base slot t.world ∧ t.Echoes id egress

/-- While the thread is in the slot's namespace. -/
def Inside (id : SlotId) (egress : String) (base : World) (slot : Slot) (t : Beside) : Prop :=
  Confined id egress base slot t ∧ t.world.current = id.namespaceName

/-- While the thread is on the host. -/
def OnHost (id : SlotId) (egress : String) (base : World) (slot : Slot) (t : Beside) : Prop :=
  Confined id egress base slot t ∧ t.world.current = hostNamespace

theorem inside_next {call : Call} {guards : List Handle} {result : Except NetworkError call.Reply}
    {after : Slot} (h : Inside id egress base slot t) (hmirrors : t.world.Mirrors id egress call)
    (hreply : replies call guards t result t')
    (hafter : SlotPool.Confined.Inside id egress base after t'.world) :
    Inside id egress base after t' :=
  ⟨⟨hafter.1, h.1.2.next hmirrors hreply⟩, hafter.2⟩

variable (id egress base)

/-- Every call of a job is answered on the lone machine as on the full one, so what holds of the job on the full
    machine holds of both runs at once. Each field goes back to the frame of the full machine and to the fact
    that the call finds the same on both. -/
theorem frame :
    Frame replies (fun _ => True) id egress (Confined.Back id)
      (fun target => target.label = hostNamespace) (fun handle => handle.label = id.namespaceName)
      (Confined id egress base) (Inside id egress base) (Inside id egress base) :=
  have hframe := SlotPool.Confined.frame .none id egress base
  { of_inside := fun h => h.1
    holds := fun _ => trivial
    id_eq := fun h => h.1.id_eq
    handle := fun h hsome => h.1.home _ hsome
    capture := fun h hreply =>
      have hcaptured := hframe.capture h.1 (answered hreply)
      ⟨⟨hcaptured.1, h.2.next World.mirrors_currentNamespace hreply⟩, hcaptured.2⟩
    returns := fun hback h hreply =>
      ⟨hframe.returns hback h.1 (answered hreply), h.2.next (World.mirrors_enter hback) hreply⟩
    opens := fun h hreply =>
      have hopened := hframe.opens h.1 (answered hreply)
      ⟨⟨hopened.1, h.2.next World.mirrors_open hreply⟩, hopened.2⟩
    enters := fun hhome h hreply =>
      have hentered := hframe.enters hhome h.1 (answered hreply)
      have hechoes := h.2.next (World.mirrors_enter (.inr hhome)) hreply
      ⟨⟨hentered.1, hechoes⟩, fun hok => ⟨⟨(hentered.2 hok).1, hechoes⟩, (hentered.2 hok).2⟩⟩
    rules := fun hc h hreply => inside_next h (World.mirrors_ruling hc h.2) hreply
      (hframe.rules hc ⟨h.1.1, h.2⟩ (answered hreply))
    unchains := fun hc h hbare hreply => inside_next h (World.mirrors_unchaining hc h.2) hreply
      (hframe.unchains hc ⟨h.1.1, h.2⟩ hbare (answered hreply))
    chains := fun h hbare hreply =>
      have hmade := inside_next h (World.mirrors_newChain h.2) hreply
        (hframe.chains ⟨h.1.1, h.2⟩ hbare (answered hreply)).1
      ⟨hmade, fun _ => hmade⟩
    hooks := fun h hreply =>
      have hhooked := hframe.hooks ⟨h.1.1, h.2⟩ (answered hreply)
      have hmirrors := World.mirrors_appendRule h.2
      ⟨inside_next h hmirrors hreply hhooked.1, fun hok => inside_next h hmirrors hreply (hhooked.2 hok)⟩
    made_holds := fun _ => trivial
    memory := fun hid hhandle hfirewall =>
      have hmemory := hframe.memory hid hhandle hfirewall
      ⟨fun h => ⟨hmemory.1 h.1, h.2⟩, fun h => ⟨⟨(hmemory.2 ⟨h.1.1, h.2⟩).1, h.1.2⟩, h.2⟩⟩
    forgets := fun h => ⟨hframe.forgets h.1, h.2⟩
    outer := fun hc h hreply => ⟨hframe.outer hc h.1 (answered hreply),
      h.2.next (World.mirrors_outer hc h.1.tidy h.1.thread) hreply⟩
    deletes := fun h hbare hreply => ⟨hframe.deletes h.1 hbare (answered hreply),
      h.2.next (World.mirrors_deleteNamed h.1.tidy) hreply⟩
    inner := fun hc h hreply => inside_next h (World.mirrors_inner hc h.2) hreply
      (hframe.inner hc ⟨h.1.1, h.2⟩ (answered hreply))
    creates := fun h hreply =>
      have hcreated := hframe.creates h.1 (answered hreply)
      have hechoes := h.2.next World.mirrors_create hreply
      ⟨⟨hcreated.1, hechoes⟩, fun handle hok =>
        ⟨⟨(hcreated.2 handle hok).1, hechoes⟩, (hcreated.2 handle hok).2⟩⟩ }

/-- Clearing up after a slot does not move the thread. -/
theorem clearing_onHost : Clearing replies (fun _ => True) id egress (OnHost id egress base) :=
  have hframe := frame id egress base
  have honHost := World.clearing_staying (SlotPool.Confined.frame .none id egress base).clearing hostNamespace
  { holds := fun _ => trivial
    id_eq := fun h => hframe.id_eq h.1
    forgets := fun h => ⟨hframe.forgets h.1, h.2⟩
    unmakes := fun hc h hreply =>
      ⟨hframe.outer hc.outer h.1 hreply, (honHost.unmakes hc ⟨h.1.1, h.2⟩ (answered hreply)).2⟩
    deletes := fun h hbare hreply =>
      ⟨hframe.deletes h.1 hbare hreply, (honHost.deletes ⟨h.1.1, h.2⟩ hbare (answered hreply)).2⟩ }

variable {base}

/-- A guard that is set on the host takes the thread back there on both machines, since no call fails. -/
theorem landing (hhost : hostNamespace ∈ base.namespaces) :
    Around replies (fun _ => True) (fun origin => origin.label = hostNamespace) (Confined id egress base)
      (OnHost id egress base) (OnHost id egress base) :=
  have hframe := frame id egress base
  have hlanding := SlotPool.Confined.landing id egress base Hazard.none_returns hhost
  { holds := fun _ => trivial
    returns := fun horigin h hreply =>
      ⟨hframe.returns (.inl horigin) h hreply, (hlanding.returns horigin h.1 (answered hreply)).2⟩
    out := fun h => h.1
    stays := fun h => h
    captures := fun h hreply =>
      have hcaptured := hlanding.captures ⟨h.1.1, h.2⟩ (answered hreply)
      ⟨⟨⟨hcaptured.1.1, h.1.2.next World.mirrors_currentNamespace hreply⟩, hcaptured.1.2⟩, hcaptured.2⟩
    unwalled := fun h =>
      have hforgotten := hlanding.unwalled ⟨h.1.1, h.2⟩
      ⟨⟨hforgotten.1, h.1.2⟩, hforgotten.2⟩ }

end Beside

/-- Without failures an operation on a slot has an outcome, which it also has where there is nothing but
    what belongs to the slot. -/
theorem Operation.run_only (operation : Operation) (egress : String) {slot : Slot} {world : World}
    (hhome : slot.Homed) (htidy : world.Tidy slot.id) (hcurrent : world.current = hostNamespace)
    (hhost : hostNamespace ∈ world.namespaces) :
    ∃ result after world',
      (operation.program egress slot).run World.machine world = (some (result, after), world') ∧
      (operation.program egress slot).run World.machine (world.only slot.id egress) =
        (some (result, after), world'.only slot.id egress) ∧
      Confined.OnHost slot.id egress world after world' := by
  have hlanding := Beside.landing slot.id egress hhost
  have hclearing := Beside.clearing_onHost slot.id egress world
  have htriple := operation.steps_around (Beside.frame slot.id egress world) hlanding hlanding hclearing
    hclearing (fun h hreply => Operation.origin_onHost ⟨h.1.1, h.2⟩ (Beside.answered hreply))
  have hensures := htriple slot ⟨world, world.only slot.id egress, True⟩
    ⟨⟨(Confined.start egress hhome htidy hcurrent).1, rfl, trivial⟩, hcurrent⟩
  obtain ⟨⟨result, after⟩, t', hrun, hpost, hdouble⟩ := Beside.run_of_ensures hensures
  have hlanded : Beside.OnHost slot.id egress world after t' := by
    cases result <;> exact hpost
  refine ⟨result, after, t'.world, hrun, ?_, ⟨hlanded.1.1, hlanded.2⟩⟩
  rw [← hlanded.1.2.double]
  exact (hdouble hlanded.1.2.agree).2

end SlotPool
