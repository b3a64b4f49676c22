import SlotPool.Proofs.Slot.Frame
import SlotPool.Proofs.World.Replies
/-!
Where the thread is and which namespaces there are. Few calls change that.
-/

namespace SlotPool.World

variable {world after : World} {id : SlotId} {egress : String}

/-- The thread is where it was, and there are the same namespaces. -/
structure SamePlaces (before after : World) : Prop where
  current : after.current = before.current
  namespaces : ∀ name, name ∈ after.namespaces ↔ name ∈ before.namespaces

theorem SamePlaces.refl (world : World) : SamePlaces world world := ⟨rfl, fun _ => Iff.rfl⟩

theorem SamePlaces.trans {first second third : World} (h : SamePlaces first second)
    (h' : SamePlaces second third) : SamePlaces first third :=
  ⟨h'.current.trans h.current, fun name => (h'.namespaces name).trans (h.namespaces name)⟩

/-- A change of the namespace where the thread is moves no thread, and puts no namespace on record or off it. -/
theorem samePlaces_setNamespace {ns changed : Namespace}
    (hns : world.namespaces[world.current]? = some ns) :
    SamePlaces world (world.setNamespace world.current changed) := by
  refine ⟨rfl, fun name => ?_⟩
  have hmem : world.current ∈ world.namespaces :=
    Std.ExtTreeMap.mem_iff_isSome_getElem?.mpr (by simp [hns])
  simp only [setNamespace, Std.ExtTreeMap.mem_insert, Std.LawfulEqCmp.compare_eq_iff_eq]
  exact ⟨fun h => h.elim (fun heq => heq ▸ hmem) fun h => h, .inr⟩

theorem samePlaces_edit {change : Namespace → Except NetworkError Namespace}
    (h : world.edit change = (.ok (), after)) : SamePlaces world after := by
  obtain ⟨ns, ns', hns, -, rfl⟩ := edit_ok h
  exact samePlaces_setNamespace hns

theorem samePlaces_dropPeer {link : String} : SamePlaces world (world.dropPeer link) := by
  unfold dropPeer
  split
  · exact .refl world
  · exact ⟨rfl, fun name => Std.ExtTreeMap.mem_map⟩

theorem samePlaces_dropPeers {links : List String} :
    SamePlaces world (links.foldl dropPeer world) := by
  induction links generalizing world with
  | nil => exact .refl world
  | cons link links ih => exact samePlaces_dropPeer.trans ih

/-- The calls made wherever the thread is leave it there. -/
theorem samePlaces_outer {call : Call} {value : call.Reply} (hcall : Call.Outer id egress call)
    (h : world.answer call = (.ok value, after)) : SamePlaces world after := by
  cases hcall with
  | onRecord =>
    obtain ⟨-, rfl⟩ := by simpa [answer] using h
    exact .refl _
  | probe =>
    rw [linkExists_ok h]
    exact .refl world
  | unplug =>
    obtain ⟨ns, hns, -, rfl⟩ := deleteLink_ok h
    exact (samePlaces_setNamespace hns).trans samePlaces_dropPeer
  | _ => exact samePlaces_edit h

/-- Deleting a namespace takes just this one away. -/
theorem deleteNamed_places {name : String} (h : world.deleteNamed name = (.ok (), after)) :
    after.current = world.current ∧
      ∀ other, other ∈ after.namespaces ↔ other ≠ name ∧ other ∈ world.namespaces := by
  obtain ⟨-, ns, -, rfl⟩ := deleteNamed_ok h
  have hdropped : SamePlaces { world with namespaces := world.namespaces.erase name }
      (ns.links.keys.foldl dropPeer { world with namespaces := world.namespaces.erase name }) :=
    samePlaces_dropPeers
  refine ⟨hdropped.current, fun other => (hdropped.namespaces other).trans ?_⟩
  simp only [Std.ExtTreeMap.mem_erase, ne_eq, Std.LawfulEqCmp.compare_eq_iff_eq]
  rw [eq_comm]

/-- The calls that furnish a namespace leave the thread there. -/
theorem current_inner {goal : Handle → Prop} {call : Call} {value : call.Reply}
    (hcall : Call.Inner id goal call) (h : world.answer call = (.ok value, after)) :
    after.current = world.current := by
  cases hcall with
  | cable =>
    obtain ⟨ns, -, rfl⟩ := layCable_ok h
    rfl
  | move origin horigin =>
    obtain ⟨-, ns, -, -, rfl⟩ := moveLink_ok h
    rfl
  | _ => exact (samePlaces_edit h).current

/-- A call whose success leaves the thread where it is leaves it there in any case: a failure changes nothing.
    -/
theorem replies_current {hazard : Hazard} {call : Call} {guards : List Handle}
    {result : Except NetworkError call.Reply} (hreply : replies hazard call guards world result after)
    (hafter : ∀ value, world.answer call = (.ok value, after) → after.current = world.current) :
    after.current = world.current := by
  cases result with
  | ok value => exact hafter value (replies_ok hreply)
  | error failure => rw [replies_error hreply]

/-- Clearing up after a slot does not move the thread. -/
theorem clearing_staying {hazard : Hazard} {inv : World → Prop} {outside : Sequence.Assertion World}
    (h : Clearing (replies hazard) inv id egress outside) (place : String) :
    Clearing (replies hazard) inv id egress fun slot world =>
      outside slot world ∧ world.current = place where
  holds ht := h.holds ht.1
  id_eq ht := h.id_eq ht.1
  forgets ht := ⟨h.forgets ht.1, ht.2⟩
  unmakes hc ht hreply := ⟨h.unmakes hc ht.1 hreply,
    (replies_current hreply fun _ hanswer => (samePlaces_outer hc.outer hanswer).current).trans ht.2⟩
  deletes ht hbare hreply := ⟨h.deletes ht.1 hbare hreply,
    (replies_current hreply fun _ hanswer => (deleteNamed_places hanswer).1).trans ht.2⟩

end SlotPool.World
