import SlotPool.Proofs.Slot.Built
import SlotPool.Proofs.Slot.Lasting
import SlotPool.Proofs.Slot.Removed
/-!
Removing a network undoes making it. In between the policy may be changed, and other slots may come and go. The
namespace may have been deleted, and what the slot remembers may be lost. Nothing of the slot is left in the end,
and if nothing was done for other slots, the machine is as it was.
-/

namespace SlotPool

open Sequence

/-- The rules in the namespace of a slot when the chain is no longer hooked. -/
def SlotId.Unhooked (id : SlotId) (rules : List Rule) : Prop :=
  ∃ blocking, (∀ rule ∈ blocking, rule ∈ blockRules) ∧ rules = id.natRules ++ blocking

/-- No rule stands in the way of deleting the chain, if it is there. -/
def Namespace.Unchained (ns : Namespace) : Prop :=
  (.filter, egressChain) ∈ ns.chains → ns.rules.any (World.keepsChain .filter egressChain) = false

section

variable {id : SlotId} {ns ns' : Namespace}

/-- Once the hook is deleted, nothing but blocking rules stands beside the translation rules, so no rule leads
    to the chain. -/
theorem SlotId.Walls.unhook (h : id.Walls ns.rules) (hok : World.deleteRule id.hookRule ns = .ok ns') :
    id.Unhooked ns'.rules := by
  obtain ⟨blocking, hblocking, hrules⟩ := h
  obtain ⟨-, rfl⟩ := World.deleteRule_ok hok
  have habsent : id.hookRule ∉ id.natRules := by simp [SlotId.natRules, SlotId.hookRule]
  refine ⟨blocking, hblocking, ?_⟩
  simp only [hrules, List.erase_append_right _ habsent, List.erase_cons_head]

theorem SlotId.Walls.hooked (h : id.Walls ns.rules) {failure : NetworkError} :
    World.deleteRule id.hookRule ns ≠ .error failure := by
  obtain ⟨blocking, -, hrules⟩ := h
  rw [World.deleteRule, if_pos (by simp [hrules])]
  rintro ⟨⟩

/-- When the chain is flushed too, no rule is in it, and it can be deleted. -/
theorem SlotId.Unhooked.flush (h : id.Unhooked ns.rules)
    (hok : World.flushChain .filter egressChain ns = .ok ns') : ns'.Unchained := by
  obtain ⟨blocking, hblocking, hrules⟩ := h
  unfold World.flushChain at hok
  split at hok
  · obtain rfl := Except.ok.inj hok
    intro _
    simp only [hrules, List.filter_append, SlotId.filter_natRules, filter_blockRules hblocking]
    simp [World.keepsChain, SlotId.natRules]
  · cases hok

/-- A chain that cannot be flushed is absent, and an absent chain can count as deleted. -/
theorem Namespace.unchained_of_absent {failure : NetworkError}
    (herror : World.flushChain .filter egressChain ns = .error failure) :
    failure.isNotFound = true ∧ ns.Unchained := by
  unfold World.flushChain at herror
  split at herror
  · cases herror
  · rename_i habsent
    obtain rfl := Except.error.inj herror
    refine ⟨rfl, fun hmem => (habsent ?_).elim⟩
    simp [Namespace.hasChain, hmem]

/-- If no rule stands in its way, deleting the chain can only fail because it is absent. -/
theorem Namespace.Unchained.absent {failure : NetworkError} (h : ns.Unchained)
    (herror : World.deleteChain .filter egressChain ns = .error failure) : failure.isNotFound = true := by
  unfold World.deleteChain at herror
  split at herror
  · exact Except.error.inj herror ▸ rfl
  · rename_i hchain
    split at herror
    · rename_i hkept
      simp [h (by simpa using hchain)] at hkept
    · cases herror

end

namespace World.Lodged

variable {id : SlotId} {egress : String} {base : World}

/-- Where no call fails, the chain of a complete network is taken away. -/
theorem removeChain :
    Flawless (World.replies .none) (Between.Inside id (Lodged id egress base (id.Walls ·.rules)))
      (Firewall.removeChain id) (Between.Inside id (Lodged id egress base fun _ => True)) := by
  have hunhook : Flawless (World.replies .none) (Between.Inside id (Lodged id egress base (id.Walls ·.rules)))
      (Slot.deletion "unhooking egress chain" (perform (.deleteRule id.hookRule)))
      (Between.Inside id (Lodged id egress base (id.Unhooked ·.rules))) :=
    .delete (World.ensures_delete Hazard.none_plain Hazard.none_strikes fun _ _ _ _ h hanswer =>
      tried h World.deleteRule_links (fun _ _ hok hwalls => hwalls.unhook hok)
        (fun _ _ herror hwalls => (hwalls.hooked herror).elim) hanswer)
  have hflush : Flawless (World.replies .none) (Between.Inside id (Lodged id egress base (id.Unhooked ·.rules)))
      (Slot.deletion "flushing egress chain" (perform (.flushChain .filter egressChain)))
      (Between.Inside id (Lodged id egress base Namespace.Unchained)) :=
    .delete (World.ensures_delete Hazard.none_plain Hazard.none_strikes fun _ _ _ _ h hanswer =>
      tried h World.flushChain_links (fun _ _ hok hunhooked => hunhooked.flush hok)
        (fun _ _ herror _ => Namespace.unchained_of_absent herror) hanswer)
  have hunchain : Flawless (World.replies .none) (Between.Inside id (Lodged id egress base Namespace.Unchained))
      (Slot.deletion "deleting egress chain" (perform (.deleteChain .filter egressChain)))
      (Between.Inside id (Lodged id egress base fun _ => True)) :=
    .delete (World.ensures_delete Hazard.none_plain Hazard.none_strikes fun _ _ _ _ h hanswer =>
      tried h World.deleteChain_links (fun _ _ _ _ => trivial)
        (fun _ _ herror hunchained => ⟨hunchained.absent herror, trivial⟩) hanswer)
  exact Triple.bind hunhook fun _ => .bind hflush fun _ => hunchain

/-- Where no call fails, the firewall is closed, or there is no namespace to go to. -/
theorem closeFirewall {slot : Slot} {world : World}
    (h : Between.OnHost id (Lodged id egress base (id.Walls ·.rules)) slot world) :
    Ensures (World.replies .none) (fun _ => True) Slot.closeFirewall
      (fun failures slot world => failures = [] ∧
        Assertion.bare (Between.OnHost id (Lodged id egress base fun _ => True)) slot world)
      (fun _ _ _ => False) slot world := by
  have hclose : Flawless (World.replies .none) (Between.Inside id (Lodged id egress base (id.Walls ·.rules)))
      Firewall.close (Between.Inside id (Lodged id egress base fun _ => True)) := by
    refine .get fun seen => ?_
    rintro slot world ⟨rfl, h⟩
    obtain rfl := h.1.id_eq
    have hrest : Flawless (World.replies .none)
        (Between.Inside slot.id (Lodged slot.id egress base (slot.id.Walls ·.rules)))
        (if slot.takeFirewall.1.isSome then Firewall.removeChain slot.id else pure ())
        (Between.Inside slot.id (Lodged slot.id egress base fun _ => True)) :=
      .ite (fun _ => removeChain) fun _ slot world h => ⟨h.1.mono fun h => h.weaken fun _ _ => trivial, h.2⟩
    have hforgotten : Between.Inside slot.id (Lodged slot.id egress base (slot.id.Walls ·.rules))
        slot.takeFirewall.2 world :=
      ⟨h.1.memory (by simp) (.inl (by simp)), h.2⟩
    exact hrest _ world hforgotten
  have hvisit : Ensures (World.replies .none) (fun _ => True)
      (Sequence.inNamespace (Sequence.attempt (ε := NetworkError) Firewall.close))
      (fun closed slot world => closed = .ok () ∧
        Between.OnHost id (Lodged id egress base fun _ => True) slot world)
      (fun failure slot world => failure.isNotFound = true ∧
        Between.OnHost id (Lodged id egress base fun _ => True) slot world) slot world := by
    refine Between.visits moved (fun world h => h.weaken fun _ _ => trivial) (fun slot world h => ?_)
      (fun world h => h.upheld.mem_host) moved h
    rw [ensures_attempt]
    exact (hclose slot world h).mono (fun _ _ _ h => ⟨rfl, h⟩) fun _ _ _ => False.elim
  have hforget {slot : Slot} {world : World} (h : Between.OnHost id (Lodged id egress base fun _ => True) slot world) :
      Assertion.bare (Between.OnHost id (Lodged id egress base fun _ => True)) slot.takeFirewall.2 world :=
    ⟨⟨h.1.memory (by simp) (.inl (by simp)), h.2⟩, by simp⟩
  rw [Slot.closeFirewall, ensures_bind, ensures_get, ensures_ite]
  split
  · rw [ensures_bind, ensures_attempt]
    refine hvisit.mono (fun closed slot world hend => ?_) fun failure slot world hend => ?_
    · obtain ⟨rfl, hend⟩ := hend
      exact ⟨rfl, hforget hend⟩
    · rw [ensures_bind, ensures_modify]
      refine ⟨?_, hforget hend.2⟩
      rw [if_pos hend.1]
  · rename_i hbare
    exact ⟨rfl, ⟨h.1.mono fun h => h.weaken fun _ _ => trivial, h.2⟩, by simpa using hbare⟩

/-- Whatever is taken away of a slot, nothing else goes. -/
theorem clearing : Clearing (World.replies .none) (fun _ => True) id egress
    (Between id fun world => world.Moored id [] ∧ Beside id egress base world) where
  holds _ := trivial
  id_eq h := h.id_eq
  forgets h := h.memory (by simp) (.inr (by simp))
  unmakes hc h hreply := World.replies_keeps hreply h fun _ hanswer =>
    h.change (samePlaces_outer hc.outer hanswer).current
      ⟨h.kept.1.outer_call hc.outer hanswer, h.kept.2.trans (h.kept.1.beside_unmaking h.thread hc hanswer)⟩
  deletes h _ hreply := World.replies_keeps hreply h fun _ hanswer =>
    h.change (deleteNamed_places hanswer).1
      ⟨h.kept.1.deleteNamed hanswer, h.kept.2.trans (h.kept.1.beside_erase hanswer)⟩

/-- The thread is on the host, where nothing is left of a slot, and nothing else is gone. -/
def Undone (id : SlotId) (egress : String) (base : World) (slot : Slot) (world : World) : Prop :=
  slot = .fresh id ∧ world.current = hostNamespace ∧ world.Clear id egress ∧ Beside id egress base world

/-- On the host all is found, and nothing else is taken. -/
theorem removeOutside :
    Flawless (World.replies .none) (Assertion.bare (Between.OnHost id (Lodged id egress base fun _ => True)))
      (Slot.removeOutside id egress []) (Undone id egress base) := by
  rintro slot world ⟨⟨h, hcurrent⟩, hbare⟩
  obtain ⟨host, hns, -⟩ := h.kept.upheld.host
  obtain ⟨hroute, hrules⟩ := h.kept.upheld.spent hns
  have hgone : Triple (World.replies .none) (fun _ => True)
      (Outlying (·.id = id) id host.routes host.rules True True) (Slot.removeOutside id egress [])
      (Outlying (· = .fresh id) id (host.routes.erase id.hostRoute) (host.rules.diff (id.hostRules egress)) False False)
      fun _ _ => False :=
    Outlying.removeOutside Hazard.none_plain Hazard.none_strikes fun hinside => (hinside rfl).elim
  have houtside : Outlying (·.id = id) id host.routes host.rules True True slot world :=
    ⟨h.id_eq, hcurrent, ⟨host, hns, rfl, rfl, fun _ => trivial⟩, fun _ => trivial⟩
  have hkept := clearing.removeOutside [] slot world
    ⟨h.mono fun h => (⟨h.moored, h.beside⟩ : world.Moored id [] ∧ Beside id egress base world), hbare⟩
  refine Ensures.mono_inv (((hgone slot world houtside).and hkept).mono (fun _ after world hend => ?_)
    fun _ _ _ hfailed => hfailed.1) fun _ _ => trivial
  obtain ⟨⟨hfresh, hleft⟩, ⟨hstill, -⟩⟩ := hend
  have hrid : world.Rid id egress := hleft.rid_iff.mpr ⟨hroute, hrules⟩
  exact ⟨hfresh, hleft.current, hstill.kept.1.clear hrid, hstill.kept.2⟩

/-- Where no call fails, nothing of the slot is left after a removal, and nothing else is gone. -/
theorem remove : Flawless (World.replies .none) (Between.OnHost id (Lodged id egress base (id.Walls ·.rules)))
    (Slot.remove egress) (Undone id egress base) := by
  refine .get fun seen => ?_
  rintro slot world ⟨rfl, h⟩
  obtain rfl := h.1.id_eq
  rw [ensures_bind]
  refine (closeFirewall h).mono (fun failures after world hclosed => ?_) fun _ _ _ => False.elim
  obtain ⟨rfl, hclosed⟩ := hclosed
  exact removeOutside after world hclosed

end World.Lodged

/-- What may befall a network from its making to its removal. `alone` is true as long as nothing was done for other
    slots. -/
inductive Interim (egress : String) (slot : Slot) (made : World) : (alone : Bool) → Slot → World → Prop
  | nothing : Interim egress slot made true slot made
  /-- a policy is applied, and any calls may fail in it -/
  | configured {alone : Bool} {before after : Slot} {world later : World} {policy : Internet}
      {result : Except NetworkError Unit} (h : Interim egress slot made alone before world)
      (hleads : ((Errand.visit (.configure policy)).program egress before).Leads world (some (result, after)) later)
      (hhost : later.current = hostNamespace) : Interim egress slot made alone after later
  /-- anything is done for another slot, and any calls may fail in it -/
  | visited {alone : Bool} {before other : Slot} {world later : World} {errand : Errand}
      {outcome : Option (Except errand.Failure Unit × Slot)} (h : Interim egress slot made alone before world)
      (hother : other.id ≠ slot.id) (hhome : other.Homed)
      (hleads : (errand.program egress other).Leads world outcome later) (hhost : later.current = hostNamespace) :
      Interim egress slot made false before later
  /-- the namespace is deleted from outside, if it is still there -/
  | deleted {alone : Bool} {before : Slot} {world later : World} {result : Except NetworkError Unit}
      (h : Interim egress slot made alone before world)
      (hanswer : world.answer (.deleteNamespace slot.id.namespaceName) = (result, later)) :
      Interim egress slot made alone before later
  /-- all that the slot remembers is lost -/
  | forgotten {alone : Bool} {before : Slot} {world : World} (h : Interim egress slot made alone before world) :
      Interim egress slot made alone (.fresh slot.id) world

/-- Whatever befalls a network, it stands until it is removed, but for its namespace. -/
theorem Interim.lasting {egress : String} {slot after : Slot} {made later : World} {alone : Bool}
    (hstart : Between.OnHost slot.id (World.Lasting slot.id egress) slot made)
    (h : Interim egress slot made alone after later) :
    Between.OnHost slot.id (World.Lasting slot.id egress) after later ∧
      (alone = true → World.Beside slot.id egress made later) := by
  induction h with
  | nothing => exact ⟨hstart, fun _ => ⟨rfl, .refl slot.id made⟩⟩
  | configured h hleads hhost ih =>
    obtain ⟨⟨hbetween, -⟩, hbeside⟩ := ih
    have hlodged := World.Lodged.configure (hbetween.mono World.Lasting.lodged) hleads
    exact ⟨⟨hlodged.mono World.Lodged.lasting, hhost⟩, fun halone => (hbeside halone).trans hlodged.kept.beside⟩
  | visited h hother hhome hleads hhost ih =>
    obtain ⟨⟨hbetween, hcurrent⟩, -⟩ := ih
    have hlasting := Errand.lasting hother hhome hcurrent hbetween.kept hleads
    exact ⟨⟨⟨hbetween.id_eq, hbetween.home, .inl hhost, hlasting⟩, hhost⟩, nofun⟩
  | @deleted alone before world later result h hanswer ih =>
    obtain ⟨⟨hbetween, hcurrent⟩, hbeside⟩ := ih
    cases result with
    | error failure =>
      obtain rfl := World.answer_error hanswer
      exact ⟨⟨hbetween, hcurrent⟩, hbeside⟩
    | ok value =>
      have hthread := (World.deleteNamed_places hanswer).1
      have hmoored := hbetween.kept.moored
      have hlasting : later.Lasting slot.id egress :=
        ⟨hmoored.deleteNamed hanswer, hbetween.kept.upheld.deleteNamed hanswer⟩
      exact ⟨⟨hbetween.change hthread hlasting, hthread.trans hcurrent⟩,
        fun halone => (hbeside halone).trans (hmoored.beside_erase hanswer)⟩
  | forgotten h ih =>
    obtain ⟨⟨hbetween, hcurrent⟩, hbeside⟩ := ih
    exact ⟨⟨⟨rfl, nofun, hbetween.thread, hbetween.kept⟩, hcurrent⟩, hbeside⟩

namespace Operation

variable {world : World} {slot : Slot} {egress : String}

/-- Where a network stands, it can be removed, and then nothing of it is left. It can be removed again, and nothing
    changes. -/
theorem remove_run {id : SlotId} (h : Between.OnHost id (World.Lasting id egress) slot world) :
    ∃ last, (remove.program egress slot).run World.machine world = (some (.ok (), .fresh id), last) ∧
      last.current = hostNamespace ∧ last.Clear id egress ∧ World.Beside id egress world last ∧
      (remove.program egress (.fresh id)).run World.machine last = (some (.ok (), .fresh id), last) := by
  have hlodged : Between.OnHost id (World.Lodged id egress world (id.Walls ·.rules)) slot world :=
    ⟨h.1.mono World.Lasting.lodged, h.2⟩
  obtain ⟨⟨result, after⟩, last, hrun, hend⟩ := World.run_of_ensures (World.Lodged.remove slot world hlodged)
  cases result with
  | error failure => exact hend.elim
  | ok value =>
    obtain ⟨rfl, hcurrent, hclear, hbeside⟩ := hend
    have hhost : hostNamespace ∈ last.namespaces :=
      World.mem_of_without hbeside.without (by simp) h.1.kept.upheld.mem_host
    obtain ⟨host, hns⟩ := Option.isSome_iff_exists.mp (Std.ExtTreeMap.mem_iff_isSome_getElem?.mp hhost)
    have hagain : Flawless (World.replies .none) (Unchanged (· = .fresh id) last) (Slot.remove egress)
        (Unchanged (· = .fresh id) last) :=
      Unchanged.remove Hazard.none_plain Hazard.none_strikes hcurrent hns hclear.rid
    refine ⟨last, hrun, hcurrent, hclear, hbeside, ?_⟩
    obtain ⟨⟨result, after⟩, same, hrun, hend⟩ := World.run_of_ensures (hagain _ last ⟨rfl, rfl⟩)
    cases result with
    | error failure => exact hend.elim
    | ok value =>
      obtain ⟨rfl, rfl⟩ := hend
      exact hrun

/-- Where there was nothing of a slot, its network can be made, and whatever befalls it, it can be removed, and then
    nothing of it is left. If nothing was done for other slots, the machine is what it was at first. -/
theorem create_remove (hcurrent : world.current = hostNamespace) (hhost : hostNamespace ∈ world.namespaces)
    (hclear : world.Clear slot.id egress) (hloopback : world.peers[loopback]? = none) :
    ∃ made, (create.program egress slot).run World.machine world =
        (some (.ok (), .standing slot.id .allowed), made) ∧
      ∀ alone after later, Interim egress (.standing slot.id .allowed) made alone after later →
        ∃ last, (remove.program egress after).run World.machine later = (some (.ok (), .fresh slot.id), last) ∧
          last.current = hostNamespace ∧ last.Clear slot.id egress ∧ World.Beside slot.id egress later last ∧
          (alone = true → last = world) ∧
          (remove.program egress (.fresh slot.id)).run World.machine last = (some (.ok (), .fresh slot.id), last) := by
  obtain ⟨host, hns⟩ := Option.isSome_iff_exists.mp (Std.ExtTreeMap.mem_iff_isSome_getElem?.mp hhost)
  refine ⟨_, create_run hcurrent hns hclear.absent (hclear.host host hns).1, fun alone after later hinterim => ?_⟩
  have hhome (handle : Handle) (hsome : (Slot.standing slot.id .allowed).handle = some handle) :
      handle.label = slot.id.namespaceName := by
    obtain rfl := Option.some.inj hsome
    rfl
  have hstart : Between.OnHost slot.id (World.Lasting slot.id egress) (.standing slot.id .allowed)
      (world.lay egress (slot.id, .allowed)) :=
    ⟨⟨rfl, hhome, .inl hcurrent, World.lay_lasting hclear hhost hloopback⟩, hcurrent⟩
  obtain ⟨hlasting, hbeside⟩ := hinterim.lasting hstart
  obtain ⟨last, hrun, hback, hgone, hrest, hagain⟩ := remove_run hlasting
  refine ⟨last, hrun, hback, hgone, hrest, fun halone => ?_, hagain⟩
  have hmade : World.Beside slot.id egress world (world.lay egress (slot.id, .allowed)) :=
    ⟨World.lay_without, World.lay_elsewhere⟩
  have hsame := (hmade.trans (hbeside halone)).trans hrest
  exact hclear.eq_of_without hgone (hback.trans hcurrent.symm) hsame.without hsame.elsewhere

/-- Beside the first slot, a second one is made and forgotten, and its namespace is deleted. It can still be
    removed. -/
theorem create_remove_deletedBesideNeighbour : ∃ made,
    (create.program "eth0" (.fresh 1)).run World.machine neighbourMade.2.machine =
        (some (.ok (), .standing 1 .allowed), made) ∧
      (remove.program "eth0" (.fresh 1)).run World.machine (made.deleteNamed (1 : SlotId).namespaceName).2 =
        (some (.ok (), .fresh 1), neighbourMade.2.machine) := by
  have hsound := neighbourMade_reached.sound Rehearsal.rehearsing_within
  have hclear : neighbourMade.2.machine.Clear (Slot.fresh 1).id "eth0" := neighbourMade_clear
  obtain ⟨made, hmade, hundone⟩ := create_remove neighbourMade_onHost hsound.host hclear (hsound.orderly 0).loose.1
  have hinterim : Interim "eth0" (.standing 1 .allowed) made true (.fresh 1)
      (made.deleteNamed (1 : SlotId).namespaceName).2 := (Interim.nothing.deleted rfl).forgotten
  obtain ⟨last, hrun, -, -, -, hsame, -⟩ := hundone _ _ _ hinterim
  exact ⟨made, hmade, hsame rfl ▸ hrun⟩

end Operation
end SlotPool
