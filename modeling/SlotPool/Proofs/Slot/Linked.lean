import SlotPool.Proofs.Slot.Staged
/-!
The connection of a slot through the jobs for it. A slot that has its namespace open is connected when
it was made ready and stays so when it is taken back, whatever fails; a slot that could not be kept is
given up.
-/

namespace SlotPool

open Sequence

/-- A slot that has its namespace open is connected. `opened` says when it must have it open. -/
structure Linked (opened : Prop) (id : SlotId) (egress : String) (slot : Slot) (world : World) :
    Prop where
  id_eq : slot.id = id
  home : ∀ handle, slot.handle = some handle → handle.label = id.namespaceName
  opened : opened → slot.handle ≠ none
  connected : slot.handle ≠ none → world.Connected id egress

namespace Linked

variable {opened : Prop} {id : SlotId} {egress : String} {slot after : Slot} {world world' : World}
  {hazard : Hazard}

/-- While the thread is in the slot's namespace. -/
def Inside (opened : Prop) (id : SlotId) (egress : String) (slot : Slot) (world : World) : Prop :=
  Linked opened id egress slot world ∧ world.current = id.namespaceName

theorem memory (h : Linked opened id egress slot world) (hid : after.id = slot.id)
    (hhandle : after.handle = slot.handle) : Linked opened id egress after world :=
  ⟨hid.trans h.id_eq, fun handle hsome => h.home handle (hhandle ▸ hsome),
    fun hopened => hhandle ▸ h.opened hopened, fun hsome => h.connected (hhandle ▸ hsome)⟩

theorem enter {target : Handle} (h : Linked opened id egress slot world)
    (hanswer : world.enter target = (.ok (), world')) : Linked opened id egress slot world' := by
  obtain ⟨-, rfl⟩ := World.enter_ok hanswer
  exact ⟨h.id_eq, h.home, h.opened, h.connected⟩

/-- A change of the slot's namespace that leaves devices, routes and the exchange of addresses. -/
theorem Inside.edit {change : Namespace → Except NetworkError Namespace}
    (h : Inside opened id egress slot world)
    (hchange : ∀ ns ns', change ns = .ok ns' → ns'.links = ns.links ∧ ns'.routes = ns.routes ∧
      ∀ rule ∈ id.natRules, rule ∈ ns.rules → rule ∈ ns'.rules)
    (hanswer : world.edit change = (.ok (), world')) : Inside opened id egress slot world' := by
  refine ⟨⟨h.1.id_eq, h.1.home, h.1.opened, fun hsome => ?_⟩, ?_⟩
  · exact (h.1.connected hsome).edit_inside h.2 hchange hanswer
  · exact (World.samePlaces_edit hanswer).current.trans h.2

/-- The rules that exchange addresses are not among those that decide what leaves the sandbox. -/
theorem natRules_kept {rule : Rule} (hrule : rule ∈ id.natRules) :
    rule.table = .nat ∧ rule ≠ id.hookRule := by
  simp only [SlotId.natRules, List.mem_cons, List.not_mem_nil, or_false] at hrule
  rcases hrule with rfl | rfl <;> simp [SlotId.hookRule]

theorem Inside.append {rule : Rule} (h : Inside opened id egress slot world)
    (hanswer : world.edit (World.appendRule rule) = (.ok (), world')) :
    Inside opened id egress slot world' := by
  refine h.edit (fun ns ns' hchange => ?_) hanswer
  obtain rfl := World.appendRule_ok hchange
  exact ⟨rfl, rfl, fun _ _ hmem => List.mem_append_left _ hmem⟩

variable (hazard opened id egress) in
/-- The firewall has no part in the connection of a slot: its calls leave the devices and the routes alone, and
    the rules that they add or take away are none of those that the connection needs. -/
theorem wall :
    Wall (World.replies hazard) (fun _ => True) id (fun _ => True)
      (fun handle => handle.label = id.namespaceName) (Linked opened id egress)
      (Inside opened id egress) (Inside opened id egress) where
  of_inside h := h.1
  holds _ := trivial
  id_eq h := h.id_eq
  handle h hsome := h.home _ hsome
  capture h hreply := by
    obtain ⟨rfl, -⟩ := World.replies_captured hreply
    exact ⟨h, fun _ _ => trivial⟩
  returns _ h hreply := World.replies_keeps hreply h fun _ hanswer => h.enter hanswer
  opens h hreply := by
    obtain ⟨rfl, hlabel⟩ := World.replies_opened hreply
    exact ⟨h, hlabel⟩
  enters htarget h hreply := by
    have hkept := World.replies_keeps hreply h fun _ hanswer => h.enter hanswer
    refine ⟨hkept, ?_⟩
    rintro rfl
    exact ⟨hkept, (World.replies_entered hreply).trans htarget⟩
  rules hc h hreply := World.replies_keeps hreply h fun _ hanswer => by
    cases hc with
    | flush =>
      refine h.edit (fun ns ns' hchange => ?_) hanswer
      unfold World.flushChain at hchange
      split at hchange
      · obtain rfl := by simpa using hchange
        refine ⟨rfl, rfl, fun rule hrule hmem => List.mem_filter.mpr ⟨hmem, ?_⟩⟩
        simp [(natRules_kept hrule).1]
      · cases hchange
    | rule rule hrule => exact h.append hanswer
  unchains hc h _ hreply := World.replies_keeps hreply h fun _ hanswer => by
    cases hc with
    | unhook =>
      refine h.edit (fun ns ns' hchange => ?_) hanswer
      obtain ⟨-, rfl⟩ := World.deleteRule_ok hchange
      exact ⟨rfl, rfl, fun rule hrule hmem =>
        (List.mem_erase_of_ne (natRules_kept hrule).2).mpr hmem⟩
    | unchain =>
      refine h.edit (fun ns ns' hchange => ?_) hanswer
      unfold World.deleteChain at hchange
      split at hchange
      · cases hchange
      · split at hchange
        · cases hchange
        · obtain rfl := by simpa using hchange
          exact ⟨rfl, rfl, fun _ _ hmem => hmem⟩
  chains {guards slot world result world'} h _ hreply := by
    have hkept : Inside opened id egress slot world' := World.replies_keeps hreply h fun _ hanswer => by
      have hedit : world.edit (World.newChain .filter egressChain) = (.ok (), world') := hanswer
      refine h.edit (fun ns ns' hchange => ?_) hedit
      unfold World.newChain at hchange
      split at hchange
      · cases hchange
      · obtain rfl := by simpa using hchange
        exact ⟨rfl, rfl, fun _ _ hmem => hmem⟩
    exact ⟨hkept, fun _ => hkept⟩
  hooks {guards slot world result world'} h hreply := by
    have hkept : Inside opened id egress slot world' := World.replies_keeps hreply h fun _ hanswer => by
      have hedit : world.edit (World.appendRule id.hookRule) = (.ok (), world') := hanswer
      exact h.append hedit
    exact ⟨hkept, fun _ => ⟨hkept.1.memory (by simp) (by simp), hkept.2⟩⟩
  made_holds _ := trivial
  memory hid hhandle _ := ⟨fun h => h.memory hid hhandle, fun h => ⟨h.1.memory hid hhandle, h.2⟩⟩

/-- Where a network is to be made: on the host, for a slot that has none. -/
structure Unmade (id : SlotId) (slot : Slot) (world : World) : Prop where
  id_eq : slot.id = id
  handle : slot.handle = none
  current : world.current = hostNamespace
  host : hostNamespace ∈ world.namespaces
  absent : id.namespaceName ∉ world.namespaces

variable (hazard id egress) in
/-- Clearing up before a network is made keeps the thread on the host, where nothing of the slot is then on
    record. -/
theorem clearing :
    Clearing (World.replies hazard) (fun _ => True) id egress (Unmade id) where
  holds _ := trivial
  id_eq h := h.id_eq
  forgets h := ⟨h.id_eq, rfl, h.current, h.host, h.absent⟩
  unmakes hc h hreply := World.replies_keeps hreply h fun _ hanswer => by
    obtain ⟨hcurrent, hsame⟩ := World.samePlaces_outer hc.outer hanswer
    exact ⟨h.id_eq, h.handle, hcurrent.trans h.current, (hsame _).mpr h.host,
      fun hmem => h.absent ((hsame _).mp hmem)⟩
  deletes h _ hreply := World.replies_keeps hreply h fun _ hanswer => by
    obtain ⟨hcurrent, hsame⟩ := World.deleteNamed_places hanswer
    exact ⟨h.id_eq, h.handle, hcurrent.trans h.current, (hsame _).mpr ⟨by simp, h.host⟩,
      fun hmem => h.absent ((hsame _).mp hmem).2⟩

variable (opened hazard id egress)

/-- A network that could be made connects the slot. All its parts were made by this run, in a namespace that was
    not there before, so none of them can be missing. -/
theorem create :
    Triple (World.replies hazard) (fun _ => True) (Unmade id) (Slot.create egress)
      (Linked opened id egress) fun _ _ => True := by
  intro slot world h
  obtain ⟨host, hhost⟩ := Option.isSome_iff_exists.mp (Std.ExtTreeMap.mem_iff_isSome_getElem?.mp h.host)
  have hcreate : Triple (World.replies hazard) (Attempt id egress host)
      (fun slot after => slot.id = id ∧ after = world) (Slot.create egress)
      (Staged world id (some id.handle) (some .allowed) hostNamespace (host.reaching id egress) (id.furnished .allowed)
        (World.withCable world.peers id)) (Failed True id egress host) :=
    Staged.create (fun _ => trivial) h.current hhost h.absent fun _ => trivial
  refine ((hcreate slot world ⟨h.id_eq, rfl⟩).mono_inv fun _ _ => trivial).mono (fun _ after world' hstaged => ?_)
    fun _ _ _ _ => trivial
  refine ⟨hstaged.id_eq, fun handle hsome => ?_, fun _ => ?_, fun _ => hstaged.connected⟩
  · rw [hstaged.handle] at hsome
    obtain rfl := Option.some.inj hsome
    rfl
  · rw [hstaged.handle]
    exact Option.some_ne_none _

theorem createAfresh :
    Triple (World.replies hazard) (fun _ => True) (Unmade id) (Slot.createAfresh egress)
      (Linked opened id egress) fun _ _ => True :=
  .bind (.failure? (clearing id egress hazard).reap.of_bare) fun _ =>
    .orUndo (create opened id egress hazard) .anything

/-- Before a slot is made ready: a network that is still to be made is made from the host. A slot that
    must have its namespace open in the end has it open, or there is none. -/
structure Ready (opened : Prop) (id : SlotId) (egress : String) (slot : Slot) (world : World) :
    Prop where
  linked : Linked False id egress slot world
  unmade : slot.handle = none → world.current = hostNamespace ∧ hostNamespace ∈ world.namespaces
  opened : opened → slot.handle ≠ none ∨ id.namespaceName ∉ world.namespaces

/-- A slot that was made ready is connected: if it had its namespace open, it was connected before, and what is
    done to its firewall does not matter; if it had none, the network is made from the host, or an earlier one
    is taken over without a handle. -/
theorem prepare (policy : Internet) :
    Triple (World.replies hazard) (fun _ => True) (Ready opened id egress) (Slot.prepare egress policy)
      (Linked opened id egress) fun _ _ => True := by
  have hwall := wall opened id egress hazard
  have habsent (slot : Slot) (world world' : World) (h : Ready opened id egress slot world)
      (hreply : World.replies hazard (.namespaceExists id.namespaceName) [] world (.ok false) world') :
      Unmade id slot world' := by
    have hanswer := World.replies_ok hreply
    obtain ⟨habsent, rfl⟩ := by simpa [World.answer] using hanswer
    have hhandle : slot.handle = none :=
      Decidable.not_not.mp fun hsome => habsent (h.linked.connected hsome).mem
    exact ⟨h.linked.id_eq, hhandle, (h.unmade hhandle).1, (h.unmade hhandle).2, habsent⟩
  have hpresent (slot : Slot) (world world' : World) (h : Ready opened id egress slot world)
      (hreply : World.replies hazard (.namespaceExists id.namespaceName) [] world (.ok true) world') :
      Linked opened id egress slot world' := by
    have hanswer := World.replies_ok hreply
    obtain ⟨hpresent, rfl⟩ := by simpa [World.answer] using hanswer
    exact ⟨h.linked.id_eq, h.linked.home,
      fun hopened => (h.opened hopened).resolve_right fun habsent => habsent hpresent, h.linked.connected⟩
  have hprovide : Triple (World.replies hazard) (fun _ => True) (Ready opened id egress)
      (Slot.provide egress) (Linked opened id egress) fun _ _ => True :=
    Slot.provide_of_parts (fun _ _ h => h.linked.id_eq) (fun _ _ _ => trivial)
      (fun _ _ _ _ _ _ => trivial) habsent hpresent (fun _ _ h => h)
      ((hwall.inNamespace hwall.around fun origin => (hwall.under origin).setUp).mono (fun _ _ h => h)
        (fun _ _ h => h) fun _ _ _ => trivial)
      (createAfresh opened id egress hazard) .anything .anything
  have hconfigure := hwall.inNamespace hwall.around fun origin => (hwall.under origin).configure policy
  exact .bind hprovide fun _ => .orUndo hconfigure .anything

theorem release :
    Triple (World.replies hazard) (fun _ => True) (Linked opened id egress) (Slot.release egress)
      (Linked opened id egress) fun _ _ => True := by
  have hwall := wall opened id egress hazard
  have hconfigure := hwall.inNamespace hwall.around fun origin => (hwall.under origin).configure .allowed
  exact .orUndo hconfigure .anything

end Linked
end SlotPool
