import SlotPool.Proofs.Slot.Between
import SlotPool.Proofs.Slot.Errand
import SlotPool.Proofs.Slot.Standing
import SlotPool.Proofs.World.Complete
import SlotPool.Proofs.World.Upheld
/-!
A network that was made and is used. What is done for other slots does not bring it down, however that ends, and
applying a policy changes nothing outside the slot's own namespace.
-/

namespace SlotPool

open Sequence

/-- The rules in the namespace of a slot whose network is complete, whatever policy is being applied. -/
def SlotId.Walls (id : SlotId) (rules : List Rule) : Prop :=
  ∃ blocking, (∀ rule ∈ blocking, rule ∈ blockRules) ∧ rules = id.natRules ++ id.hookRule :: blocking

/-- A slot's network was made, and nothing but the loss of links has befallen it from others. -/
structure World.Lasting (id : SlotId) (egress : String) (world : World) : Prop where
  moored : world.Moored id []
  upheld : world.Upheld id egress id.Walls

/-- A network stands when it was made where there was nothing of the slot: every device is in one place, and the
    route and the rules are there once. -/
theorem World.lay_lasting {world : World} {id : SlotId} {egress : String} (hclear : world.Clear id egress)
    (hhost : hostNamespace ∈ world.namespaces) (hloopback : world.peers[loopback]? = none) :
    (world.lay egress (id, .allowed)).Lasting id egress := by
  obtain ⟨host, hns⟩ := Option.isSome_iff_exists.mp (Std.ExtTreeMap.mem_iff_isSome_getElem?.mp hhost)
  obtain ⟨hroute, hrules⟩ := hclear.host host hns
  have hvpeer : (world.lay egress (id, .allowed)).HasLink id.namespaceName id.vpeerName := by
    refine ⟨_, lay_inside, Std.ExtTreeMap.mem_iff_isSome_getElem?.mpr ?_⟩
    rw [((id.furnished_exact .allowed).links id.vpeerName _).mpr (.inr (.inl ⟨rfl, rfl⟩))]
    rfl
  refine ⟨⟨fun name hlink => ?_, fun name hlink => ?_, fun name hlink => ?_, fun link hlink => ?_,
    lay_loose hclear hloopback, fun peer hpeer => ?_, fun peer hpeer => ?_⟩, ⟨?_, fun ns hinside => ?_⟩⟩
  · rcases lay_hasLink hlink with ⟨-, hown⟩ | ⟨-, hold | hveth⟩
    · simp at hown
    · exact (hclear.links name _ (.inl rfl) hold).elim
    · exact hveth.1
  · rcases lay_hasLink hlink with ⟨hname, -⟩ | ⟨-, hold | hveth⟩
    · exact hname
    · exact (hclear.links name _ (.inr (.inl rfl)) hold).elim
    · simp at hveth
  · rcases lay_hasLink hlink with ⟨hname, -⟩ | ⟨-, hold | hveth⟩
    · exact hname
    · exact (hclear.links name _ (.inr (.inr rfl)) hold).elim
    · simp at hveth
  · rcases lay_hasLink hlink with ⟨-, hown⟩ | ⟨hname, -⟩
    · exact hown
    · exact (hname rfl).elim
  · exact ⟨(Option.some.inj (lay_peers.1.symm.trans hpeer)).symm, .inr (lay_veth hhost)⟩
  · exact ⟨(Option.some.inj (lay_peers.2.symm.trans hpeer)).symm, .inr hvpeer⟩
  · refine ⟨host.reaching id egress, by rw [lay_host, hns]; rfl, ?_, ?_⟩
    · have hnone : host.routes.filter (· = id.hostRoute) = [] :=
        List.filter_eq_nil_iff.mpr fun route hmem heq => hroute (of_decide_eq_true heq ▸ hmem)
      simp [Namespace.only, Namespace.reaching, List.filter_append, hnone]
    · have hnone : host.rules.filter (· ∈ id.hostRules egress) = [] :=
        List.filter_eq_nil_iff.mpr fun rule hmem hown => hrules rule (of_decide_eq_true hown) hmem
      have hall : (id.hostRules egress).filter (· ∈ id.hostRules egress) = id.hostRules egress :=
        List.filter_eq_self.mpr fun rule hown => decide_eq_true hown
      simp only [Namespace.only, Namespace.reaching, List.filter_append, hnone, hall, List.nil_append]
  · obtain rfl := Option.some.inj (lay_inside.symm.trans hinside)
    exact ⟨[], by simp, rfl⟩

/-- Where the thread is does not matter. -/
theorem World.Lasting.moved {id : SlotId} {egress : String} (world : World) (current : String)
    (h : world.Lasting id egress) : World.Lasting id egress { world with current } :=
  ⟨h.moored.congr (fun _ _ => Iff.rfl) rfl, h.upheld.host, h.upheld.inside⟩

/-! ### What is done for other slots -/

/-- A change of another slot's namespace that leaves the devices alone. -/
theorem World.Lasting.edit_other {world world' : World} {id other : SlotId} {egress : String} {slot : Slot}
    {change : Namespace → Except NetworkError Namespace} (hother : other ≠ id)
    (h : Between.Inside other (World.Lasting id egress) slot world)
    (hlinks : ∀ ns ns', change ns = .ok ns' → ns'.links = ns.links)
    (hanswer : world.edit change = (.ok (), world')) :
    Between.Inside other (World.Lasting id egress) slot world' :=
  h.change (samePlaces_edit hanswer).current ⟨h.1.kept.moored.edit_tables hlinks hanswer,
    h.1.kept.upheld.edit_other hother h.2 hanswer⟩

/-- No call for another slot brings down a network that stands. The calls for other slots name other devices,
    routes and rules, whatever else is on the machine. -/
theorem World.Lasting.frame {id other : SlotId} (hazard : Hazard) (egress : String) (hother : other ≠ id) :
    Frame (World.replies hazard) (World.Lasting id egress) other egress (Between.Back other)
      (fun target => target.label = hostNamespace) (fun handle => handle.label = other.namespaceName)
      (Between other (World.Lasting id egress)) (Between.Inside other (World.Lasting id egress))
      (Between.Inside other (World.Lasting id egress)) where
  __ := @Between.visit hazard other _ World.Lasting.moved
  rules hc h hreply := World.replies_keeps hreply h fun _ hanswer => by
    cases hc with
    | flush => exact edit_other hother h World.flushChain_links hanswer
    | rule rule hrule => exact edit_other hother h World.appendRule_links hanswer
  unchains hc h _ hreply := World.replies_keeps hreply h fun _ hanswer => by
    cases hc with
    | unhook => exact edit_other hother h World.deleteRule_links hanswer
    | unchain => exact edit_other hother h World.deleteChain_links hanswer
  chains h _ hreply := by
    have hkept := World.replies_keeps hreply h fun _ hanswer => edit_other hother h World.newChain_links hanswer
    exact ⟨hkept, fun _ => hkept⟩
  hooks {guards slot world result world'} h hreply := by
    have hkept : Between.Inside other (World.Lasting id egress) slot world' :=
      World.replies_keeps hreply h fun _ hanswer => by
        have hedit : world.edit (World.appendRule other.hookRule) = (.ok (), world') := hanswer
        exact edit_other hother h World.appendRule_links hedit
    exact ⟨hkept, fun _ => ⟨hkept.1.memory (by simp) (.inl (by simp)), hkept.2⟩⟩
  made_holds h := h.1.kept
  memory hid hhandle _ := ⟨fun h => h.memory hid (.inl hhandle), fun h => ⟨h.1.memory hid (.inl hhandle), h.2⟩⟩
  forgets h := h.memory (by simp) (by simp)
  outer hc h hreply := World.replies_keeps hreply h fun _ hanswer =>
    h.change (World.samePlaces_outer hc hanswer).current ⟨h.kept.moored.outer_call hc hanswer,
      h.kept.upheld.outer_call hother hc h.thread hanswer⟩
  deletes h _ hreply := World.replies_keeps hreply h fun _ hanswer =>
    h.change (World.deleteNamed_places hanswer).1 ⟨h.kept.moored.deleteNamed hanswer, h.kept.upheld.deleteNamed hanswer⟩
  inner hc h hreply := World.replies_keeps hreply h fun _ hanswer =>
    h.change (World.current_inner hc hanswer) ⟨h.1.kept.moored.inner_call hother hc h.2 hanswer,
      h.1.kept.upheld.inner_call hother h.2 hc hanswer⟩
  creates {guards slot world result world'} h hreply := by
    have happly (handle : Handle) (hanswer : world.createNamed other.namespaceName = (.ok handle, world')) :
        world'.current = other.namespaceName ∧ world'.Lasting id egress :=
      ⟨by rw [(World.createNamed_ok hanswer).2.2], h.kept.moored.createNamed hother hanswer,
        h.kept.upheld.createNamed hother hanswer⟩
    refine ⟨World.replies_keeps hreply h fun handle hanswer => ?_, ?_⟩
    · obtain ⟨hcurrent, hlasting⟩ := happly handle hanswer
      exact ⟨h.id_eq, h.home, .inr hcurrent, hlasting⟩
    · rintro handle rfl
      have hanswer := World.replies_ok hreply
      obtain ⟨hcurrent, hlasting⟩ := happly handle hanswer
      obtain rfl := (World.createNamed_ok hanswer).2.1
      refine ⟨⟨h.id_eq, ?_, .inr hcurrent, hlasting⟩, hcurrent⟩
      rintro handle ⟨⟩
      rfl

/-- A program may lead from one machine to another. Any of its calls may fail, and any may end it. -/
def Program.Leads {α : Type} (p : Program α) (before : World) (outcome : Option α) (after : World) : Prop :=
  ∃ (σ : Type) (machine : Machine σ) (view : σ → World) (state state' : σ),
    machine.Within view (World.replies .any) ∧ view state = before ∧
      p.run machine state = (outcome, state') ∧ view state' = after

/-- Whatever is done for another slot and however it ends, a network that stands stays, also when the job is cut
    off in the middle. -/
theorem Errand.lasting {egress : String} {id : SlotId} {slot : Slot} {errand : Errand} {before after : World}
    {outcome : Option (Except errand.Failure Unit × Slot)} (hother : slot.id ≠ id) (hhome : slot.Homed)
    (hhost : before.current = hostNamespace) (hlasting : before.Lasting id egress)
    (hleads : (errand.program egress slot).Leads before outcome after) : after.Lasting id egress := by
  obtain ⟨σ, machine, view, state, state', hmachine, rfl, hrun, rfl⟩ := hleads
  have hframe := World.Lasting.frame .any egress hother
  have herrand : Triple (World.replies .any) (World.Lasting id egress)
      (Between.OnHost slot.id (World.Lasting id egress)) (errand.steps egress)
      (Between slot.id (World.Lasting id egress)) (Between slot.id (World.Lasting id egress)) := by
    refine errand.steps_around hframe (hframe.around.narrow fun _ _ h => h.1) hframe.around
      (World.clearing_staying hframe.clearing hostNamespace) hframe.clearing fun {_ _ _ origin _} h hreply => ?_
    exact (World.replies_captured hreply).2 origin rfl ▸ h.2
  have hstart : Between.OnHost slot.id (World.Lasting id egress) slot (view state) :=
    ⟨⟨rfl, hhome, .inl hhost, hlasting⟩, hhost⟩
  cases outcome with
  | some ended =>
    obtain ⟨result, after⟩ := ended
    have hend := herrand.run hmachine hstart hrun
    cases result with
    | ok value => exact Between.kept hend
    | error failure => exact Between.kept hend
  | none =>
    refine herrand.crash hmachine (fun origin world result world' hreply h => ?_) hstart hrun
    refine World.replies_keeps hreply h fun _ hanswer => ?_
    obtain ⟨-, rfl⟩ := World.enter_ok hanswer
    exact h.moved _ _

/-! ### What is done for the slot itself -/

/-- A slot's network was made, and what its namespace holds fits, as long as it is there. Besides what belongs to
    the slot, the machine is what it was at first. -/
structure World.Lodged (id : SlotId) (egress : String) (base : World) (fits : Namespace → Prop)
    (world : World) : Prop where
  moored : world.Moored id []
  upheld : world.Upheld id egress fun _ => True
  inside : ∀ ns : Namespace, world.namespaces[id.namespaceName]? = some ns → fits ns
  beside : Beside id egress base world

namespace World.Lodged

variable {id : SlotId} {egress : String} {base world after : World} {fits fits' : Namespace → Prop} {slot : Slot}
  {change : Namespace → Except NetworkError Namespace}

theorem weaken (h : Lodged id egress base fits world) (hfits : ∀ ns, fits ns → fits' ns) :
    Lodged id egress base fits' world :=
  ⟨h.moored, h.upheld, fun ns hns => hfits ns (h.inside ns hns), h.beside⟩

theorem moved (world : World) (current : String) (h : Lodged id egress base fits world) :
    Lodged id egress base fits { world with current } :=
  ⟨h.moored.congr (fun _ _ => Iff.rfl) rfl, ⟨h.upheld.host, h.upheld.inside⟩, h.inside,
    h.beside.without, h.beside.elsewhere⟩

theorem lasting (h : Lodged id egress base (id.Walls ·.rules) world) : world.Lasting id egress :=
  ⟨h.moored, h.upheld.host, h.inside⟩

/-- A change of the tables in the slot's namespace. -/
theorem edit (h : Between.Inside id (Lodged id egress base fits) slot world)
    (hlinks : ∀ ns ns', change ns = .ok ns' → ns'.links = ns.links)
    (hfits : ∀ ns ns', change ns = .ok ns' → fits ns → fits' ns')
    (hanswer : world.edit change = (.ok (), after)) : Between.Inside id (Lodged id egress base fits') slot after := by
  have hinside : world.current = id.namespaceName := h.2
  have hhost {p : Prop} (hcurrent : world.current = hostNamespace) : p :=
    (SlotId.namespaceName_ne_host (hinside.symm.trans hcurrent)).elim
  refine h.change (samePlaces_edit hanswer).current ⟨h.1.kept.moored.edit_tables hlinks hanswer,
    h.1.kept.upheld.edit hhost (fun _ _ _ _ _ => trivial) hanswer, fun ns hns => ?_,
    h.1.kept.beside.trans (beside_edit (.inr hinside) hhost hanswer)⟩
  obtain ⟨before, changed, hbefore, hchange, rfl⟩ := edit_ok hanswer
  obtain rfl : changed = ns := by simpa [setNamespace, hinside] using hns
  exact hfits before changed hchange (h.1.kept.inside before (hinside ▸ hbefore))

/-- A change that is refused only where there is nothing to change. -/
theorem tried {result : Except NetworkError Unit} (h : Between.Inside id (Lodged id egress base fits) slot world)
    (hlinks : ∀ ns ns', change ns = .ok ns' → ns'.links = ns.links)
    (hfits : ∀ ns ns', change ns = .ok ns' → fits ns → fits' ns')
    (habsent : ∀ ns failure, change ns = .error failure → fits ns → failure.isNotFound = true ∧ fits' ns)
    (hanswer : world.edit change = (result, after)) :
    Between.Inside id (Lodged id egress base fits') slot after ∧
      ∀ failure, result = .error failure → failure.isNotFound = true := by
  cases result with
  | ok value => exact ⟨edit h hlinks hfits hanswer, by simp⟩
  | error failure =>
    have hinside : world.current = id.namespaceName := h.2
    have hkept (hfits : ∀ ns : Namespace, world.namespaces[id.namespaceName]? = some ns → fits' ns) :
        Between.Inside id (Lodged id egress base fits') slot world :=
      h.change rfl ⟨h.1.kept.moored, h.1.kept.upheld, hfits, h.1.kept.beside⟩
    unfold World.edit at hanswer
    split at hanswer
    · rename_i hnone
      obtain ⟨rfl, rfl⟩ := by simpa using hanswer
      refine ⟨hkept fun ns hns => ?_, fun _ hresult => Except.error.inj hresult ▸ rfl⟩
      simp [← hinside, hnone] at hns
    · rename_i found hfound
      split at hanswer
      · rename_i hrefused
        obtain ⟨rfl, rfl⟩ := by simpa using hanswer
        rw [hinside] at hfound
        obtain ⟨hnotFound, hstill⟩ := habsent found _ hrefused (h.1.kept.inside found hfound)
        refine ⟨hkept fun ns hns => ?_, fun _ hresult => Except.error.inj hresult ▸ hnotFound⟩
        exact Option.some.inj (hfound.symm.trans hns) ▸ hstill
      · cases hanswer

end World.Lodged

theorem World.Lasting.lodged {world : World} {id : SlotId} {egress : String} (h : world.Lasting id egress) :
    World.Lodged id egress world (id.Walls ·.rules) world :=
  ⟨h.moored, ⟨h.upheld.host, fun _ _ => trivial⟩, h.upheld.inside, ⟨rfl, .refl id world⟩⟩

namespace SlotId.Walls

variable {id : SlotId} {ns ns' : Namespace}

/-- What is in the chain may be flushed. -/
theorem flush (h : id.Walls ns.rules) (hok : World.flushChain .filter egressChain ns = .ok ns') :
    id.Walls ns'.rules := by
  obtain ⟨blocking, hblocking, hrules⟩ := h
  unfold World.flushChain at hok
  split at hok
  · obtain rfl := Except.ok.inj hok
    refine ⟨[], by simp, ?_⟩
    simp only [hrules, List.filter_append, SlotId.filter_natRules]
    rw [List.filter_cons_of_pos (by simp [SlotId.hookRule, egressChain]), filter_blockRules hblocking]
  · cases hok

/-- One more rule may be added to it. -/
theorem append {rule : Rule} (hrule : rule ∈ blockRules) (h : id.Walls ns.rules)
    (hok : World.appendRule rule ns = .ok ns') : id.Walls ns'.rules := by
  obtain ⟨blocking, hblocking, hrules⟩ := h
  rw [World.appendRule_ok hok]
  refine ⟨blocking ++ [rule], fun other hmem => ?_, by simp [hrules]⟩
  rcases List.mem_append.mp hmem with hold | hnew
  · exact hblocking other hold
  · exact List.mem_singleton.mp hnew ▸ hrule

end SlotId.Walls

section

variable {id : SlotId} {egress : String} {base : World}

/-- The calls that change the rules of the chain leave the network complete. -/
theorem World.Lodged.rules {hazard : Hazard} {origin : Handle} {c : Call} (hc : Call.Ruling c) :
    Triple ((World.replies hazard).under origin) (Lodged id egress base (id.Walls ·.rules))
      (Between.Inside id (Lodged id egress base (id.Walls ·.rules))) (perform c)
      (Between.Inside id (Lodged id egress base (id.Walls ·.rules)))
      (Between.Inside id (Lodged id egress base (id.Walls ·.rules))) := by
  have hkept {slot : Slot} {world world' : World} {result : Except NetworkError c.Reply}
      (h : Between.Inside id (Lodged id egress base (id.Walls ·.rules)) slot world)
      (hreply : (World.replies hazard).under origin c [] world result world') :
      Between.Inside id (Lodged id egress base (id.Walls ·.rules)) slot world' :=
    World.replies_keeps hreply h fun _ hanswer => by
      cases hc with
      | flush => exact Lodged.edit h World.flushChain_links (fun _ _ hok hwalls => hwalls.flush hok) hanswer
      | rule rule hrule =>
        exact Lodged.edit h World.appendRule_links (fun _ _ hok hwalls => hwalls.append hrule hok) hanswer
  exact .perform (fun _ _ h => h.1.kept) (fun _ _ _ _ h hreply => hkept h hreply) fun _ _ _ _ h hreply => hkept h hreply

/-- Applying a policy leaves the network complete, whatever fails. At worst some of the blocking rules are in
    the chain. -/
theorem World.Lodged.configure {before after : World} {slot slot' : Slot} {policy : Internet}
    {result : Except NetworkError Unit} (h : Between id (Lodged id egress base (id.Walls ·.rules)) slot before)
    (hleads : ((Errand.visit (.configure policy)).program egress slot).Leads before (some (result, slot')) after) :
    Between id (Lodged id egress base (id.Walls ·.rules)) slot' after := by
  obtain ⟨σ, machine, view, state, state', hmachine, rfl, hrun, rfl⟩ := hleads
  have hmemory (slot : Slot) (world : World)
      (h : Between.Inside id (Lodged id egress base (id.Walls ·.rules)) slot world) :
      Between.Inside id (Lodged id egress base (id.Walls ·.rules)) (slot.setInternet policy) world :=
    ⟨h.1.memory (by simp) (.inl (by simp)), h.2⟩
  have hvisit : Triple (World.replies .any) (Lodged id egress base (id.Walls ·.rules))
      (Between id (Lodged id egress base (id.Walls ·.rules))) (Sequence.inNamespace (Firewall.configure policy))
      (Between id (Lodged id egress base (id.Walls ·.rules)))
      (Between id (Lodged id egress base (id.Walls ·.rules))) :=
    (Between.visit Lodged.moved).inNamespace (Between.around Lodged.moved) fun origin =>
      triple_configure Lodged.rules hmemory
  have hend := hvisit.run hmachine h hrun
  cases result with
  | ok value => exact hend
  | error failure => exact hend

end

end SlotPool
