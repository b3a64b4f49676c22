import SlotPool.Proofs.Slot.Recovery
import SlotPool.Proofs.World.Laid
/-!
Slots whose networks stand. A policy is applied as a whole, or the network is complete but for what is in
the chain. In either case it can be taken away without a trace.
-/

namespace SlotPool

open Sequence

/-- The namespace of a slot whose network is complete, with these rules in the chain. -/
def SlotId.walled (id : SlotId) (rules : List Rule) : Namespace :=
  { id.furnished .allowed with rules := id.natRules ++ id.hookRule :: rules }

/-- There is no handle, or it leads to the namespace of the slot. -/
def SlotId.Opens (id : SlotId) (opened : Option Handle) : Prop :=
  ∀ handle, opened = some handle → handle = id.handle

theorem SlotId.opens_some (id : SlotId) : id.Opens (some id.handle) := by
  rintro handle ⟨⟩
  rfl

/-- A slot whose network was made by this process. -/
def Slot.standing (id : SlotId) (policy : Internet) : Slot :=
  ⟨id, .firewallReady (some ⟨id.namespaceName, true⟩) policy⟩

/-- A slot that has its network. Without a handle, it was taken over from another process. -/
def Slot.outfitted (id : SlotId) (opened : Option Handle) (policy : Internet) : Slot :=
  ⟨id, .firewallReady opened policy⟩

theorem Slot.standing_eq (id : SlotId) (policy : Internet) :
    Slot.standing id policy = .outfitted id (some id.handle) policy := rfl

/-- A slot is known when its number, its handle and its firewall are. -/
theorem Slot.eq_outfitted {slot : Slot} {id : SlotId} {opened : Option Handle} {policy : Internet}
    (hid : slot.id = id) (hhandle : slot.handle = opened) (hfirewall : slot.firewall = some policy) :
    slot = .outfitted id opened policy := by
  obtain ⟨found, state⟩ := slot
  obtain rfl : found = id := hid
  cases state with
  | noNetwork => cases hfirewall
  | networkReady handle => cases hfirewall
  | firewallReady handle applied =>
    obtain rfl : handle = opened := hhandle
    obtain rfl : applied = policy := Option.some.inj hfirewall
    rfl

section

variable {id : SlotId} {rules : List Rule}

theorem SlotId.walled_hasChain : (id.walled rules).hasChain .filter egressChain = true := by
  simp [Namespace.hasChain, SlotId.walled, SlotId.furnished]

theorem SlotId.filter_natRules : id.natRules.filter
    (fun rule => !(decide (rule.table = .filter ∧ rule.chain = egressChain))) = id.natRules := by
  simp [SlotId.natRules]

theorem filter_blockRules (hrules : ∀ rule ∈ rules, rule ∈ blockRules) :
    rules.filter (fun rule => !(decide (rule.table = .filter ∧ rule.chain = egressChain))) = [] :=
  List.filter_eq_nil_iff.mpr fun rule hrule => by simp [blockRules_place (hrules rule hrule)]

theorem SlotId.flush_walled (hrules : ∀ rule ∈ rules, rule ∈ blockRules) :
    World.flushChain .filter egressChain (id.walled rules) = .ok (id.walled []) := by
  rw [World.flushChain, if_pos SlotId.walled_hasChain]
  simp only [SlotId.walled, List.filter_append, SlotId.filter_natRules]
  rw [List.filter_cons_of_pos (by simp [SlotId.hookRule, egressChain]), filter_blockRules hrules]

theorem SlotId.append_walled {rule : Rule} (hrule : rule ∈ blockRules) :
    World.appendRule rule (id.walled rules) = .ok (id.walled (rules ++ [rule])) := by
  obtain ⟨htable, hchain⟩ := blockRules_place hrule
  rw [World.appendRule, htable, hchain, if_pos SlotId.walled_hasChain]
  simp [SlotId.walled]

end

namespace Staged

variable {base : World} {id : SlotId} {current current' : String} {host host' inner inner' : Namespace}
  {peers peers' : Named String} {hazard : Hazard} {opened : Option Handle} {firewall : Option Internet}
  {rules : List Rule}
  {policy : Internet}

/-- A call that the machine answers as it should is made, or it fails and changes nothing. `struck` is what it
    takes for that. -/
theorem tries {struck : Prop} {c : Call} {value : c.Reply} (hstruck : hazard.Strikes → struck)
    (hanswer : (base.stage id current host inner peers).answer c =
      (.ok value, base.stage id current' host' inner' peers')) :
    Triple (World.replies hazard) (fun _ => True) (Staged base id opened firewall current host inner peers)
      (Sequence.perform c) (Staged base id opened firewall current' host' inner' peers')
      (fun slot world => struck ∧ Staged base id opened firewall current host inner peers slot world) := by
  intro slot world h
  refine ⟨trivial, fun result world' hreply => ?_⟩
  rcases hreply with hanswered | ⟨failure, hhazard, rfl, rfl⟩
  · rw [h.world_eq, hanswer] at hanswered
    obtain ⟨rfl, rfl⟩ := Prod.mk.inj hanswered
    exact ⟨h.id_eq, h.handle, h.firewall, rfl⟩
  · exact ⟨hstruck ⟨_, _, _, hhazard⟩, h⟩

/-- Where no call fails, a call that the machine answers as it should is made. -/
theorem does {c : Call} {value : c.Reply} (hanswer : (base.stage id current host inner peers).answer c =
    (.ok value, base.stage id current' host' inner' peers')) :
    Flawless (World.replies .none) (Staged base id opened firewall current host inner peers)
      (Sequence.perform c) (Staged base id opened firewall current' host' inner' peers') := by
  have htries : Triple (World.replies .none) (fun _ => True)
      (Staged base id opened firewall current host inner peers) (Sequence.perform c)
      (Staged base id opened firewall current' host' inner' peers')
      (fun slot world => False ∧ Staged base id opened firewall current host inner peers slot world) :=
    tries Hazard.none_strikes hanswer
  exact htries.mono (fun _ _ h => h) (fun _ _ h => h) fun _ _ h => h.1

/-- The network is complete but for what is in the chain. -/
def Walled (base : World) (id : SlotId) (opened : Option Handle) (firewall : Option Internet) (current : String)
    (host : Namespace) (peers : Named String) : Assertion World := fun slot world =>
  ∃ rules, (∀ rule ∈ rules, rule ∈ blockRules) ∧
    Staged base id opened firewall current host (id.walled rules) peers slot world

section

variable {struck : Prop} (hstruck : hazard.Strikes → struck)
include hstruck

/-- The rules that block are added one by one. -/
theorem block {name : String} {done added : List Rule} (hdone : ∀ rule ∈ done, rule ∈ blockRules)
    (hadded : ∀ rule ∈ added, rule ∈ blockRules) :
    Triple (World.replies hazard) (fun _ => True)
      (Staged base id opened firewall id.namespaceName host (id.walled done) peers)
      (added.forM fun rule => step name (perform (.appendRule rule)))
      (Staged base id opened firewall id.namespaceName host (id.walled (done ++ added)) peers)
      (fun slot world => struck ∧ Walled base id opened firewall id.namespaceName host peers slot world) := by
  induction added generalizing done with
  | nil =>
    rw [List.append_nil]
    exact fun slot world h => h
  | cons rule added ih =>
    have hrule : rule ∈ blockRules := hadded rule (List.mem_cons_self ..)
    have happend : Triple (World.replies hazard) (fun _ => True)
        (Staged base id opened firewall id.namespaceName host (id.walled done) peers) (perform (.appendRule rule))
        (Staged base id opened firewall id.namespaceName host (id.walled (done ++ [rule])) peers)
        (fun slot world =>
          struck ∧ Staged base id opened firewall id.namespaceName host (id.walled done) peers slot world) :=
      tries hstruck (World.stage_edit_inner (SlotId.append_walled hrule))
    have hdone' : ∀ other ∈ done ++ [rule], other ∈ blockRules := fun other hmem =>
      (List.mem_append.mp hmem).elim (hdone other) fun hnew => List.mem_singleton.mp hnew ▸ hrule
    have hrest := ih hdone' fun other hmem => hadded other (List.mem_cons_of_mem _ hmem)
    rw [List.append_assoc, List.singleton_append] at hrest
    intro slot world h
    rw [ensures_forM_cons]
    exact (Triple.step happend slot world h).mono (fun _ slot world h => hrest slot world h)
      fun _ slot world h => ⟨h.1, done, hdone, h.2⟩

/-- Applying a policy to a network that stands: the chain is flushed and gets the rules of the policy. If this
    fails on the way, the chain has some blocking rules, and everything else is as it should be. -/
theorem configure (hrules : ∀ rule ∈ rules, rule ∈ blockRules) (hfirewall : firewall.isSome = true) :
    Triple (World.replies hazard) (fun _ => True)
      (Staged base id opened firewall id.namespaceName host (id.walled rules) peers) (Firewall.configure policy)
      (Staged base id opened (some policy) id.namespaceName host (id.furnished policy) peers)
      (fun slot world => struck ∧ Walled base id opened firewall id.namespaceName host peers slot world) := by
  have hflush : Triple (World.replies hazard) (fun _ => True)
      (Staged base id opened firewall id.namespaceName host (id.walled rules) peers)
      (perform (.flushChain .filter egressChain))
      (Staged base id opened firewall id.namespaceName host (id.walled []) peers)
      (fun slot world =>
        struck ∧ Staged base id opened firewall id.namespaceName host (id.walled rules) peers slot world) :=
    tries hstruck (World.stage_edit_inner (SlotId.flush_walled hrules))
  have hremember : Triple (ε := NetworkError) (World.replies hazard) (fun _ => True)
      (Staged base id opened firewall id.namespaceName host (id.walled ([] ++ policy.rules)) peers)
      (modify fun slot => slot.setInternet policy)
      (Staged base id opened (some policy) id.namespaceName host (id.furnished policy) peers)
      (fun slot world => struck ∧ Walled base id opened firewall id.namespaceName host peers slot world) :=
    .modify fun slot world h => ⟨by simpa using h.id_eq, by simpa using h.handle,
      Slot.setInternet_firewall (by rw [Slot.hasFirewall, h.firewall, hfirewall]), h.world_eq⟩
  refine .get fun seen => .ite (fun hnone => ?_) fun _ => ?_
  · rintro slot world ⟨rfl, h⟩
    simp [Slot.hasFirewall, h.firewall, hfirewall] at hnone
  · rintro slot world ⟨-, h⟩
    refine Triple.bind (.step (hflush.mono (fun _ _ h => h) (fun _ _ h => h) fun _ _ h =>
      ⟨h.1, rules, hrules, h.2⟩)) (fun _ => ?_) slot world h
    exact .bind (block hstruck (fun _ hmem => by cases hmem) Internet.rules_block) fun _ => hremember

end

/-- The thread is taken back to the host. -/
theorem home {slot : Slot} {world : World}
    (h : Staged base id opened firewall current host inner peers slot world) :
    hostNamespace ∈ world.namespaces ∧
      Staged base id opened firewall hostNamespace host inner peers slot { world with current := hostNamespace } := by
  refine ⟨?_, h.id_eq, h.handle, h.firewall, by rw [h.world_eq]; rfl⟩
  rw [h.world_eq, Std.ExtTreeMap.mem_iff_isSome_getElem?, World.stage_host]
  rfl

/-- The thread can always go back to the host. -/
theorem reply_home {after world' : World} {result : Except NetworkError Unit} (hreturns : hazard.Returns)
    (hmem : hostNamespace ∈ after.namespaces)
    (hreply : World.replies hazard (.enterNamespace ⟨hostNamespace, true⟩) [] after result world') :
    world' = { after with current := hostNamespace } := by
  rcases hreply with hanswered | ⟨failure, hstruck, -⟩
  · exact (World.enter_mem hmem hanswered).2
  · exact (hreturns _ _ hstruck).elim

/-- A visit to the slot's namespace from the host, through the handle if there is one and by name if not. -/
theorem visit {α : Type} {steps : Sequence α} {ok : α → Assertion World} {err : NetworkError → Assertion World}
    {slot : Slot} {world : World} (hreturns : hazard.Returns) (hopened : id.Opens opened)
    (hsteps : ∀ slot world, Staged base id opened firewall id.namespaceName host inner peers slot world →
      Ensures ((World.replies hazard).under ⟨hostNamespace, true⟩) (fun _ => True) steps
        (fun value slot world => hostNamespace ∈ world.namespaces ∧
          ok value slot { world with current := hostNamespace })
        (fun failure slot world => hostNamespace ∈ world.namespaces ∧
          err failure slot { world with current := hostNamespace }) slot world)
    (hfail : ∀ call guards failure slot world, hazard call guards failure →
      Staged base id opened firewall hostNamespace host inner peers slot world → err failure slot world)
    (h : Staged base id opened firewall hostNamespace host inner peers slot world) :
    Ensures (World.replies hazard) (fun _ => True) (Sequence.inNamespace steps) ok err slot world := by
  have hhere : world.current = hostNamespace := by rw [h.world_eq]; rfl
  -- a call on the way in that fails leaves the thread on the host
  have hfailed {call : Call} {guards : List Handle} {failure : NetworkError}
      (hstruck : hazard call guards failure) :
      hostNamespace ∈ world.namespaces ∧ err failure slot { world with current := hostNamespace } := by
    refine ⟨h.home.1, ?_⟩
    have hsame : { world with current := hostNamespace } = world := by rw [← hhere]
    rw [hsame]
    exact hfail _ _ failure slot world hstruck h
  have henter : Ensures ((World.replies hazard).under ⟨hostNamespace, true⟩) (fun _ => True)
      (perform (.enterNamespace id.handle) >>= fun _ => steps)
      (fun value slot world => hostNamespace ∈ world.namespaces ∧
        ok value slot { world with current := hostNamespace })
      (fun failure slot world => hostNamespace ∈ world.namespaces ∧
        err failure slot { world with current := hostNamespace }) slot world := by
    rw [ensures_bind, ensures_perform]
    refine ⟨trivial, fun result world' hreply => ?_⟩
    rcases hreply with hanswered | ⟨failure, hstruck, rfl, rfl⟩
    · rw [h.world_eq] at hanswered
      obtain ⟨rfl, rfl⟩ := Prod.mk.inj ((World.stage_enter_inner rfl).symm.trans hanswered)
      exact hsteps slot _ ⟨h.id_eq, h.handle, h.firewall, rfl⟩
    · exact hfailed hstruck
  unfold Sequence.inNamespace Sequence.underGuard
  rw [ensures_bind, ensures_perform]
  refine ⟨trivial, fun result world' hreply => ?_⟩
  rcases hreply with hanswered | ⟨failure, hstruck, rfl, rfl⟩
  · obtain ⟨rfl, rfl⟩ := Prod.mk.inj hanswered
    rw [byResult_ok, hhere, ensures_guarded, ensures_bind, ensures_get]
    refine Ensures.mono (?within : Ensures ((World.replies hazard).under ⟨hostNamespace, true⟩) (fun _ => True) _
        (fun value slot world => hostNamespace ∈ world.namespaces ∧
          ok value slot { world with current := hostNamespace })
        (fun failure slot world => hostNamespace ∈ world.namespaces ∧
          err failure slot { world with current := hostNamespace }) slot world)
      (fun value slot after hend => ⟨trivial, fun result world' hreply => ?_⟩)
      fun failure slot after hend => ⟨trivial, fun result world' hreply => ?_⟩
    case within =>
      rw [h.handle, h.id_eq]
      cases hsome : opened with
      | some handle =>
        obtain rfl := hopened handle hsome
        exact henter
      | none =>
        rw [ensures_bind, ensures_perform]
        refine ⟨trivial, fun result world' hreply => ?_⟩
        rcases hreply with hanswered | ⟨failure, hstruck, rfl, rfl⟩
        · have hopen : world.openNamed id.namespaceName = (.ok id.handle, world) := by
            rw [h.world_eq]
            exact World.stage_open
          obtain ⟨rfl, rfl⟩ := Prod.mk.inj (hopen.symm.trans hanswered)
          exact henter
        · exact hfailed hstruck
    · rw [reply_home hreturns hend.1 hreply]
      exact hend.2
    · rw [reply_home hreturns hend.1 hreply]
      exact hend.2
  · exact hfail _ _ failure slot world' hstruck h

/-- A policy is applied from the host. -/
theorem configure_from {struck : Prop} (hstruck : hazard.Strikes → struck) (hreturns : hazard.Returns)
    (hopened : id.Opens opened) (hrules : ∀ rule ∈ rules, rule ∈ blockRules)
    (hfirewall : firewall.isSome = true) :
    Triple (World.replies hazard) (fun _ => True)
      (Staged base id opened firewall hostNamespace host (id.walled rules) peers)
      (Sequence.inNamespace (Firewall.configure policy))
      (Staged base id opened (some policy) hostNamespace host (id.furnished policy) peers)
      (fun slot world => struck ∧ Walled base id opened firewall hostNamespace host peers slot world) := by
  have hunder (hstrikes : (hazard.under ⟨hostNamespace, true⟩).Strikes) : struck := by
    obtain ⟨call, guards, failure, hhazard⟩ := hstrikes
    exact hstruck ⟨call, _, failure, hhazard⟩
  intro slot world h
  refine visit hreturns hopened (fun slot world h => ?_)
    (fun _ _ _ _ _ hhazard h => ⟨hstruck ⟨_, _, _, hhazard⟩, rules, hrules, h⟩) h
  refine (configure hunder hrules hfirewall slot world h).mono (fun _ _ _ h => h.home)
    fun _ slot world h => ?_
  obtain ⟨hso, rules, hrules, h⟩ := h
  exact ⟨h.home.1, hso, rules, hrules, h.home.2⟩

/-- Where no call fails, the chain is taken away whatever is in it. -/
theorem unwall (hrules : ∀ rule ∈ rules, rule ∈ blockRules) :
    Flawless (World.replies .none)
      (Staged base id opened firewall id.namespaceName host (id.walled rules) peers) (Firewall.removeChain id)
      (Staged base id opened firewall id.namespaceName host
        { id.walled [] with rules := id.natRules, chains := [] } peers) := by
  have hunhook : World.deleteRule id.hookRule (id.walled rules) =
      .ok { id.walled [] with rules := id.natRules ++ rules } := by
    have habsent : id.hookRule ∉ id.natRules := by simp [SlotId.natRules, SlotId.hookRule]
    rw [World.deleteRule, if_pos (by simp [SlotId.walled])]
    simp only [SlotId.walled, List.erase_append_right _ habsent, List.erase_cons_head]
  have hflush : World.flushChain .filter egressChain { id.walled [] with rules := id.natRules ++ rules } =
      .ok { id.walled [] with rules := id.natRules } := by
    have hchain : Namespace.hasChain { id.walled [] with rules := id.natRules ++ rules } .filter egressChain =
        true := @SlotId.walled_hasChain id []
    rw [World.flushChain, if_pos hchain]
    simp only [List.filter_append, SlotId.filter_natRules, filter_blockRules hrules, List.append_nil]
  have hunchain : World.deleteChain .filter egressChain { id.walled [] with rules := id.natRules } =
      .ok { id.walled [] with rules := id.natRules, chains := [] } := by
    simp [World.deleteChain, World.keepsChain, SlotId.walled, SlotId.furnished, SlotId.natRules]
  unfold Firewall.removeChain
  refine .bind (.step (Flawless.tolerant (does (World.stage_edit_inner hunhook)))) fun _ => ?_
  refine .bind (.step (Flawless.tolerant (does (World.stage_edit_inner hflush)))) fun _ => ?_
  exact .step (Flawless.tolerant (does (World.stage_edit_inner hunchain)))

end Staged

/-- The firewall of a slot can be closed, unless calls fail. -/
def Quiet : Assertion World := fun slot world =>
  Ensures (World.replies .none) (fun _ => True) Slot.closeFirewall (fun failures _ _ => failures = [])
    (fun _ _ _ => False) slot world

theorem quiet_of_bare {slot : Slot} {world : World} (h : slot.hasFirewall = false) : Quiet slot world := by
  rw [Quiet, Slot.closeFirewall, ensures_bind, ensures_get, ensures_ite, h]
  simp

/-- The firewall of a network that stands can be closed without failures, whatever blocking rules are in its
    chain. -/
theorem Staged.quiet {base : World} {id : SlotId} {host : Namespace} {peers : Named String}
    {opened : Option Handle} {policy : Internet} {slot : Slot} {world : World} (hopened : id.Opens opened)
    (h : Walled base id opened (some policy) hostNamespace host peers slot world) : Quiet slot world := by
  obtain ⟨rules, hrules, h⟩ := h
  rw [Quiet, Slot.closeFirewall, ensures_bind, ensures_get, ensures_ite, Slot.hasFirewall, h.firewall,
    Option.isSome_some, if_pos rfl, ensures_bind, ensures_attempt]
  have hvisit : Ensures (World.replies .none) (fun _ => True)
      (Sequence.inNamespace (Sequence.attempt (ε := NetworkError) Firewall.close))
      (fun closed _ _ => closed = .ok ()) (fun _ _ _ => False) slot world := by
    refine visit Hazard.none_returns hopened (fun slot world h => ?_) (fun _ _ _ _ _ hstruck _ => hstruck.elim) h
    have hforgotten : Staged base id opened none id.namespaceName host (id.walled rules) peers
        slot.takeFirewall.2 world :=
      ⟨by simpa using h.id_eq, by simpa using h.handle, by simp, h.world_eq⟩
    have hremoved : Ensures (World.replies .none) (fun _ => True)
        (if slot.takeFirewall.1.isSome then Firewall.removeChain slot.id else pure ())
        (fun _ _ after => hostNamespace ∈ after.namespaces) (fun _ _ _ => False) slot.takeFirewall.2 world := by
      rw [ensures_ite, h.id_eq]
      split
      · exact (unwall hrules _ _ hforgotten).mono (fun _ _ _ h => h.home.1) fun _ _ _ => False.elim
      · exact hforgotten.home.1
    rw [ensures_attempt]
    exact Ensures.mono hremoved (fun _ _ _ hmem => ⟨hmem, rfl⟩) fun _ _ _ => False.elim
  refine hvisit.mono (fun closed slot world hclosed => ?_) fun _ _ _ => False.elim
  rw [hclosed, ensures_bind, ensures_modify]
  rfl

/-- Without failures, everything that is left of a slot is removed if its firewall can be closed. -/
theorem Left.remove {id : SlotId} {egress : String} {base : World}
    (hhost : hostNamespace ∈ base.namespaces) :
    Flawless (World.replies .none) (fun slot world => Left id egress base (fun _ => True) [id.hostRoute]
        (id.hostRules egress) True True slot world ∧ Quiet slot world)
      (Slot.remove egress) (Left id egress base (·.state = .noNetwork) [] [] False False) := by
  refine .get fun seen => ?_
  rintro slot world ⟨rfl, h, hquiet⟩
  obtain rfl := h.onHost.1.id_eq
  have hconfined : Triple (World.replies .none) (Confined.Kept slot.id egress base)
      (Confined.OnHost slot.id egress base) Slot.closeFirewall
      (Assertion.bare (Confined.OnHost slot.id egress base))
      (Assertion.bare (Confined.OnHost slot.id egress base)) :=
    (Confined.frame .none slot.id egress base).toWall.closeFirewall
      (Confined.landing slot.id egress base Hazard.none_returns hhost)
  have hshrunk : Triple (World.replies .none) (World.Shrinks slot.id egress world)
      (Shrunk slot.id egress world) Slot.closeFirewall (Assertion.bare (Shrunk slot.id egress world))
      (Assertion.bare (Shrunk slot.id egress world)) :=
    have hwall := Shrunk.wall .none slot.id egress world
    hwall.closeFirewall hwall.around
  have hinside := ((hconfined slot world h.onHost).and (hshrunk slot world ⟨rfl, .refl _⟩)).and hquiet
  have houtside : AllFlawless (World.replies .none)
      (Left slot.id egress base (·.hasFirewall = false) [slot.id.hostRoute]
        (slot.id.hostRules egress ++ []) True True)
      ((slot.id.hostRules egress).map (fun rule =>
          Slot.deletion "deleting host forwarding rule" (Sequence.perform (.deleteRule rule)))
        ++ [Slot.deletion "deleting host route" (Sequence.perform (.deleteRoute slot.id.hostRoute)),
          Slot.deletion "deleting veth" (Sequence.perform (.deleteLink slot.id.vethName))])
      (Left slot.id egress base (·.hasFirewall = false) [] [] False True) :=
    unruleAll (fun _ hrule => hrule) (.cons unroute (.cons unplug .nil))
  have hlast : AllFlawless (World.replies .none)
      (Left slot.id egress base (·.state = .noNetwork) [] [] False True)
      [Slot.deletion "deleting namespace" (Sequence.perform (.deleteNamespace slot.id.namespaceName))]
      (Left slot.id egress base (·.state = .noNetwork) [] [] False False) :=
    .cons (erase fun slot hstate => by simp [Slot.hasFirewall, Slot.firewall, hstate]) .nil
  rw [List.append_nil] at houtside
  rw [ensures_bind]
  refine (hinside.mono_inv fun _ _ => trivial).mono (fun failures after world hclosed => ?_)
    fun _ _ _ hfailed => hfailed.2.elim
  obtain ⟨⟨hbare, hless⟩, rfl⟩ := hclosed
  rw [ensures_bind]
  refine (houtside after world ⟨hbare.2, hbare.1, h.remnant.shrink hless.1.2⟩).mono
    (fun failures after world hleft => ?_) fun _ _ _ => False.elim
  obtain ⟨rfl, hleft⟩ := hleft
  rw [ensures_bind, ensures_modify, ensures_bind]
  have hcleared : Left slot.id egress base (·.state = .noNetwork) [] [] False True
      after.clearNetwork.2 world :=
    ⟨rfl, (clearing .none slot.id egress base).forgets hleft.onHost, hleft.remnant⟩
  refine (hlast _ world hcleared).mono (fun failures after world hleft => ?_) fun _ _ _ => False.elim
  obtain ⟨rfl, hleft⟩ := hleft
  exact hleft

end SlotPool
