import SlotPool.Proofs.World.Connected
import SlotPool.Proofs.World.Stage
/-!
Making the network of a slot, exactly. What has been made after each call is known, so a network that
could be made is complete, and one that could not has left no more than a part of the host's rules.
-/

namespace SlotPool

open Sequence

/-- Some call may fail. -/
def Hazard.Strikes (hazard : Hazard) : Prop :=
  ∃ call guards failure, hazard call guards failure

theorem Hazard.none_strikes (h : Hazard.none.Strikes) : False := by
  obtain ⟨_, _, _, hstruck⟩ := h
  exact hstruck

/-- The namespace of a slot when its network is complete. -/
def SlotId.furnished (id : SlotId) (policy : Internet) : Namespace where
  links := (((Namespace.bare.put id.vpeerName ⟨true, [id.vpeerCidr]⟩).put id.tapName
    ⟨true, [id.tapCidr]⟩).put loopback ⟨true, []⟩).links
  routes := [id.defaultRoute]
  rules := id.natRules ++ id.hookRule :: policy.rules
  chains := [(.filter, egressChain)]

/-- The host with what a slot needs there. -/
def Namespace.reaching (host : Namespace) (id : SlotId) (egress : String) : Namespace where
  links := (host.put id.vethName ⟨true, [id.vethCidr]⟩).links
  routes := host.routes ++ [id.hostRoute]
  rules := host.rules ++ id.hostRules egress
  chains := host.chains

/-- What an attempt at the network of a slot has made of the host by some time: a part of what belongs
    there. -/
structure Namespace.Attempted (found host : Namespace) (id : SlotId) (egress : String) : Prop where
  routes : found.routes = host.routes ∨ found.routes = host.routes ++ [id.hostRoute]
  rules : ∃ count, found.rules = host.rules ++ (id.hostRules egress).take count

section

variable {base : World} {id : SlotId} {egress current : String} {host inner : Namespace}
  {peers : Named String} {hazard : Hazard} {struck : Prop} {opened : Option Handle} {firewall : Option Internet}

theorem Namespace.attempted_put {name : String} {link : Link} :
    (host.put name link).Attempted host id egress :=
  ⟨.inl rfl, 0, by simp [Namespace.put]⟩

theorem Namespace.attempted_refl : host.Attempted host id egress := ⟨.inl rfl, 0, by simp⟩

theorem Namespace.attempted_reaching : (host.reaching id egress).Attempted host id egress :=
  ⟨.inr rfl, (id.hostRules egress).length, by rw [List.take_length]; rfl⟩

/-- The handle of a slot whose network was made by this process. -/
abbrev SlotId.handle (id : SlotId) : Handle := ⟨id.namespaceName, true⟩

/-- What is made is known, and so is what the slot remembers. -/
structure Staged (base : World) (id : SlotId) (opened : Option Handle) (firewall : Option Internet)
    (current : String) (host inner : Namespace) (peers : Named String) (slot : Slot) (world : World) : Prop where
  id_eq : slot.id = id
  handle : slot.handle = opened
  firewall : slot.firewall = firewall
  world_eq : world = base.stage id current host inner peers

/-- On the host is what an attempt has made of it. -/
def Attempt (id : SlotId) (egress : String) (host : Namespace) (world : World) : Prop :=
  ∃ found, world.namespaces[hostNamespace]? = some found ∧ found.Attempted host id egress

/-- An attempt has failed. `struck` is what it takes for that. -/
def Failed (struck : Prop) (id : SlotId) (egress : String) (host : Namespace) (_ : Slot)
    (world : World) : Prop :=
  struck ∧ Attempt id egress host world

namespace Staged

variable {found : Namespace}

theorem attempt {slot : Slot} {world : World} (hfound : found.Attempted host id egress)
    (h : Staged base id opened firewall current found inner peers slot world) : Attempt id egress host world :=
  ⟨found, h.world_eq ▸ World.stage_host, hfound⟩

theorem failed {slot : Slot} {world : World} (hfound : found.Attempted host id egress)
    (h : Staged base id opened firewall current found inner peers slot world) (hstruck : struck) :
    Failed struck id egress host slot world :=
  ⟨hstruck, h.attempt hfound⟩

variable (hstruck : hazard.Strikes → struck) (hfound : found.Attempted host id egress)
include hstruck hfound

/-- A call that the machine answers as it should leads from one known state to the next. If it was made to fail,
    nothing has changed. -/
theorem call {c : Call} {value : c.Reply} {current' : String} {host' inner' : Namespace}
    {peers' : Named String} (hanswer : (base.stage id current found inner peers).answer c =
      (.ok value, base.stage id current' host' inner' peers')) :
    Triple (World.replies hazard) (Attempt id egress host)
      (Staged base id opened firewall current found inner peers) (Sequence.perform c)
      (Staged base id opened firewall current' host' inner' peers') (Failed struck id egress host) := by
  intro slot world h
  refine ⟨h.attempt hfound, fun result world' hreply => ?_⟩
  rcases hreply with hanswered | ⟨failure, hhazard, rfl, rfl⟩
  · rw [h.world_eq, hanswer] at hanswered
    obtain ⟨rfl, rfl⟩ := Prod.mk.inj hanswered
    exact ⟨h.id_eq, h.handle, h.firewall, rfl⟩
  · exact h.failed hfound (hstruck ⟨_, _, _, hhazard⟩)

/-- A call for something that is absent fails, and nothing changes. It does not have to be made to fail for
    this. -/
theorem call_absent {c : Call} {what : String} {slot : Slot} {world : World}
    (hanswer : (base.stage id current found inner peers).answer c =
      (.error (.notFound what), base.stage id current found inner peers))
    (h : Staged base id opened firewall current found inner peers slot world) :
    Ensures (World.replies hazard) (Attempt id egress host) (Sequence.perform c)
      (fun _ => Staged base id opened firewall current found inner peers)
      (fun failure slot world => Staged base id opened firewall current found inner peers slot world ∧
        (failure.isNotFound = true ∨ Failed struck id egress host slot world)) slot world := by
  rw [ensures_perform]
  refine ⟨h.attempt hfound, fun result world' hreply => ?_⟩
  rcases hreply with hanswered | ⟨failure, hhazard, rfl, rfl⟩
  · rw [h.world_eq, hanswer] at hanswered
    obtain ⟨rfl, rfl⟩ := Prod.mk.inj hanswered
    exact ⟨⟨h.id_eq, h.handle, h.firewall, rfl⟩, .inl rfl⟩
  · exact ⟨h, .inr (h.failed hfound (hstruck ⟨_, _, _, hhazard⟩))⟩

end Staged

/-- The slot's namespace with its cable, and before it is furnished. -/
def SlotId.cabled (id : SlotId) : Namespace := Namespace.bare.put id.vpeerName ⟨true, [id.vpeerCidr]⟩

/-- When the outer end of a new cable leaves the slot's namespace, the inner end with its address is all that is
    in it. -/
theorem SlotId.dropLink_cabled (id : SlotId) (link : Link) :
    ((Namespace.bare.put id.vethName link).put id.vpeerName ⟨true, [id.vpeerCidr]⟩).dropLink
      id.vethName = id.cabled := by
  rw [Namespace.put_comm (by simp)]
  refine Namespace.dropLink_put ?_
  rw [Namespace.put_links_other (by simp)]
  exact Namespace.bare_links (by simp)

variable (hstruck : hazard.Strikes → struck) {origin : Handle}
  (horigin : origin.label = hostNamespace)

namespace Staged

include hstruck

include horigin in
/-- Laying the cable inside the namespace and moving its outer end to where the thread came from. The slot's
    namespace has then the inner end and the host the outer one. -/
theorem layCable :
    Triple (World.replies hazard) (Attempt id egress host)
      (Staged base id opened firewall id.namespaceName host .bare peers) (Slot.layCable id origin)
      (Staged base id opened firewall id.namespaceName (host.put id.vethName .plain) id.cabled
        (World.withCable peers id)) (Failed struck id egress host) := by
  have hattempt : host.Attempted host id egress := Namespace.attempted_refl
  have hveth : Namespace.bare.links[id.vethName]? = none := Namespace.bare_links (by simp)
  have hvpeer : Namespace.bare.links[id.vpeerName]? = none := Namespace.bare_links (by simp)
  unfold Slot.layCable
  refine .bind (.step (call hstruck hattempt (World.stage_layCable hveth hvpeer))) fun _ => ?_
  refine .bind (.step (call hstruck hattempt (World.stage_edit_inner Namespace.setLinkUp_put)))
    fun _ => ?_
  refine .bind (.step (call hstruck hattempt (World.stage_edit_inner Namespace.addAddress_put)))
    fun _ => .step ?_
  have hpresent (link : Link) : ((Namespace.bare.put id.vethName .plain).put id.vpeerName link).links[
      id.vethName]? = some .plain := by
    rw [Namespace.put_links_other (by simp), Namespace.put_links_self]
  rw [← SlotId.dropLink_cabled id .plain]
  exact call hstruck hattempt (World.stage_moveLink horigin (hpresent _))

include horigin in
/-- The outer end gets its address and is set up on the host, where the guard has taken the thread for it. -/
theorem readyHostEnd :
    Triple (World.replies hazard) (Attempt id egress host)
      (Staged base id opened firewall current (host.put id.vethName .plain) inner peers)
      (Slot.readyHostEnd id origin)
      (Staged base id opened firewall hostNamespace (host.put id.vethName ⟨true, [id.vethCidr]⟩) inner peers)
      (Failed struck id egress host) := by
  unfold Slot.readyHostEnd
  refine .bind (.step (call hstruck Namespace.attempted_put (World.stage_enter_host horigin)))
    fun _ => ?_
  refine .bind (.step (call hstruck Namespace.attempted_put
    (World.stage_edit_host Namespace.setLinkUp_put))) fun _ => ?_
  exact .step (call hstruck Namespace.attempted_put (World.stage_edit_host Namespace.addAddress_put))

/-- Back inside, through the handle that was remembered when the namespace was made. -/
theorem reenter {link : Link} :
    Triple (World.replies hazard) (Attempt id egress host)
      (Staged base id (some id.handle) firewall current (host.put id.vethName link) inner peers) Slot.reenter
      (Staged base id (some id.handle) firewall id.namespaceName (host.put id.vethName link) inner peers)
      (Failed struck id egress host) := by
  have henter : Triple (World.replies hazard) (Attempt id egress host)
      (Staged base id (some id.handle) firewall current (host.put id.vethName link) inner peers)
      (perform (.enterNamespace id.handle))
      (Staged base id (some id.handle) firewall id.namespaceName (host.put id.vethName link) inner peers)
      (Failed struck id egress host) :=
    call hstruck Namespace.attempted_put (World.stage_enter_inner rfl)
  refine .get fun seen => ?_
  rintro slot world ⟨rfl, h⟩
  simp only [h.handle]
  exact Triple.step henter slot world h

/-- Rules are added in order, in a built-in chain, which is always there. -/
theorem appendAll {name : String} {found : Namespace} {rules : List Rule}
    (hfound : found.Attempted host id egress)
    (hchains : ∀ rule ∈ rules, (rule.table, rule.chain) ∈ builtinChains) :
    Triple (World.replies hazard) (Attempt id egress host)
      (Staged base id opened firewall id.namespaceName found inner peers)
      (rules.forM fun rule => step name (perform (.appendRule rule)))
      (Staged base id opened firewall id.namespaceName found { inner with rules := inner.rules ++ rules }
        peers) (Failed struck id egress host) := by
  induction rules generalizing inner with
  | nil =>
    rw [List.append_nil]
    exact fun slot world h => h
  | cons rule rules ih =>
    have hchain : inner.hasChain rule.table rule.chain = true := by
      simp [Namespace.hasChain, hchains rule (List.mem_cons_self ..)]
    have hfirst : World.appendRule rule inner = .ok { inner with rules := inner.rules ++ [rule] } := by
      rw [World.appendRule, if_pos hchain]
    have happend : Triple (World.replies hazard) (Attempt id egress host)
        (Staged base id opened firewall id.namespaceName found inner peers) (perform (.appendRule rule))
        (Staged base id opened firewall id.namespaceName found { inner with rules := inner.rules ++ [rule] }
          peers) (Failed struck id egress host) :=
      call hstruck hfound (World.stage_edit_inner hfirst)
    have hrest : Triple (World.replies hazard) (Attempt id egress host)
        (Staged base id opened firewall id.namespaceName found { inner with rules := inner.rules ++ [rule] }
          peers)
        (rules.forM fun rule => step name (perform (.appendRule rule)))
        (Staged base id opened firewall id.namespaceName found
          { inner with rules := inner.rules ++ [rule] ++ rules } peers) (Failed struck id egress host) :=
      ih fun other hmem => hchains other (List.mem_cons_of_mem _ hmem)
    rw [List.append_assoc, List.singleton_append] at hrest
    intro slot world h
    rw [ensures_forM_cons]
    exact (Triple.step happend slot world h).mono (fun _ slot world h => hrest slot world h)
      fun _ _ _ h => h

/-- Furnishing the namespace, without a firewall yet. -/
theorem furnish {found : Namespace} (hfound : found.Attempted host id egress) :
    Triple (World.replies hazard) (Attempt id egress host)
      (Staged base id opened firewall id.namespaceName found id.cabled peers) (Slot.furnish id)
      (Staged base id opened firewall id.namespaceName found
        { id.furnished .allowed with rules := id.natRules, chains := [] } peers)
      (Failed struck id egress host) := by
  have htap : id.cabled.links[id.tapName]? = none := by
    rw [SlotId.cabled, Namespace.put_links_other (by simp)]
    exact Namespace.bare_links (by simp)
  have hloopback (link : Link) : (id.cabled.put id.tapName link).links[loopback]? = some .plain := by
    rw [Namespace.put_links_other (by simp), SlotId.cabled, Namespace.put_links_other (by simp)]
    simp [Namespace.bare, loopback]
  unfold Slot.furnish
  refine .bind (.step (call hstruck hfound (World.stage_edit_inner (Namespace.addTap_put htap))))
    fun _ => ?_
  refine .bind (.step (call hstruck hfound (World.stage_edit_inner Namespace.setLinkUp_put))) fun _ => ?_
  refine .bind (.step (call hstruck hfound (World.stage_edit_inner Namespace.addAddress_put))) fun _ => ?_
  refine .bind (.step (call hstruck hfound (World.stage_edit_inner
    (Namespace.setLinkUp_of (hloopback _))))) fun _ => ?_
  have hroute (ns : Namespace) (hroutes : ns.routes = []) :
      World.addRoute id.defaultRoute ns = .ok { ns with routes := [id.defaultRoute] } := by
    simp [World.addRoute, hroutes]
  refine .bind (.step (call hstruck hfound (World.stage_edit_inner (hroute _ rfl)))) fun _ => ?_
  have hchains : ∀ rule ∈ id.natRules, (rule.table, rule.chain) ∈ builtinChains := by
    simp [SlotId.natRules, builtinChains]
  exact appendAll hstruck hfound hchains

/-- In a new namespace there is nothing to take away before the firewall is set up. The calls are made all the
    same, and find nothing. -/
theorem removeChain {found : Namespace} (hfound : found.Attempted host id egress)
    (hrules : inner.rules = id.natRules) (hchains : inner.chains = []) :
    Triple (World.replies hazard) (Attempt id egress host)
      (Staged base id opened firewall id.namespaceName found inner peers) (Firewall.removeChain id)
      (Staged base id opened firewall id.namespaceName found inner peers)
      (Failed struck id egress host) := by
  have hunhook : World.deleteRule id.hookRule inner = .error (.notFound id.hookRule.toText) := by
    have habsent : id.hookRule ∉ inner.rules := by
      simp [hrules, SlotId.natRules, SlotId.hookRule]
    rw [World.deleteRule, if_neg habsent]
  have hflush : World.flushChain .filter egressChain inner = .error (.notFound egressChain) := by
    have habsent : ¬ inner.hasChain .filter egressChain = true := by
      rw [Namespace.hasChain, hchains]
      decide
    rw [World.flushChain, if_neg habsent]
  have hunchain : World.deleteChain .filter egressChain inner = .error (.notFound egressChain) := by
    rw [World.deleteChain, if_pos (by simp [hchains])]
  unfold Firewall.removeChain
  refine .bind (.step (.tolerate fun _ _ h => ?_)) fun _ =>
    .bind (.step (.tolerate fun _ _ h => ?_)) fun _ => .step (.tolerate fun _ _ h => ?_)
  · exact call_absent hstruck hfound (World.stage_edit_fails hunhook) h
  · exact call_absent hstruck hfound (World.stage_edit_fails hflush) h
  · exact call_absent hstruck hfound (World.stage_edit_fails hunchain) h

/-- Setting up the firewall in a namespace that has never had one: afterwards there is the chain, empty, and the
    hook that leads to it. -/
theorem setUp {found : Namespace} (hfound : found.Attempted host id egress)
    (hrules : inner.rules = id.natRules) (hchains : inner.chains = []) :
    Triple (World.replies hazard) (Attempt id egress host)
      (Staged base id opened none id.namespaceName found inner peers) Firewall.setUp
      (Staged base id opened (some .allowed) id.namespaceName found
        { inner with
          rules := id.natRules ++ [id.hookRule]
          chains := [(.filter, egressChain)] } peers)
      (Failed struck id egress host) := by
  have hchain : World.newChain .filter egressChain inner =
      .ok { inner with chains := [(.filter, egressChain)] } := by
    have habsent : ¬ inner.hasChain .filter egressChain = true := by
      rw [Namespace.hasChain, hchains]
      decide
    rw [World.newChain, if_neg habsent, hchains]
    rfl
  have hhook : World.appendRule id.hookRule { inner with chains := [(.filter, egressChain)] } =
      .ok { inner with rules := id.natRules ++ [id.hookRule], chains := [(.filter, egressChain)] } := by
    have hbuiltin : Namespace.hasChain { inner with chains := [(.filter, egressChain)] }
        id.hookRule.table id.hookRule.chain = true := by
      simp [Namespace.hasChain, SlotId.hookRule, builtinChains]
    rw [World.appendRule, if_pos hbuiltin, hrules]
  have hinstall : Triple (ε := NetworkError) (World.replies hazard) (Attempt id egress host)
      (Staged base id opened none id.namespaceName found
        { inner with rules := id.natRules ++ [id.hookRule], chains := [(.filter, egressChain)] } peers)
      (modify fun slot => (slot.installFirewall .allowed).2)
      (Staged base id opened (some .allowed) id.namespaceName found
        { inner with rules := id.natRules ++ [id.hookRule], chains := [(.filter, egressChain)] } peers)
      (Failed struck id egress host) :=
    .modify fun slot world h => ⟨by simpa using h.id_eq, by simpa using h.handle,
      Slot.installFirewall_firewall h.firewall, h.world_eq⟩
  refine .get fun seen => .ite (fun _ => ?_) fun hhas => ?_
  · rintro slot world ⟨rfl, h⟩
    rw [h.id_eq]
    refine Triple.bind (removeChain hstruck hfound hrules hchains) (fun _ => ?_) slot world h
    refine .bind (.step (call hstruck hfound (World.stage_edit_inner hchain))) fun _ => ?_
    exact .bind (.step (call hstruck hfound (World.stage_edit_inner hhook))) fun _ => hinstall
  · rintro slot world ⟨rfl, h⟩
    simp [Slot.hasFirewall, h.firewall] at hhas

/-- The host's rules are added one by one, after those that are there. Wherever this stops, the host has the
    first few of them. -/
theorem appendHostRules {name : String} {found : Namespace} {done rules : List Rule}
    (hdone : done ++ rules = id.hostRules egress)
    (hroutes : found.routes = host.routes ++ [id.hostRoute]) (hrules : found.rules = host.rules ++ done) :
    Triple (World.replies hazard) (Attempt id egress host)
      (Staged base id opened firewall hostNamespace found inner peers)
      (rules.forM fun rule => step name (perform (.appendRule rule)))
      (Staged base id opened firewall hostNamespace { found with rules := host.rules ++ id.hostRules egress }
        inner peers) (Failed struck id egress host) := by
  have hfound : found.Attempted host id egress :=
    ⟨.inr hroutes, done.length, by rw [← hdone, List.take_left, hrules]⟩
  induction rules generalizing done found with
  | nil =>
    rw [List.append_nil] at hdone
    rw [← hdone, ← hrules]
    exact fun slot world h => h
  | cons rule rules ih =>
    have hbuiltin : (rule.table, rule.chain) ∈ builtinChains := by
      have hmem : rule ∈ id.hostRules egress := by simp [← hdone]
      simp only [SlotId.hostRules, List.mem_cons, List.not_mem_nil, or_false] at hmem
      rcases hmem with rfl | rfl | rfl <;> simp [builtinChains]
    have hfirst : World.appendRule rule found = .ok { found with rules := found.rules ++ [rule] } := by
      rw [World.appendRule, if_pos (by simp [Namespace.hasChain, hbuiltin])]
    have happend : Triple (World.replies hazard) (Attempt id egress host)
        (Staged base id opened firewall hostNamespace found inner peers) (perform (.appendRule rule))
        (Staged base id opened firewall hostNamespace { found with rules := found.rules ++ [rule] } inner peers)
        (Failed struck id egress host) :=
      call hstruck hfound (World.stage_edit_host hfirst)
    have hnext : done ++ [rule] ++ rules = id.hostRules egress := by
      rw [List.append_assoc, List.singleton_append, hdone]
    have hadded : found.rules ++ [rule] = host.rules ++ (done ++ [rule]) := by
      rw [hrules, List.append_assoc]
    have hrest : Triple (World.replies hazard) (Attempt id egress host)
        (Staged base id opened firewall hostNamespace { found with rules := found.rules ++ [rule] } inner peers)
        (rules.forM fun rule => step name (perform (.appendRule rule)))
        (Staged base id opened firewall hostNamespace { found with rules := host.rules ++ id.hostRules egress }
          inner peers) (Failed struck id egress host) :=
      ih hnext hroutes hadded ⟨.inr hroutes, (done ++ [rule]).length, by
        rw [← hnext, List.take_left, hadded]⟩
    intro slot world h
    rw [ensures_forM_cons]
    exact (Triple.step happend slot world h).mono (fun _ slot world h => hrest slot world h)
      fun _ _ _ h => h

include horigin in
/-- The route and the rules on the host are what comes last. They are added one by one, so an attempt that fails
    here leaves the first few of them. -/
theorem connectHost (hroute : id.hostRoute ∈ host.routes → struck) :
    Triple (World.replies hazard) (Attempt id egress host)
      (Staged base id opened firewall current (host.put id.vethName ⟨true, [id.vethCidr]⟩) inner peers)
      (Slot.connectHost id egress origin)
      (Staged base id opened firewall hostNamespace (host.reaching id egress) inner peers)
      (Failed struck id egress host) := by
  let readied := host.put id.vethName ⟨true, [id.vethCidr]⟩
  have hattempt : readied.Attempted host id egress := Namespace.attempted_put
  have hadd : Triple (World.replies hazard) (Attempt id egress host)
      (Staged base id opened firewall hostNamespace readied inner peers) (perform (.addRoute id.hostRoute))
      (Staged base id opened firewall hostNamespace
        { readied with routes := host.routes ++ [id.hostRoute] } inner peers)
      (Failed struck id egress host) := by
    by_cases hpresent : id.hostRoute ∈ host.routes
    · intro slot world h
      rw [ensures_perform]
      refine ⟨h.attempt hattempt, fun result world' hreply => ?_⟩
      cases result with
      | ok value =>
        have hedit : world.edit (World.addRoute id.hostRoute) = (.ok (), world') :=
          World.replies_ok hreply
        obtain ⟨ns, ns', hns, hchange, -⟩ := World.edit_ok hedit
        rw [h.world_eq] at hns
        obtain rfl : readied = ns := Option.some.inj (World.stage_host.symm.trans hns)
        exact ((World.addRoute_ok hchange).1 hpresent).elim
      | error failure =>
        rw [World.replies_error hreply]
        exact h.failed hattempt (hroute hpresent)
    · have hroute : World.addRoute id.hostRoute readied =
          .ok { readied with routes := host.routes ++ [id.hostRoute] } := by
        have habsent : id.hostRoute ∉ readied.routes := hpresent
        rw [World.addRoute, if_neg habsent]
        rfl
      exact call hstruck hattempt (World.stage_edit_host hroute)
  have hrules : readied.rules = host.rules ++ [] := (List.append_nil _).symm
  unfold Slot.connectHost
  refine .bind (.step (call hstruck hattempt (World.stage_enter_host horigin))) fun _ => ?_
  exact .bind (.step hadd) fun _ => appendHostRules hstruck (List.nil_append _) rfl hrules

include horigin in
/-- The part of making a network that runs under its guard: what is known is carried from call to call, on the
    stage of the slot, until the network is complete. -/
theorem build (hhost : base.namespaces[hostNamespace]? = some host)
    (habsent : id.namespaceName ∉ base.namespaces) (hroute : id.hostRoute ∈ host.routes → struck) :
    Triple (World.replies hazard) (Attempt id egress host) (fun slot world => slot.id = id ∧ world = base)
      (do
        let handle ← step "creating namespace" (perform (.createNamespace id.namespaceName))
        modify fun slot => slot.attachNamespace handle
        Slot.layCable id origin
        Slot.readyHostEnd id origin
        Slot.reenter
        Slot.furnish id
        step "initializing firewall" Firewall.setUp
        Slot.connectHost id egress origin)
      (Staged base id (some id.handle) (some .allowed) hostNamespace (host.reaching id egress) (id.furnished .allowed)
        (World.withCable base.peers id)) (Failed struck id egress host) := by
  have hrest : Triple (World.replies hazard) (Attempt id egress host)
      (Staged base id (some id.handle) none id.namespaceName host .bare base.peers)
      (do
        Slot.layCable id origin
        Slot.readyHostEnd id origin
        Slot.reenter
        Slot.furnish id
        step "initializing firewall" Firewall.setUp
        Slot.connectHost id egress origin)
      (Staged base id (some id.handle) (some .allowed) hostNamespace (host.reaching id egress) (id.furnished .allowed)
        (World.withCable base.peers id)) (Failed struck id egress host) := by
    refine .bind (layCable hstruck horigin) fun _ => .bind (readyHostEnd hstruck horigin) fun _ => ?_
    refine .bind (reenter hstruck) fun _ => .bind (furnish hstruck Namespace.attempted_put) fun _ => ?_
    exact .bind (.step (setUp hstruck Namespace.attempted_put rfl rfl)) fun _ =>
      connectHost hstruck horigin hroute
  rintro slot world ⟨hid, hworld⟩
  rw [ensures_bind, ensures_step, ensures_perform]
  refine ⟨⟨host, hworld ▸ hhost, Namespace.attempted_refl⟩, fun result world' hreply => ?_⟩
  rcases hreply with hanswered | ⟨failure, hhazard, rfl, rfl⟩
  · have hmade := World.createNamed_stage hhost habsent
    rw [hworld] at hanswered
    obtain ⟨rfl, rfl⟩ := Prod.mk.inj (hmade.symm.trans hanswered)
    rw [byResult_ok, ensures_bind, ensures_modify]
    exact hrest _ _ ⟨hid, rfl, rfl, rfl⟩
  · rw [hworld]
    exact ⟨hstruck ⟨_, _, _, hhazard⟩, host, hhost, Namespace.attempted_refl⟩

include horigin in
omit hstruck in
/-- Whether an attempt ends well or not, the return to the host changes nothing of what was made. -/
theorem guarded {p : Assertion World} {steps : Sequence Unit} {found : Namespace}
    (hfound : found.Attempted host id egress)
    (hsteps : Triple (World.replies (hazard.under origin)) (Attempt id egress host) p steps
      (Staged base id opened firewall hostNamespace found inner peers) (Failed struck id egress host)) :
    Triple (World.replies hazard) (Attempt id egress host) p (Sequence.guarded origin steps)
      (Staged base id opened firewall hostNamespace found inner peers) (Failed struck id egress host) := by
  refine Triple.guarded hsteps (fun _ _ h => h.elim (·.attempt hfound) (·.2))
    (fun slot world result world' h hreply => ?_)
    fun slot world result world' h hreply => ?_
  · refine World.replies_keeps hreply h fun value hanswer => ?_
    have henter : world.enter origin = (.ok (), world') := hanswer
    rw [h.world_eq, World.stage_enter_host horigin] at henter
    exact ⟨h.id_eq, h.handle, h.firewall, (Prod.mk.inj henter).2.symm⟩
  · refine World.replies_keeps hreply h fun value hanswer => ?_
    obtain ⟨-, rfl⟩ := World.enter_ok hanswer
    exact h

/-- Making a network on the host, exactly: when it succeeds, the machine is known in full, and when it fails,
    the host has no more than a part of what belongs there. A route that is there already makes the attempt
    fail, which must be allowed for by `struck`. -/
theorem create (hcurrent : base.current = hostNamespace)
    (hhost : base.namespaces[hostNamespace]? = some host)
    (habsent : id.namespaceName ∉ base.namespaces) (hroute : id.hostRoute ∈ host.routes → struck) :
    Triple (World.replies hazard) (Attempt id egress host) (fun slot world => slot.id = id ∧ world = base)
      (Slot.create egress)
      (Staged base id (some id.handle) (some .allowed) hostNamespace (host.reaching id egress) (id.furnished .allowed)
        (World.withCable base.peers id)) (Failed struck id egress host) := by
  have hunder (origin : Handle) (hstrikes : (hazard.under origin).Strikes) : struck := by
    obtain ⟨call, guards, failure, hhazard⟩ := hstrikes
    exact hstruck ⟨call, guards ++ [origin], failure, hhazard⟩
  rintro slot world ⟨hid, rfl⟩
  unfold Slot.create Sequence.underGuard
  rw [ensures_bind, ensures_step, ensures_perform]
  refine ⟨⟨host, hhost, Namespace.attempted_refl⟩, fun result world' hreply => ?_⟩
  cases result with
  | error failure =>
    rcases hreply with hanswered | ⟨failure, hhazard, -, rfl⟩
    · cases hanswered
    · exact ⟨hstruck ⟨_, _, _, hhazard⟩, host, hhost, Namespace.attempted_refl⟩
  | ok origin =>
    have hanswer := World.replies_ok hreply
    obtain ⟨rfl, rfl⟩ := by simpa [World.answer] using hanswer
    refine guarded (p := fun slot after => slot.id = id ∧ after = world) hcurrent
      Namespace.attempted_reaching (.get fun seen => ?_) slot world ⟨hid, rfl⟩
    rintro slot after ⟨rfl, hid', hafter⟩
    rw [hid']
    exact build (hunder _) hcurrent hhost habsent hroute slot after ⟨hid', hafter⟩

end Staged
end

/-- A network that could be made is complete, so the slot is connected. -/
theorem Staged.connected {base : World} {id : SlotId} {egress current : String} {host : Namespace}
    {peers : Named String} {opened : Option Handle} {firewall : Option Internet} {slot : Slot} {world : World}
    (h : Staged base id opened firewall current (host.reaching id egress) (id.furnished .allowed) peers slot
      world) : world.Connected id egress := by
  rw [h.world_eq]
  refine ⟨⟨_, World.stage_inner, ?_⟩, _, World.stage_host, ?_⟩
  · refine ⟨⟨⟨true, []⟩, Namespace.put_links_self, rfl⟩, ?_, ?_, List.mem_singleton_self _,
      fun rule hrule => List.mem_append_left _ hrule⟩
    · refine (Namespace.put_links_other (by simp)).trans ?_
      exact (Namespace.put_links_other (by simp)).trans Namespace.put_links_self
    · exact (Namespace.put_links_other (by simp)).trans Namespace.put_links_self
  · exact ⟨Namespace.put_links_self, by simp [Namespace.reaching],
      fun rule hrule => List.mem_append_right _ hrule⟩

end SlotPool
