import SlotPool.Proofs.Slot.Operation
import SlotPool.Proofs.Slot.Staged
import SlotPool.Proofs.World.Shrinks
/-!
Clearing up after a process that is gone. Wherever it stopped while it made a network or took it away,
nothing is left that names do not lead to. So clearing up takes the machine back to what it was before the
network was made.
-/

namespace SlotPool

open Sequence

namespace World

variable {world after base : World} {id : SlotId} {egress : String}

/-- What may be left of a slot on the host: these routes and rules, and the outer end of its cable and its
    namespace only under these conditions. -/
structure Remnant (world : World) (id : SlotId) (egress : String) (routes : List Route)
    (rules : List Rule) (plugged named : Prop) : Prop where
  plugged : world.HasLink hostNamespace id.vethName → plugged
  named : id.namespaceName ∈ world.namespaces → named
  routes : ∀ ns, world.namespaces[hostNamespace]? = some ns → (ns.only id egress).routes.Subperm routes
  rules : ∀ ns, world.namespaces[hostNamespace]? = some ns → (ns.only id egress).rules.Subperm rules

variable {routes : List Route} {rules : List Rule} {rule : Rule} {plugged named : Prop}

/-- Where less is left of a slot, what is left can still be bounded by the same remnant. -/
theorem Remnant.shrink (h : world.Remnant id egress routes rules plugged named)
    (hless : Shrinks id egress world after) : after.Remnant id egress routes rules plugged named where
  plugged hlink := h.plugged (hless.links _ _ hlink)
  named hname := h.named (hless.namespaces _ hname)
  routes ns' hns' := by
    obtain ⟨ns, hns, hroutes, -⟩ := hless.host ns' hns'
    exact hroutes.subperm.trans (h.routes ns hns)
  rules ns' hns' := by
    obtain ⟨ns, hns, -, hrules⟩ := hless.host ns' hns'
    exact hrules.subperm.trans (h.rules ns hns)

/-- What an attempt at a network may leave: a part of what belongs to the slot, and each piece at most once,
    since the host had none of it before. -/
theorem Remnant.of_attempt {host : Namespace} (hattempt : Attempt id egress host world)
    (hroute : id.hostRoute ∉ host.routes) (hrules : ∀ rule ∈ id.hostRules egress, rule ∉ host.rules) :
    world.Remnant id egress [id.hostRoute] (id.hostRules egress) True True := by
  obtain ⟨found, hfound, hparts⟩ := hattempt
  have hnoRoute : host.routes.filter (· = id.hostRoute) = [] :=
    List.filter_eq_nil_iff.mpr fun route hmem heq => hroute (of_decide_eq_true heq ▸ hmem)
  have hnoRule : host.rules.filter (· ∈ id.hostRules egress) = [] :=
    List.filter_eq_nil_iff.mpr fun rule hmem hown => hrules rule (of_decide_eq_true hown) hmem
  refine ⟨fun _ => trivial, fun _ => trivial, fun ns hns => ?_, fun ns hns => ?_⟩
  · obtain rfl := Option.some.inj (hfound.symm.trans hns)
    rcases hparts.routes with hroutes | hroutes
    · simp [Namespace.only, hroutes, hnoRoute]
    · simp [Namespace.only, hroutes, hnoRoute, List.filter_append]
  · obtain rfl := Option.some.inj (hfound.symm.trans hns)
    obtain ⟨count, hcount⟩ := hparts.rules
    rw [Namespace.only, hcount, List.filter_append, hnoRule, List.nil_append]
    exact (List.filter_sublist.trans (List.take_sublist ..)).subperm

/-- What nothing more is left of is clear again. The devices have to be in order for this, so that no end of the
    cable is anywhere else. -/
theorem Remnant.clear (h : world.Remnant id egress [] [] False False) (htidy : world.Tidy id)
    (hbase : base.Clear id egress) (hsame : world.without id egress = base.without id egress) :
    world.Clear id egress := by
  have hinside (link : String) : ¬ world.HasLink id.namespaceName link := by
    rintro ⟨ns, hns, -⟩
    exact h.named (Std.ExtTreeMap.mem_iff_isSome_getElem?.mpr (by simp [hns]))
  have hnoVeth (name : String) : ¬ world.HasLink name id.vethName := by
    intro hlink
    rcases htidy.veth name hlink with rfl | rfl
    · exact h.plugged hlink
    · exact hinside _ hlink
  have hends : world.peers[id.vethName]? = none ∧ world.peers[id.vpeerName]? = none := by
    rcases htidy.ends with hends | hends
    · exact hends
    · exact (htidy.anchored hends.1).elim (hnoVeth _ ·) (hnoVeth _ ·) |>.elim
  refine ⟨h.named, ?_, ?_, fun ns hns => ⟨fun hmem => ?_, fun rule hrule hmem => ?_⟩⟩
  · rintro name link (rfl | rfl | rfl) hlink
    · exact hnoVeth name hlink
    · exact hinside _ (htidy.vpeer name hlink ▸ hlink)
    · by_cases hname : name = id.namespaceName
      · exact hinside _ (hname ▸ hlink)
      · exact hbase.links name _ (.inr (.inr rfl))
          ((hasLink_of_without hsame hname (by simp) (by simp)).mp hlink)
  · rintro link (rfl | rfl | rfl)
    · exact hends.1
    · exact hends.2
    · exact htidy.loose.2
  · have hnone := List.filter_eq_nil_iff.mp (List.subperm_nil.mp (h.routes ns hns))
    exact hnone _ hmem (by simp)
  · have hnone := List.filter_eq_nil_iff.mp (List.subperm_nil.mp (h.rules ns hns))
    exact hnone rule hmem (by simpa using hrule)

/-- What a deletion on the host leaves. It fails only for what is absent, and then the bound holds with less as
    well. -/
theorem Remnant.edit {change : Namespace → Except NetworkError Namespace} {routes' : List Route}
    {rules' : List Rule} {result : Except NetworkError Unit}
    (h : world.Remnant id egress routes rules plugged named) (hcurrent : world.current = hostNamespace)
    (hchange : ∀ ns, (ns.only id egress).routes.Subperm routes → (ns.only id egress).rules.Subperm rules →
      ∃ ns', ns'.links = ns.links ∧ (ns'.only id egress).routes.Subperm routes' ∧
        (ns'.only id egress).rules.Subperm rules' ∧
        (change ns = .ok ns' ∨ ns' = ns ∧ ∃ what, change ns = .error (.notFound what)))
    (hanswer : world.edit change = (result, after)) :
    after.Remnant id egress routes' rules' plugged named ∧
      ∀ failure, result = .error failure → failure.isNotFound = true := by
  cases hns : world.namespaces[hostNamespace]? with
  | none =>
    obtain ⟨rfl, rfl⟩ := Prod.mk.inj (by simpa only [World.edit, hcurrent, hns] using hanswer)
    exact ⟨⟨h.plugged, h.named, by simp [hns], by simp [hns]⟩, fun _ hresult => by cases hresult; rfl⟩
  | some ns =>
    obtain ⟨ns', hlinks, hroutes, hrules, hok | ⟨rfl, what, hfail⟩⟩ := hchange ns (h.routes ns hns) (h.rules ns hns)
    · obtain ⟨rfl, rfl⟩ := Prod.mk.inj (by simpa only [World.edit, hcurrent, hns, hok] using hanswer)
      refine ⟨⟨fun hlink => ?_, fun hname => ?_, ?_, ?_⟩, fun _ hresult => by cases hresult⟩
      · have hleft := hasLink_setNamespace.mp hlink
        rw [if_pos rfl, hlinks] at hleft
        exact h.plugged ⟨ns, hns, hleft⟩
      · have hmem : id.namespaceName ∈ world.namespaces := by
          simpa [setNamespace, Std.ExtTreeMap.mem_insert] using hname
        exact h.named hmem
      · simpa [setNamespace] using hroutes
      · simpa [setNamespace] using hrules
    · obtain ⟨rfl, rfl⟩ := Prod.mk.inj (by simpa only [World.edit, hcurrent, hns, hfail] using hanswer)
      refine ⟨⟨h.plugged, h.named, ?_, ?_⟩, fun _ hresult => by cases hresult; rfl⟩
      · simpa [hns] using hroutes
      · simpa [hns] using hrules

/-- A list from which an element is erased is part of what is left without it. -/
theorem erase_filter_subperm {α : Type} [DecidableEq α] {list rest : List α} {x : α} {own : α → Bool}
    (h : (list.filter own).Subperm (x :: rest)) : ((list.erase x).filter own).Subperm rest := by
  rw [← List.erase_filter]
  simpa using h.erase x

/-- Deleting a rule takes one copy of it away, if there is any. -/
theorem Remnant.unrule {result : Except NetworkError Unit}
    (h : world.Remnant id egress routes (rule :: rules) plugged named) (hcurrent : world.current = hostNamespace)
    (hanswer : world.edit (deleteRule rule) = (result, after)) :
    after.Remnant id egress routes rules plugged named ∧
      ∀ failure, result = .error failure → failure.isNotFound = true := by
  refine h.edit hcurrent (fun ns hroutes hrules => ?_) hanswer
  refine ⟨{ ns with rules := ns.rules.erase rule }, rfl, hroutes, erase_filter_subperm hrules, ?_⟩
  by_cases hmem : rule ∈ ns.rules
  · exact .inl (if_pos hmem)
  · refine .inr ⟨?_, rule.toText, if_neg hmem⟩
    rw [List.erase_of_not_mem hmem]

/-- A deletion of the route takes it out of what may be left. If it fails, it fails because the route is absent,
    and then the route was not left. -/
theorem Remnant.unroute {route : Route} {result : Except NetworkError Unit}
    (h : world.Remnant id egress (route :: routes) rules plugged named) (hcurrent : world.current = hostNamespace)
    (hanswer : world.edit (deleteRoute route) = (result, after)) :
    after.Remnant id egress routes rules plugged named ∧
      ∀ failure, result = .error failure → failure.isNotFound = true := by
  refine h.edit hcurrent (fun ns hroutes hrules => ?_) hanswer
  refine ⟨{ ns with routes := ns.routes.erase route }, rfl, erase_filter_subperm hroutes, hrules, ?_⟩
  by_cases hmem : route ∈ ns.routes
  · exact .inl (if_pos hmem)
  · refine .inr ⟨?_, route.toText, if_neg hmem⟩
    rw [List.erase_of_not_mem hmem]

/-- A cable that is unplugged from the host has no end there. If the deletion fails, there was none. -/
theorem Remnant.unplug {result : Except NetworkError Unit}
    (h : world.Remnant id egress routes rules plugged named) (hcurrent : world.current = hostNamespace)
    (hanswer : world.deleteLink id.vethName = (result, after)) :
    after.Remnant id egress routes rules False named ∧
      ∀ failure, result = .error failure → failure.isNotFound = true := by
  cases result with
  | ok value =>
    have hleft := h.shrink (shrinks_deleteLink hanswer)
    refine ⟨⟨?_, hleft.named, hleft.routes, hleft.rules⟩, nofun⟩
    obtain ⟨ns, hns, -, rfl⟩ := deleteLink_ok hanswer
    have hless {world : World} : Shrinks id egress world (world.dropPeer id.vethName) := shrinks_dropPeer
    intro hlink
    have hset := hasLink_setNamespace.mp (hless.links _ _ hlink)
    rw [if_pos hcurrent] at hset
    simp [Namespace.dropLink] at hset
  | error failure =>
    obtain ⟨hnotFound, habsent⟩ := deleteLink_error hanswer
    have hfailed : world.answer (.deleteLink id.vethName) = (.error failure, after) := hanswer
    obtain rfl := answer_error hfailed
    refine ⟨⟨?_, h.named, h.routes, h.rules⟩, fun _ hresult => Except.error.inj hresult ▸ hnotFound⟩
    rintro ⟨ns, hns, hmem⟩
    exact habsent ns (hcurrent ▸ hns) hmem

/-- A deletion of the namespace takes it out of what may be left, in the same way. What was inside goes with it.
    -/
theorem Remnant.erase {result : Except NetworkError Unit}
    (h : world.Remnant id egress routes rules plugged named)
    (hanswer : world.deleteNamed id.namespaceName = (result, after)) :
    after.Remnant id egress routes rules plugged False ∧
      ∀ failure, result = .error failure → failure.isNotFound = true := by
  cases result with
  | ok value =>
    have hleft := h.shrink (shrinks_deleteNamed hanswer)
    exact ⟨⟨hleft.plugged, fun hname => (((deleteNamed_places hanswer).2 _).mp hname).1 rfl, hleft.routes,
      hleft.rules⟩, nofun⟩
  | error failure =>
    obtain ⟨hnotFound, habsent⟩ := deleteNamed_error hanswer
    have hfailed : world.answer (.deleteNamespace id.namespaceName) = (.error failure, after) := hanswer
    obtain rfl := answer_error hfailed
    exact ⟨⟨h.plugged, habsent SlotId.namespaceName_ne_host, h.routes, h.rules⟩,
      fun _ hresult => Except.error.inj hresult ▸ hnotFound⟩

end World

/-- What may be left of a slot while it is cleared away from the host, and what the slot remembers. -/
structure Left (id : SlotId) (egress : String) (base : World) (memory : Slot → Prop)
    (routes : List Route) (rules : List Rule) (plugged named : Prop) (slot : Slot) (world : World) :
    Prop where
  memory : memory slot
  onHost : Confined.OnHost id egress base slot world
  remnant : world.Remnant id egress routes rules plugged named

namespace Left

variable {id : SlotId} {egress : String} {base : World} {memory : Slot → Prop}
  {routes routes' : List Route} {rules rules' : List Rule} {plugged plugged' named named' : Prop}
  {slot : Slot} {world world' : World}

theorem clearing (hazard : Hazard) (id : SlotId) (egress : String) (base : World) :
    Clearing (World.replies hazard) (Confined.Kept id egress base) id egress
      (Confined.OnHost id egress base) :=
  World.clearing_staying (Confined.frame hazard id egress base).clearing hostNamespace

/-- A call that takes something away leads on. It fails only for what is absent. -/
theorem perform {c : Call} (hmemory : memory slot)
    (hkept : ∀ result world', World.replies .none c [] world result world' →
      Confined.OnHost id egress base slot world')
    (hnext : ∀ result world', world.answer c = (result, world') →
      world'.Remnant id egress routes rules plugged named ∧
        ∀ failure, result = .error failure → failure.isNotFound = true) :
    Ensures (World.replies .none) (fun _ => True) (Sequence.perform c)
      (fun _ => Left id egress base memory routes rules plugged named)
      (fun failure slot world => failure.isNotFound = true ∧
        Left id egress base memory routes rules plugged named slot world) slot world := by
  rw [ensures_perform]
  refine ⟨trivial, fun result world' hreply => ?_⟩
  obtain ⟨hremnant, habsent⟩ := hnext result world' (World.replies_none hreply)
  cases result with
  | ok value => exact ⟨hmemory, hkept _ _ hreply, hremnant⟩
  | error failure => exact ⟨habsent failure rfl, hmemory, hkept _ _ hreply, hremnant⟩

/-- A deletion that leads to a smaller remnant, and fails only for what is absent, never fails as a step of
    clearing up. -/
theorem deletion {name : String} {delete : Sequence Unit}
    (h : ∀ slot world, Left id egress base memory routes rules plugged named slot world →
      Ensures (World.replies .none) (fun _ => True) delete
        (fun _ => Left id egress base memory routes' rules' plugged' named')
        (fun failure slot world => failure.isNotFound = true ∧
          Left id egress base memory routes' rules' plugged' named' slot world) slot world) :
    Flawless (World.replies .none) (Left id egress base memory routes rules plugged named)
      (Slot.deletion name delete) (Left id egress base memory routes' rules' plugged' named') := by
  intro slot world hleft
  rw [Slot.deletion, ensures_step, ensures_tolerant]
  exact (h slot world hleft).mono (fun _ _ _ h => h) fun failure _ _ h => by simpa [h.1] using h.2

/-- One rule fewer may be left. -/
theorem unrule {name : String} {rule : Rule} (hrule : rule ∈ id.hostRules egress) :
    Flawless (World.replies .none) (Left id egress base memory routes (rule :: rules) plugged named)
      (Slot.deletion name (Sequence.perform (.deleteRule rule)))
      (Left id egress base memory routes rules plugged named) :=
  deletion fun _ _ h => perform h.memory
    (fun _ _ hreply => (clearing .none id egress base).unmakes (.unrule rule hrule) h.onHost hreply)
    fun _ _ hanswer => h.remnant.unrule h.onHost.2 hanswer

/-- Deleting several rules one after another leaves none of them. -/
theorem unruleAll {name : String} {added : List Rule} {rest : List (Sequence Unit)} {post : Assertion World}
    (hadded : ∀ rule ∈ added, rule ∈ id.hostRules egress)
    (hrest : AllFlawless (World.replies .none) (Left id egress base memory routes rules plugged named) rest
      post) :
    AllFlawless (World.replies .none) (Left id egress base memory routes (added ++ rules) plugged named)
      (added.map (fun rule => Slot.deletion name (Sequence.perform (.deleteRule rule))) ++ rest) post := by
  induction added with
  | nil => exact hrest
  | cons rule added ih =>
    exact .cons (unrule (hadded rule (List.mem_cons_self ..)))
      (ih fun other hmem => hadded other (List.mem_cons_of_mem _ hmem))

/-- No route may be left any more. -/
theorem unroute {name : String} :
    Flawless (World.replies .none) (Left id egress base memory (id.hostRoute :: routes) rules plugged named)
      (Slot.deletion name (Sequence.perform (.deleteRoute id.hostRoute)))
      (Left id egress base memory routes rules plugged named) :=
  deletion fun _ _ h => perform h.memory
    (fun _ _ hreply => (clearing .none id egress base).unmakes .unroute h.onHost hreply)
    fun _ _ hanswer => h.remnant.unroute h.onHost.2 hanswer

/-- The cable is no longer left on the host. -/
theorem unplug {name : String} :
    Flawless (World.replies .none) (Left id egress base memory routes rules plugged named)
      (Slot.deletion name (Sequence.perform (.deleteLink id.vethName)))
      (Left id egress base memory routes rules False named) :=
  deletion fun _ _ h => perform h.memory
    (fun _ _ hreply => (clearing .none id egress base).unmakes .unplug h.onHost hreply)
    fun _ _ hanswer => h.remnant.unplug h.onHost.2 hanswer

/-- The namespace is no longer on record. It is deleted only for a slot that remembers no firewall. -/
theorem erase {name : String} (hbare : ∀ slot, memory slot → slot.hasFirewall = false) :
    Flawless (World.replies .none) (Left id egress base memory routes rules plugged named)
      (Slot.deletion name (Sequence.perform (.deleteNamespace id.namespaceName)))
      (Left id egress base memory routes rules plugged False) :=
  deletion fun slot _ h => perform h.memory
    (fun _ _ hreply => (clearing .none id egress base).deletes h.onHost (hbare slot h.memory) hreply)
    fun _ _ hanswer => h.remnant.erase hanswer

/-- What a probe does not find is not there. -/
theorem ifFound {probe : Sequence Bool} {delete : Sequence Unit}
    (hprobe : ∀ slot world, Left id egress base memory routes rules plugged named slot world →
      Ensures (World.replies .none) (fun _ => True) probe
        (fun found slot world => Left id egress base memory routes rules plugged named slot world ∧
          (found = false → Left id egress base memory routes rules plugged' named' slot world))
        (fun _ _ _ => False) slot world)
    (hdelete : Flawless (World.replies .none) (Left id egress base memory routes rules plugged named) delete
      (Left id egress base memory routes rules plugged' named')) :
    Flawless (World.replies .none) (Left id egress base memory routes rules plugged named)
      (Slot.ifFound probe delete) (Left id egress base memory routes rules plugged' named') := by
  intro slot world h
  rw [Slot.ifFound, ensures_bind]
  refine (hprobe slot world h).mono (fun found slot world hfound => ?_) fun _ _ _ => False.elim
  cases found with
  | false => exact hfound.2 rfl
  | true => exact hdelete slot world hfound.1

/-- A look for the cable changes nothing, and what it does not find is not left. -/
theorem probeVeth {name : String} (hhost : hostNamespace ∈ base.namespaces) (slot : Slot) (world : World)
    (h : Left id egress base memory routes rules plugged named slot world) :
    Ensures (World.replies .none) (fun _ => True) (step name (Sequence.perform (.linkExists id.vethName)))
      (fun found slot world => Left id egress base memory routes rules plugged named slot world ∧
        (found = false → Left id egress base memory routes rules False named slot world))
      (fun _ _ _ => False) slot world := by
  rw [ensures_step, ensures_perform]
  refine ⟨trivial, fun result world' hreply => ?_⟩
  have hmem : hostNamespace ∈ world.namespaces :=
    World.mem_of_without h.onHost.1.surroundings (by simp) hhost
  obtain ⟨ns, hns⟩ := Option.isSome_iff_exists.mp (Std.ExtTreeMap.mem_iff_isSome_getElem?.mp hmem)
  have hanswer : (Except.ok (decide (id.vethName ∈ ns.links)), world) = (result, world') := by
    simpa only [World.answer, h.onHost.2, hns] using World.replies_none hreply
  obtain ⟨rfl, rfl⟩ := Prod.mk.inj hanswer
  refine ⟨h, fun hfound => ⟨h.memory, h.onHost, ?_, h.remnant.named, h.remnant.routes, h.remnant.rules⟩⟩
  rintro ⟨found, hlink, hveth⟩
  obtain rfl := Option.some.inj (hns.symm.trans hlink)
  exact of_decide_eq_false hfound hveth

/-- A look for the namespace changes nothing, and what it does not find is not left. -/
theorem probeNamespace {name : String} (slot : Slot) (world : World)
    (h : Left id egress base memory routes rules plugged named slot world) :
    Ensures (World.replies .none) (fun _ => True)
      (step name (Sequence.perform (.namespaceExists id.namespaceName)))
      (fun found slot world => Left id egress base memory routes rules plugged named slot world ∧
        (found = false → Left id egress base memory routes rules plugged False slot world))
      (fun _ _ _ => False) slot world := by
  rw [ensures_step, ensures_perform]
  refine ⟨trivial, fun result world' hreply => ?_⟩
  obtain ⟨rfl, rfl⟩ := Prod.mk.inj (World.replies_none hreply)
  refine ⟨h, fun hfound => ⟨h.memory, h.onHost, h.remnant.plugged, fun hname => ?_, h.remnant.routes,
    h.remnant.rules⟩⟩
  exact of_decide_eq_false hfound ⟨SlotId.namespaceName_ne_host, hname⟩

/-- Without failures, everything that is left of a slot is cleared away. The deletions are taken in their order,
    and each makes the bound on what is left smaller, until nothing can be left. -/
theorem reap (hhost : hostNamespace ∈ base.namespaces) :
    Flawless (World.replies .none)
      (Left id egress base (fun _ => True) [id.hostRoute] (id.hostRules egress) True True)
      (Slot.reap egress) (Left id egress base (·.state = .noNetwork) [] [] False False) := by
  refine .get fun seen => ?_
  rintro slot world ⟨rfl, h⟩
  obtain rfl := h.onHost.1.id_eq
  have hveth : AllFlawless (World.replies .none)
      (Left slot.id egress base (fun _ => True) [slot.id.hostRoute] (slot.id.hostRules egress) True True)
      [Slot.ifFound (step "probing veth" (Sequence.perform (.linkExists slot.id.vethName)))
        (Slot.deletion "deleting dangling veth" (Sequence.perform (.deleteLink slot.id.vethName)))]
      (Left slot.id egress base (fun _ => True) [slot.id.hostRoute] (slot.id.hostRules egress) False True) :=
    .cons (ifFound (probeVeth hhost) unplug) .nil
  have hrest : AllFlawless (World.replies .none)
      (Left slot.id egress base (·.state = .noNetwork) [slot.id.hostRoute] (slot.id.hostRules egress ++ [])
        False True)
      ((slot.id.hostRules egress).map (fun rule =>
          Slot.deletion "deleting dangling host rule" (Sequence.perform (.deleteRule rule)))
        ++ [Slot.deletion "deleting dangling host route" (Sequence.perform (.deleteRoute slot.id.hostRoute)),
          Slot.ifFound (step "probing namespace" (Sequence.perform (.namespaceExists slot.id.namespaceName)))
            (Slot.deletion "deleting dangling namespace"
              (Sequence.perform (.deleteNamespace slot.id.namespaceName)))])
      (Left slot.id egress base (·.state = .noNetwork) [] [] False False) :=
    unruleAll (fun _ hrule => hrule) (.cons unroute (.cons (ifFound probeNamespace
      (erase fun slot hstate => by simp [Slot.hasFirewall, Slot.firewall, hstate])) .nil))
  rw [List.append_nil] at hrest
  rw [ensures_bind]
  refine (hveth slot world h).mono (fun failures after world hleft => ?_) fun _ _ _ => False.elim
  obtain ⟨rfl, hleft⟩ := hleft
  rw [ensures_bind, ensures_modify, ensures_bind]
  have hcleared : Left slot.id egress base (·.state = .noNetwork) [slot.id.hostRoute]
      (slot.id.hostRules egress) False True after.clearNetwork.2 world :=
    ⟨rfl, (clearing .none slot.id egress base).forgets hleft.onHost, hleft.remnant⟩
  refine (hrest _ world hcleared).mono (fun failures after world hleft => ?_) fun _ _ _ => False.elim
  obtain ⟨rfl, hleft⟩ := hleft
  exact hleft

end Left

/-- What a slot is, and that what belongs to it has only become less. -/
def Shrunk (id : SlotId) (egress : String) (base : World) (slot : Slot) (world : World) : Prop :=
  slot.id = id ∧ World.Shrinks id egress base world

namespace Shrunk

variable {hazard : Hazard} {id : SlotId} {egress : String} {base world world' : World} {slot : Slot}
  {call : Call} {guards : List Handle} {result : Except NetworkError call.Reply}

theorem next (h : Shrunk id egress base slot world)
    (hreply : World.replies hazard call guards world result world')
    (hless : ∀ value, world.answer call = (.ok value, world') → World.Shrinks id egress world world') :
    Shrunk id egress base slot world' :=
  World.replies_keeps hreply h fun value hanswer => ⟨h.1, h.2.trans (hless value hanswer)⟩

theorem enter {target : Handle} (h : world.enter target = (.ok (), world')) :
    World.Shrinks id egress world world' := by
  rw [(World.enter_ok h).2]
  exact .moved world target.label

variable (hazard id egress base)

/-- What is done for a firewall adds nothing to what belongs to the slot outside its namespace. So it may be cut
    off anywhere and does not count for what has to be cleared up. -/
theorem wall :
    Wall (World.replies hazard) (World.Shrinks id egress base) id (fun _ => True) (fun _ => True)
      (Shrunk id egress base) (Shrunk id egress base) (Shrunk id egress base) where
  of_inside h := h
  holds h := h.2
  id_eq h := h.1
  handle _ _ := trivial
  capture h hreply := by
    obtain ⟨rfl, -⟩ := World.replies_captured hreply
    exact ⟨h, fun _ _ => trivial⟩
  returns _ h hreply := h.next hreply fun _ hanswer => enter hanswer
  opens h hreply := by
    obtain ⟨rfl, -⟩ := World.replies_opened hreply
    exact ⟨h, fun _ _ => trivial⟩
  enters _ h hreply :=
    have hnext := h.next hreply fun _ hanswer => enter hanswer
    ⟨hnext, fun _ => hnext⟩
  rules hc h hreply := h.next hreply fun _ hanswer => World.shrinks_ruling hc hanswer
  unchains hc h _ hreply := h.next hreply fun _ hanswer => World.shrinks_unchaining hc hanswer
  chains h _ hreply :=
    have hnext := h.next hreply fun _ hanswer => World.shrinks_newChain hanswer
    ⟨hnext, fun _ => hnext⟩
  hooks h hreply :=
    have hnext := h.next hreply fun _ hanswer => World.shrinks_hook hanswer
    ⟨hnext, fun _ => ⟨by simpa using hnext.1, hnext.2⟩⟩
  made_holds h := h.2
  memory hid _ _ := ⟨fun h => ⟨hid.trans h.1, h.2⟩, fun h => ⟨hid.trans h.1, h.2⟩⟩

/-- What is left of a slot only becomes less while it is cleared up. -/
theorem clearing :
    Clearing (World.replies hazard) (World.Shrinks id egress base) id egress (Shrunk id egress base) where
  holds h := h.2
  id_eq h := h.1
  forgets h := h
  unmakes hc h hreply := h.next hreply fun _ hanswer => World.shrinks_unmaking hc hanswer
  deletes h _ hreply := h.next hreply fun _ hanswer => World.shrinks_deleteNamed hanswer

/-- Wherever a slot is removed and whatever fails, what belongs to it only becomes less. -/
theorem remove :
    Triple (World.replies hazard) (World.Shrinks id egress base) (Shrunk id egress base)
      (Slot.remove egress) (Shrunk id egress base) (Shrunk id egress base) :=
  have hwall := wall hazard id egress base
  (hwall.remove hwall.around (clearing hazard id egress base)).of_bare

end Shrunk

namespace Operation

variable {id : SlotId} {egress : String} {base died : World}

/-- Clearing up on the host after a process that is gone succeeds and takes the machine back to `base`. -/
def Recovers (id : SlotId) (egress : String) (base died : World) : Prop :=
  ∃ after, (Operation.reap.program egress (.fresh id)).run World.machine
    { died with current := hostNamespace } = (some (.ok (), after), base)

/-- What is left of a slot that is known in this way can be cleared away, wherever the thread was when the
    process died: another process begins on the host. -/
theorem recovers_of_remnant (hcurrent : base.current = hostNamespace)
    (hhost : hostNamespace ∈ base.namespaces) (hclear : base.Clear id egress)
    (hkept : Confined.Kept id egress base died)
    (hremnant : died.Remnant id egress [id.hostRoute] (id.hostRules egress) True True) :
    Recovers id egress base died := by
  have hleft : Left id egress base (fun _ => True) [id.hostRoute] (id.hostRules egress) True True
      (.fresh id) { died with current := hostNamespace } :=
    ⟨trivial, ⟨⟨⟨rfl, fun _ => nofun, hkept.tidy.congr (fun _ _ => Iff.rfl) rfl, hkept.surroundings⟩,
      .inl rfl, hkept.elsewhere⟩, rfl⟩, hremnant.shrink (.moved died hostNamespace)⟩
  obtain ⟨⟨result, after⟩, world, hrun, hdone⟩ := World.run_of_ensures (Left.reap hhost _ _ hleft)
  cases result with
  | error failure => exact hdone.elim
  | ok value =>
    have hdone : Left id egress base (·.state = .noNetwork) [] [] False False after world := hdone
    have hconfined := hdone.onHost.1
    obtain rfl : world = base := hclear.eq_of_without
      (hdone.remnant.clear hconfined.tidy hclear hconfined.surroundings)
      (hdone.onHost.2.trans hcurrent.symm) hconfined.surroundings hconfined.elsewhere
    exact ⟨after, hrun⟩

variable {σ : Type} {machine : Machine σ} {view : σ → World} {state : σ} {slot : Slot}

/-- What is known of an attempt at a network, at every call and at its end. -/
theorem create_attempted {hazard : Hazard} {host : Namespace} (hcurrent : base.current = hostNamespace)
    (hns : base.namespaces[hostNamespace]? = some host) (habsent : id.namespaceName ∉ base.namespaces) :
    Triple (World.replies hazard)
      (fun world => Confined.Kept id egress base world ∧ Attempt id egress host world)
      (fun slot world => Confined.OnHost id egress base slot world ∧ slot.id = id ∧ world = base)
      (Slot.create egress)
      (fun slot world => Confined id egress base slot world ∧
        Staged base id (some id.handle) (some .allowed) hostNamespace (host.reaching id egress) (id.furnished .allowed)
          (World.withCable base.peers id) slot world)
      (fun slot world => Confined id egress base slot world ∧ Failed True id egress host slot world) :=
  create.confined.and (Staged.create (fun _ => trivial) hcurrent hns habsent fun _ => trivial)

/-- Without failures, a network is completed where there was nothing of it. This is what tells that the
    hypotheses of the other statements can be met. -/
theorem create_completes (slot : Slot) (hcurrent : base.current = hostNamespace)
    (hhost : hostNamespace ∈ base.namespaces) (hclear : base.Clear slot.id egress) :
    ∃ made after, (Operation.create.program egress slot).run World.machine base =
      (some (.ok (), made), after) := by
  obtain ⟨host, hns⟩ := Option.isSome_iff_exists.mp (Std.ExtTreeMap.mem_iff_isSome_getElem?.mp hhost)
  have hcreate : Triple (World.replies .none) (Attempt slot.id egress host)
      (fun made world => made.id = slot.id ∧ world = base) (Slot.create egress)
      (Staged base slot.id (some slot.id.handle) (some .allowed) hostNamespace (host.reaching slot.id egress)
        (slot.id.furnished .allowed) (World.withCable base.peers slot.id))
      (Failed False slot.id egress host) :=
    Staged.create Hazard.none_strikes hcurrent hns hclear.absent (hclear.host host hns).1
  obtain ⟨⟨result, made⟩, after, hrun, hdone⟩ := World.run_of_ensures (hcreate slot base ⟨rfl, rfl⟩)
  cases result with
  | ok value => exact ⟨made, after, hrun⟩
  | error failure => exact hdone.1.elim

section

variable {σ : Type} {machine : Machine σ} {view : σ → World} {state state' : σ} {slot made : Slot}
  (hmachine : machine.Within view (World.replies .any)) (hhome : slot.Homed)
  (hcurrent : (view state).current = hostNamespace) (hhost : hostNamespace ∈ (view state).namespaces)
  (hclear : (view state).Clear slot.id egress) (hloopback : (view state).peers[loopback]? = none)
include hmachine hhome hcurrent hhost hclear hloopback

/-- Wherever an attempt at a network ended, clearing up takes the machine back to what it was before. An attempt
    that was cut off has done no more than one that failed. -/
theorem recovers_create (count : Nat) :
    Recovers slot.id egress (view state)
      (view ((Operation.create.program egress slot).cut machine count state)) := by
  obtain ⟨host, hns⟩ := Option.isSome_iff_exists.mp (Std.ExtTreeMap.mem_iff_isSome_getElem?.mp hhost)
  obtain ⟨hroute, hrules⟩ := hclear.host host hns
  have hrecovers {world : World} (hkept : Confined.Kept slot.id egress (view state) world)
      (hattempt : Attempt slot.id egress host world) : Recovers slot.id egress (view state) world :=
    recovers_of_remnant hcurrent hhost hclear hkept (.of_attempt hattempt hroute hrules)
  have hstart := Confined.start egress hhome (hclear.tidy hloopback) hcurrent
  rcases (create_attempted hcurrent hns hclear.absent).cut hmachine ⟨hstart, rfl, rfl⟩ count with
    hinv | ⟨after, hpost | hfail⟩
  · exact hrecovers hinv.1 hinv.2
  · exact hrecovers hpost.1.kept (hpost.2.attempt Namespace.attempted_reaching)
  · exact hrecovers hfail.1.kept hfail.2.2

/-- Wherever the removal of a complete network ended, clearing up takes the machine back to what it was
    before the network was made. -/
theorem recovers_remove
    (hrun : (Operation.create.program egress slot).run machine state = (some (.ok (), made), state'))
    (count : Nat) :
    Recovers slot.id egress (view state)
      (view ((Operation.remove.program egress made).cut machine count state')) := by
  obtain ⟨host, hns⟩ := Option.isSome_iff_exists.mp (Std.ExtTreeMap.mem_iff_isSome_getElem?.mp hhost)
  obtain ⟨hroute, hrules⟩ := hclear.host host hns
  have hstart := Confined.start egress hhome (hclear.tidy hloopback) hcurrent
  have hmade := (create_attempted hcurrent hns hclear.absent).run hmachine ⟨hstart, rfl, rfl⟩ hrun
  obtain ⟨hconfined, hstaged⟩ := hmade
  have honHost : Confined.OnHost slot.id egress (view state) made (view state') :=
    ⟨hconfined, by rw [hstaged.world_eq]; rfl⟩
  have hremnant := World.Remnant.of_attempt (hstaged.attempt Namespace.attempted_reaching) hroute hrules
  have hremove : Triple (World.replies .any)
      (fun world => Confined.Kept slot.id egress (view state) world ∧
        World.Shrinks slot.id egress (view state') world)
      (fun after world => Confined.OnHost slot.id egress (view state) after world ∧
        Shrunk slot.id egress (view state') after world)
      (Slot.remove egress)
      (fun after world => Confined slot.id egress (view state) after world ∧
        Shrunk slot.id egress (view state') after world)
      (fun after world => Confined slot.id egress (view state) after world ∧
        Shrunk slot.id egress (view state') after world) :=
    remove.confined.and (Shrunk.remove .any slot.id egress (view state'))
  have hrecovers {world : World} (hkept : Confined.Kept slot.id egress (view state) world)
      (hless : World.Shrinks slot.id egress (view state') world) :
      Recovers slot.id egress (view state) world :=
    recovers_of_remnant hcurrent hhost hclear hkept (hremnant.shrink hless)
  rcases hremove.cut hmachine ⟨honHost, hconfined.id_eq, .refl _⟩ count with hinv | ⟨after, hend⟩
  · exact hrecovers hinv.1 hinv.2
  · rcases hend with hend | hend <;> exact hrecovers hend.1.kept hend.2.2

/-- Whenever the process dies while a network is made, or taken away when it was complete, and whatever
    calls fail until then, clearing up succeeds and takes the machine back to what it was before the
    network was made. Besides, unless calls fail the network is completed. -/
theorem crash_recovered :
    (∀ count, Recovers slot.id egress (view state)
      (view ((Operation.create.program egress slot).cut machine count state))) ∧
    (∀ made state', (Operation.create.program egress slot).run machine state =
        (some (.ok (), made), state') → ∀ count, Recovers slot.id egress (view state)
      (view ((Operation.remove.program egress made).cut machine count state'))) ∧
    ∃ made world', (Operation.create.program egress slot).run World.machine (view state) =
      (some (.ok (), made), world') :=
  ⟨recovers_create hmachine hhome hcurrent hhost hclear hloopback,
    fun _ _ hrun => recovers_remove hmachine hhome hcurrent hhost hclear hloopback hrun,
    create_completes slot hcurrent hhost hclear⟩

end

/-- Beside the network of slot 0 there is nothing of slot 1. -/
theorem neighbourMade_clear : neighbourMade.2.machine.Clear 1 "eth0" := by
  obtain ⟨result, hrun⟩ := neighbourMade_run
  have hhome : (Slot.fresh 0).Homed := fun _ hnone => nomatch hnone
  have hconfined : Confined 0 "eth0" .fresh neighbour neighbourMade.2.machine :=
    run_confined Rehearsal.rehearsing_within hhome (World.fresh_orderly 0) rfl hrun
  exact (World.fresh_clear 1 "eth0").of_without hconfined.tidy (by decide) hconfined.surroundings
    hconfined.elsewhere

/-- Besides the network of the first slot, that of another is half made. -/
def neighbourBegun (slot : Slot) : Rehearsal World :=
  (Operation.create.program "eth0" slot).cut (Rehearsal.rehearsing World.machine) 11 neighbourMade.2

/-- Slot 1 is cut off while its network is made, and again while it is removed. Both times clearing up takes the
    machine back to what it was before. -/
theorem recovered_neighbourBegun :
    (neighbourBegun (.fresh 1)).machine.current = "ns-1" ∧
      Recovers 1 "eth0" neighbourMade.2.machine (neighbourBegun (.fresh 1)).machine ∧
      ∃ made state', (Operation.create.program "eth0" (.fresh 1)).run (Rehearsal.rehearsing World.machine)
        neighbourMade.2 = (some (.ok (), made), state') ∧
        Recovers 1 "eth0" neighbourMade.2.machine ((Operation.remove.program "eth0" made).cut
          (Rehearsal.rehearsing World.machine) 9 state').machine := by
  have hsound := neighbourMade_reached.sound Rehearsal.rehearsing_within
  have hhome : (Slot.fresh 1).Homed := fun _ hnone => nomatch hnone
  have hmachine : (Rehearsal.rehearsing World.machine).Within Rehearsal.machine (World.replies .any) :=
    Rehearsal.rehearsing_within
  have hrecovered := crash_recovered hmachine hhome neighbourMade_onHost hsound.host neighbourMade_clear
    (hsound.orderly 1).loose.1
  obtain ⟨⟨result, made⟩, hended, hok⟩ := Option.map_eq_some_iff.mp
    (show ((Operation.create.program "eth0" (.fresh 1)).run (Rehearsal.rehearsing World.machine)
      neighbourMade.2).1.map (fun ended => ended.1.isOk) = some true by decide +kernel)
  cases result with
  | error failure => cases hok
  | ok value =>
    have hrun : (Operation.create.program "eth0" (.fresh 1)).run (Rehearsal.rehearsing World.machine)
        neighbourMade.2 = (some (.ok (), made), _) := Prod.ext hended rfl
    exact ⟨by decide +kernel, hrecovered.1 11, made, _, hrun, hrecovered.2.1 made _ hrun 9⟩

end Operation
end SlotPool
