import Mathlib.Data.List.Count
import SlotPool.Proofs.Slot.Cleared
import SlotPool.Proofs.Slot.Mild
import SlotPool.Proofs.Slot.Operation
/-!
Clearing up, exactly. Whatever operations led to a machine, clearing up on its host succeeds unless calls fail,
and leaves no namespace, no cable and no route of the slot. Of each rule it takes one copy away. Rules are added
without a look at those that are there, so after a rule could not be deleted and the network was made again, a
copy is left.
-/

namespace SlotPool

open Sequence

/-- Where nothing is left of a slot, clearing up changes nothing: each of its deletions finds nothing and counts
    that as done. -/
theorem Unchanged.reap {hazard : Hazard} {id : SlotId} {egress : String} {struck : Prop} {base : World}
    {ns : Namespace} (hplain : hazard.Plain) (hstruck : hazard.Strikes → struck)
    (hcurrent : base.current = hostNamespace) (hns : base.namespaces[hostNamespace]? = some ns)
    (hrid : base.Rid id egress) :
    Triple (World.replies hazard) (fun _ => True) (Unchanged (· = .fresh id) base) (Slot.reap egress)
      (Unchanged (· = .fresh id) base) fun _ _ => struck := by
  have hhere : base.namespaces[base.current]? = some ns := hcurrent ▸ hns
  have hbereft := hrid.host ns hns
  have hveth : Triple (World.replies hazard) (fun _ => True) (Unchanged (· = .fresh id) base)
      (Slot.ifFound (step "probing veth" (perform (.linkExists id.vethName)))
        (Slot.deletion "deleting dangling veth" (perform (.deleteLink id.vethName))))
      (Unchanged (· = .fresh id) base) fun _ _ => struck := by
    refine .found (fun slot world h => ?_) (Unchanged.unplug hplain hstruck hhere hbereft)
    have hanswer : world.answer (.linkExists id.vethName) = (.ok (decide (id.vethName ∈ ns.links)), world) := by
      simp only [World.answer, h.2, hhere]
    exact World.ensures_probe hstruck hanswer ⟨h, fun _ => h⟩
  have hnamespace : Triple (World.replies hazard) (fun _ => True) (Unchanged (· = .fresh id) base)
      (Slot.ifFound (step "probing namespace" (perform (.namespaceExists id.namespaceName)))
        (Slot.deletion "deleting dangling namespace" (perform (.deleteNamespace id.namespaceName))))
      (Unchanged (· = .fresh id) base) fun _ _ => struck :=
    .found (fun slot world h => World.ensures_probe hstruck rfl ⟨h, fun _ => h⟩)
      (.delete (World.ensures_delete hplain hstruck (Unchanged.refused (World.deleteNamed_absent hrid.unnamed))))
  refine .get fun seen => ?_
  rintro slot world ⟨rfl, h⟩
  obtain rfl : slot = .fresh id := h.1
  refine AllLead.collect (.cons hveth .nil) (fun after world h => ?_) (.same fun steps hmem => ?_)
    (fun hprior => (hprior rfl).elim) _ world h
  · obtain ⟨rfl, hsame⟩ := h
    exact ⟨rfl, hsame⟩
  · rcases List.mem_append.mp hmem with hmap | hlast
    · obtain ⟨rule, hrule, rfl⟩ := List.mem_map.mp hmap
      exact Unchanged.unrule hplain hstruck hhere hbereft hrule
    · simp only [List.mem_cons, List.not_mem_nil, or_false] at hlast
      rcases hlast with rfl | rfl
      · exact Unchanged.unroute hplain hstruck hhere hbereft
      · exact hnamespace

namespace World

/-- What clearing up makes of the host. Of each rule there are fewer copies by as many as the slot has it. -/
structure Reaped (id : SlotId) (egress : String) (before after : World) : Prop where
  onHost : after.current = hostNamespace
  unnamed : id.namespaceName ∉ after.namespaces
  host : ∃ ns ns' : Namespace, before.namespaces[hostNamespace]? = some ns ∧
    after.namespaces[hostNamespace]? = some ns' ∧ id.vethName ∉ ns'.links ∧ id.hostRoute ∉ ns'.routes ∧
    ∀ rule, ns'.rules.count rule = ns.rules.count rule - (id.hostRules egress).count rule

end World

namespace Operation

variable {σ : Type} {machine : Machine σ} {view : σ → World} {egress : String} {slots : List Slot}
  {state : σ} {slot : Slot}

/-- On machines that operations lead to, no route stands twice, since the machine refuses a route that is there.
    There is nothing of the kind for rules. -/
theorem Reached.unrepeated (hmachine : machine.Within view (World.replies .any))
    (hreached : Reached machine view egress slots state) : (view state).Unrepeated := by
  have hkept {α : Type} (p : Program α) {world : World} (h : world.Unrepeated) :
      p.Ensures (World.replies .any) World.Unrepeated (fun _ => World.Unrepeated) world :=
    Program.ensures_kept (fun _ _ _ _ _ hreply h => h.replies hreply) h
  induction hreached with
  | fresh hfresh =>
    rw [hfresh]
    exact World.fresh_unrepeated
  | issue id hreached ih => exact ih
  | ended hreached hslot hhost hrun ih => exact (hkept _ ih).run hmachine hrun
  | died hreached hslot hhost hrun ih =>
    exact (hkept _ ih).crash hmachine (fun _ _ _ _ hreply h => h.replies hreply) hrun
  | restart hreached hview ih =>
    rw [hview]
    exact ih

/-- Clearing up that nothing fails in, on a host whose tables are known: one copy of the route and of each rule
    is gone, and the cable and the namespace are. -/
theorem reap_exact {ns : Namespace} (hhost : (view state).current = hostNamespace)
    (hns : (view state).namespaces[hostNamespace]? = some ns)
    (hmeets : (reap.program egress slot).Meets machine view (World.replies .none) state) :
    ∃ state', (reap.program egress slot).run machine state = (some (.ok (), .fresh slot.id), state') ∧
      (view state').Outside slot.id (ns.routes.erase slot.id.hostRoute) (ns.rules.diff (slot.id.hostRules egress))
        False False := by
  have hstart : Outlying (·.id = slot.id) slot.id ns.routes ns.rules True True slot (view state) :=
    ⟨rfl, hhost, ⟨ns, hns, rfl, rfl, fun _ => trivial⟩, fun _ => trivial⟩
  obtain ⟨⟨result, after⟩, state', hrun, hend⟩ :=
    hmeets.run (Outlying.reap Hazard.none_plain Hazard.none_strikes slot _ hstart)
  cases result with
  | error failure => exact hend.elim
  | ok value =>
    have hend : Outlying (· = .fresh slot.id) slot.id (ns.routes.erase slot.id.hostRoute)
      (ns.rules.diff (slot.id.hostRules egress)) False False after (view state') := hend
    obtain ⟨rfl, houtside⟩ := hend
    exact ⟨state', hrun, houtside⟩

/-- Clearing up again changes nothing exactly where nothing is left, that is, where the first time has left no
    copy of a rule behind. -/
theorem reap_again {id : SlotId} {routes : List Route} {rules : List Rule}
    (houtside : (view state).Outside id routes rules False False) (hroute : id.hostRoute ∉ routes)
    (hmeets : (reap.program egress (.fresh id)).Meets machine view (World.replies .none) state) :
    ∃ last, (reap.program egress (.fresh id)).run machine state = (some (.ok (), .fresh id), last) ∧
      (view last = view state ↔ (view state).Rid id egress) := by
  obtain ⟨ns, hns, rfl, rfl, -⟩ := houtside.host
  obtain ⟨last, hrun, hlast⟩ := reap_exact houtside.current hns hmeets
  refine ⟨last, hrun, fun hsame => ?_, fun hrid => ?_⟩
  · rw [hsame] at hlast
    obtain ⟨found, hfound, -, hrules, -⟩ := hlast.host
    obtain rfl := Option.some.inj (hns.symm.trans hfound)
    refine houtside.rid_iff.mpr ⟨hroute, fun rule hrule hmem => ?_⟩
    -- a rule that stands has one copy less afterwards
    have hcount : ns.rules.count rule = ns.rules.count rule - (id.hostRules egress).count rule := by
      rw [← List.count_diff]
      exact congrArg (List.count rule) hrules
    have hpositive := List.count_pos_iff.mpr hmem
    have hown := List.count_pos_iff.mpr hrule
    omega
  · have hunchanged : Unchanged (· = .fresh id) (view state) (.fresh id) (view state) := ⟨rfl, rfl⟩
    obtain ⟨⟨result, after⟩, state', hrun', hend⟩ := hmeets.run (Unchanged.reap Hazard.none_plain
      Hazard.none_strikes houtside.current hns hrid _ _ hunchanged)
    obtain ⟨hresult, rfl⟩ := Prod.mk.inj (hrun.symm.trans hrun')
    obtain ⟨rfl, rfl⟩ := Prod.mk.inj (Option.some.inj hresult)
    exact hend.2

/-- Clearing up that nothing fails in succeeds, and the slot remembers nothing. It leaves no namespace, no cable
    and no route, and one copy less of each rule. So nothing is left exactly where no rule stood more than once,
    or as often as the slot has it, and exactly then clearing up again changes nothing. -/
theorem Reached.reaped (hmachine : machine.Within view (World.replies .any))
    (hreached : Reached machine view egress slots state) (hhost : (view state).current = hostNamespace)
    (hmeets : (reap.program egress slot).Meets machine view (World.replies .none) state) :
    ∃ state', (reap.program egress slot).run machine state = (some (.ok (), .fresh slot.id), state') ∧
      (view state).Reaped slot.id egress (view state') ∧
      ((view state').Rid slot.id egress ↔
        ∀ ns, (view state).namespaces[hostNamespace]? = some ns → ∀ rule ∈ slot.id.hostRules egress,
          ns.rules.count rule ≤ (slot.id.hostRules egress).count rule) ∧
      ∀ again, view again = view state' →
        (reap.program egress (.fresh slot.id)).Meets machine view (World.replies .none) again →
        ∃ last, (reap.program egress (.fresh slot.id)).run machine again =
          (some (.ok (), .fresh slot.id), last) ∧
          (view last = view state' ↔ (view state').Rid slot.id egress) := by
  obtain ⟨ns, hns⟩ := Option.isSome_iff_exists.mp
    (Std.ExtTreeMap.mem_iff_isSome_getElem?.mp (hreached.sound hmachine).host)
  obtain ⟨state', hrun, houtside⟩ := reap_exact hhost hns hmeets
  have hroute : slot.id.hostRoute ∉ ns.routes.erase slot.id.hostRoute :=
    (hreached.unrepeated hmachine _ ns hns).not_mem_erase
  have hcount (rule : Rule) : (ns.rules.diff (slot.id.hostRules egress)).count rule =
      ns.rules.count rule - (slot.id.hostRules egress).count rule := List.count_diff ..
  refine ⟨state', hrun, ?_, ?_, fun again hview hagain => ?_⟩
  · obtain ⟨ns', hns', hroutes, hrules, hveth⟩ := houtside.host
    refine ⟨houtside.current, houtside.named, ns, ns', hns, hns', hveth, hroutes ▸ hroute, fun rule => ?_⟩
    rw [hrules, hcount]
  · rw [houtside.rid_iff, and_iff_right hroute]
    constructor
    · intro hnone found hfound rule hrule
      obtain rfl := Option.some.inj (hns.symm.trans hfound)
      have hzero := List.count_eq_zero.mpr (hnone rule hrule)
      rw [hcount] at hzero
      omega
    · intro hfew rule hrule
      have hle := hfew ns hns rule hrule
      rw [← List.count_eq_zero, hcount]
      omega
  · rw [← hview] at houtside ⊢
    exact reap_again houtside hroute hagain

/-- The next deletion of a rule fails. -/
def unruleFault : Fault := ⟨"delete_rule", 0, 1, some (.command "iptables" "failed")⟩

/-- How the first slot is cleared away when one of its rules cannot be deleted. -/
def reapedBut : Option (Except NetworkError Unit × Slot) × Rehearsal World :=
  (reap.program "eth0" neighbour).run (Rehearsal.rehearsing World.machine) (neighbourMade.2.order unruleFault)

/-- How its network is made once more. -/
def madeTwice : Option (Except NetworkError Unit × Slot) × Rehearsal World :=
  (create.program "eth0" (.fresh neighbour.id)).run (Rehearsal.rehearsing World.machine) reapedBut.2

/-- How it is cleared away again, while nothing fails. -/
def reapedTwice : Option (Except NetworkError Unit × Slot) × Rehearsal World :=
  (reap.program "eth0" neighbour).run (Rehearsal.rehearsing World.machine) madeTwice.2

/-- The rule by which the first slot may reach outside. -/
def outwardRule : Rule := ⟨.filter, "FORWARD", ["-i", "veth-0", "-o", "eth0", "-j", "ACCEPT"]⟩

/-- One rule cannot be deleted when the first network is cleared up, and then the network is made again. Of this
    rule there are now two copies on the host. -/
theorem madeTwice_results :
    reapedBut.1.map (fun ended => (ended.1.isOk, ended.2)) = some (false, .fresh 0) ∧
      madeTwice.1.map (fun ended => (ended.1.isOk, ended.2)) = some (true, neighbour) ∧
      reapedBut.2.machine.current = hostNamespace ∧ madeTwice.2.machine.current = hostNamespace ∧
      madeTwice.2.Honest ∧
      madeTwice.2.machine.namespaces[hostNamespace]?.map (·.rules.count outwardRule) = some 2 := by
  decide +kernel

theorem order_onHost {rehearsal : Rehearsal World} (fault : Fault)
    (hhost : rehearsal.machine.current = hostNamespace) :
    (rehearsal.order fault).machine = { rehearsal.machine with current := hostNamespace } := by
  rw [← hhost]
  rfl

/-- These are operations like any others, and they lead to this machine. -/
theorem madeTwice_reached : Reached (Rehearsal.rehearsing World.machine) (·.machine) "eth0"
    [neighbour, .fresh 0, .fresh 1, neighbour, .fresh 0] madeTwice.2 := by
  obtain ⟨hbut, hmade, hhost, -⟩ := madeTwice_results
  obtain ⟨⟨result, after⟩, hended, hafter⟩ := Option.map_eq_some_iff.mp hbut
  obtain rfl : after = .fresh 0 := (Prod.mk.inj hafter).2
  obtain ⟨⟨result', after'⟩, hended', hafter'⟩ := Option.map_eq_some_iff.mp hmade
  obtain rfl : after' = neighbour := (Prod.mk.inj hafter').2
  have hbegun := neighbourMade_reached.restart (order_onHost unruleFault neighbourMade_onHost)
  have hreap : reapedBut = (some (result, .fresh 0), reapedBut.2) := Prod.ext hended rfl
  have hreaped := hbegun.ended (List.mem_cons_of_mem _ (List.mem_cons_self ..)) neighbourMade_onHost hreap
  have hcreate : madeTwice = (some (result', neighbour), madeTwice.2) := Prod.ext hended' rfl
  exact hreaped.ended (List.mem_cons_self ..) hhost hcreate

/-- Clearing up once more succeeds, and yet one copy of the rule is left. -/
theorem reaped_madeTwice : ∃ state',
    (reap.program "eth0" neighbour).run (Rehearsal.rehearsing World.machine) madeTwice.2 =
      (some (.ok (), .fresh 0), state') ∧
      madeTwice.2.machine.Reaped 0 "eth0" state'.machine ∧ ¬ state'.machine.Rid 0 "eth0" := by
  obtain ⟨-, -, -, hhost, hhonest, hcount⟩ := madeTwice_results
  obtain ⟨ns, hns, htwice⟩ := Option.map_eq_some_iff.mp hcount
  have hspared : (reap.program "eth0" neighbour).Spared .none (Rehearsal.rehearsing World.machine) (·.machine)
      "eth0" madeTwice.2 := hhonest.spared
  obtain ⟨state', hrun, hreaped, hrid, -⟩ := madeTwice_reached.reaped Rehearsal.rehearsing_within hhost
    hspared.meets
  refine ⟨state', hrun, hreaped, fun hnone => ?_⟩
  have hfew := hrid.mp hnone ns hns outwardRule (by decide)
  rw [htwice] at hfew
  revert hfew
  decide

/-- A rule that could not be deleted once is there twice when the network has been made again, and clearing up
    succeeds and leaves it. So clearing up once more changes something. -/
theorem reap_leaves_rule :
    madeTwice.2.machine.current = hostNamespace ∧ madeTwice.2.Honest ∧
      reapedTwice.1.map (fun ended => (ended.1.isOk, ended.2)) = some (true, .fresh 0) ∧
      ¬ reapedTwice.2.machine.Rid 0 "eth0" ∧
      ((reap.program "eth0" (.fresh 0)).run (Rehearsal.rehearsing World.machine)
        reapedTwice.2).2.machine ≠ reapedTwice.2.machine := by
  have hresults : reapedTwice.1.map (fun ended => (ended.1.isOk, ended.2)) = some (true, .fresh 0) ∧
      reapedTwice.2.machine.namespaces[hostNamespace]?.map (·.rules) = some [outwardRule] ∧
      ((reap.program "eth0" (.fresh 0)).run (Rehearsal.rehearsing World.machine)
        reapedTwice.2).2.machine.namespaces[hostNamespace]?.map (·.rules) = some [] := by
    decide +kernel
  obtain ⟨-, -, -, hhost, hhonest, -⟩ := madeTwice_results
  obtain ⟨hended, hrules, hagain⟩ := hresults
  refine ⟨hhost, hhonest, hended, fun hrid => ?_, fun hsame => ?_⟩
  · obtain ⟨ns, hns, hleft⟩ := Option.map_eq_some_iff.mp hrules
    exact (hrid.host ns hns).rules outwardRule (by decide) (hleft ▸ List.mem_singleton_self _)
  · rw [hsame, hrules] at hagain
    cases hagain

end Operation
end SlotPool
