import SlotPool.Proofs.Slot.Staged
import SlotPool.Proofs.World.Outside
import SlotPool.Slot.Removal
/-!
Taking a slot away from the host, exactly. What is known of the host's routes and rules before is known
afterwards: each deletion takes away one copy, and what is absent counts as taken away. A failure that says
more than that something is absent is not passed over.
-/

namespace SlotPool

open Sequence

/-- No call fails as if something were absent that is there. -/
def Hazard.Plain (hazard : Hazard) : Prop :=
  ∀ call guards failure, hazard call guards failure → failure.isNotFound = false

theorem Hazard.none_plain : Hazard.none.Plain := fun _ _ _ hstruck => hstruck.elim

namespace Sequence

variable {τ : Type} {replies : Replies τ} {pre mid post : Assertion τ} {struck : Prop}

/-- All of several sequences are run. Unless one of them fails they lead from `pre` to `post`, and where one
    fails, `struck` is true. -/
def AllLead (replies : Replies τ) (pre : Assertion τ) (list : List (Sequence Unit)) (post : Assertion τ)
    (struck : Prop) : Prop :=
  ∀ slot t, pre slot t → Ensures (ε := NetworkError) replies (fun _ => True) (attemptAll list)
    (fun failures slot t => (failures = [] → post slot t) ∧ (failures ≠ [] → struck)) (fun _ _ _ => False) slot t

theorem AllLead.nil : AllLead replies pre [] pre struck := fun _ _ hpre => ⟨fun _ => hpre, fun h => (h rfl).elim⟩

/-- Sequences that are all run do not fail as a whole. -/
theorem ensures_attemptAll {list : List (Sequence Unit)} {slot : Slot} {t : τ} :
    Ensures (ε := NetworkError) replies (fun _ => True) (attemptAll list) (fun _ _ _ => True)
      (fun _ _ _ => False) slot t := by
  have hall : Triple (ε := NetworkError) replies (fun _ => True) (fun _ _ => True) (attemptAll list)
      (fun _ _ => True) fun _ _ => False :=
    .attemptAll fun _ _ => .anything
  exact hall slot t trivial

/-- The first of several sequences leads to where the others begin. If it fails, `struck` is true already, so
    nothing has to be known of where the others begin then. -/
theorem AllLead.cons {steps : Sequence Unit} {rest : List (Sequence Unit)}
    (hsteps : Triple replies (fun _ => True) pre steps mid fun _ _ => struck)
    (hrest : AllLead replies mid rest post struck) : AllLead replies pre (steps :: rest) post struck := by
  intro slot t hpre
  rw [ensures_attemptAll_cons]
  refine (hsteps slot t hpre).mono (fun _ slot t hmid => hrest slot t hmid) fun failure slot t hstruck => ?_
  exact ensures_attemptAll.mono (fun _ _ _ _ => ⟨nofun, fun _ => hstruck⟩) fun _ _ _ => False.elim

/-- Sequences that each keep a condition keep it together. -/
theorem AllLead.same {list : List (Sequence Unit)}
    (h : ∀ steps ∈ list, Triple replies (fun _ => True) pre steps pre fun _ _ => struck) :
    AllLead replies pre list pre struck := by
  induction list with
  | nil => exact .nil
  | cons steps rest ih =>
    exact .cons (h steps (List.mem_cons_self ..)) (ih fun other hmem => h other (List.mem_cons_of_mem _ hmem))

/-- A failure of an absent thing is passed over. -/
theorem Triple.delete {name : String} {delete : Sequence Unit}
    (h : ∀ slot t, pre slot t → Ensures replies (fun _ => True) delete (fun _ => post)
      (fun failure slot t => if failure.isNotFound = true then post slot t else struck) slot t) :
    Triple replies (fun _ => True) pre (Slot.deletion name delete) post fun _ _ => struck := by
  intro slot t hpre
  rw [Slot.deletion, ensures_step, ensures_tolerant]
  exact h slot t hpre

/-- What a probe does not find needs no deletion. -/
theorem Triple.found {probe : Sequence Bool} {delete : Sequence Unit}
    (hprobe : ∀ slot t, pre slot t → Ensures replies (fun _ => True) probe
      (fun found slot t => pre slot t ∧ (found = false → post slot t)) (fun _ _ _ => struck) slot t)
    (hdelete : Triple replies (fun _ => True) pre delete post fun _ _ => struck) :
    Triple replies (fun _ => True) pre (Slot.ifFound probe delete) post fun _ _ => struck := by
  intro slot t hpre
  rw [Slot.ifFound, ensures_bind]
  refine (hprobe slot t hpre).mono (fun found slot t hfound => ?_) fun _ _ _ hstruck => hstruck
  cases found with
  | false => exact hfound.2 rfl
  | true => exact hdelete slot t hfound.1

/-- Two lists of sequences are run, and the slot forgets its network in between. The whole fails with what
    failed before and in either of them. -/
theorem AllLead.collect {cleared : Assertion τ} {prior : List NetworkError} {list last : List (Sequence Unit)}
    (hlist : AllLead replies pre list mid struck) (hforget : ∀ slot t, mid slot t → cleared slot.clearNetwork.2 t)
    (hlast : AllLead replies cleared last post struck) (hprior : prior ≠ [] → struck) :
    Triple replies (fun _ => True) pre
      (do
        let failures ← attemptAll list
        modify fun slot => slot.clearNetwork.2
        let rest ← attemptAll last
        failWith (prior ++ failures ++ rest))
      post fun _ _ => struck := by
  have hfail {failures : List NetworkError} {slot : Slot} {t : τ} (hpost : failures = [] → post slot t)
      (hstruck : failures ≠ [] → struck) : Ensures replies (fun _ => True) (failWith failures) (fun _ => post)
        (fun _ _ _ => struck) slot t := by
    rw [ensures_failWith]
    match failures with
    | [] => exact hpost rfl
    | [_] | _ :: _ :: _ => exact hstruck nofun
  intro slot t hpre
  rw [ensures_bind]
  refine (hlist slot t hpre).mono (fun failures slot t hend => ?_) fun _ _ _ => False.elim
  rw [ensures_bind, ensures_modify, ensures_bind]
  by_cases hnone : failures = []
  · refine (hlast _ t (hforget slot t (hend.1 hnone))).mono (fun rest slot t hrest => ?_) fun _ _ _ => False.elim
    refine hfail (fun hempty => hrest.1 (List.append_eq_nil_iff.mp hempty).2) fun hsome => ?_
    by_cases hclean : rest = []
    · exact hprior fun heq => hsome (by rw [heq, hnone, hclean]; rfl)
    · exact hrest.2 hclean
  · refine ensures_attemptAll.mono (fun rest slot t _ => ?_) fun _ _ _ => False.elim
    refine hfail (fun hempty => ?_) fun _ => hend.2 hnone
    exact (hnone (List.append_eq_nil_iff.mp (List.append_eq_nil_iff.mp hempty).1).2).elim

end Sequence

/-- A call that the machine refuses only for what is absent leads on. If it fails for something else, some call
    may fail, as no failure of the hazard looks like absence. -/
theorem World.ensures_delete {c : Call} {pre post : Assertion World} {hazard : Hazard} {struck : Prop}
    (hplain : hazard.Plain) (hstruck : hazard.Strikes → struck)
    (hnext : ∀ slot world result world', pre slot world → world.answer c = (result, world') →
      post slot world' ∧ ∀ failure, result = .error failure → failure.isNotFound = true)
    (slot : Slot) (world : World) (h : pre slot world) :
    Ensures (World.replies hazard) (fun _ => True) (perform c) (fun _ => post)
      (fun failure slot world => if failure.isNotFound = true then post slot world else struck) slot world := by
  rw [ensures_perform]
  refine ⟨trivial, fun result world' hreply => ?_⟩
  rcases hreply with hanswered | ⟨failure, hhazard, rfl, rfl⟩
  · obtain ⟨hpost, habsent⟩ := hnext slot world result world' h hanswered
    cases result with
    | ok value => exact hpost
    | error failure =>
      rw [byResult_error, if_pos (habsent failure rfl)]
      exact hpost
  · rw [byResult_error, if_neg (by simp [hplain _ _ _ hhazard])]
    exact hstruck ⟨_, _, _, hhazard⟩

/-- A probe changes nothing. -/
theorem World.ensures_probe {name : String} {c : Call} {ok : c.Reply → Assertion World} {hazard : Hazard}
    {struck : Prop} {slot : Slot} {world : World} {found : c.Reply} (hstruck : hazard.Strikes → struck)
    (hanswer : world.answer c = (.ok found, world)) (hok : ok found slot world) :
    Ensures (World.replies hazard) (fun _ => True) (step name (perform c)) ok (fun _ _ _ => struck) slot world := by
  rw [ensures_step, ensures_perform]
  refine ⟨trivial, fun result world' hreply => ?_⟩
  rcases hreply with hanswered | ⟨failure, hhazard, rfl, rfl⟩
  · obtain ⟨rfl, rfl⟩ := Prod.mk.inj (hanswer.symm.trans hanswered)
    exact hok
  · exact hstruck ⟨_, _, _, hhazard⟩

/-- What a slot remembers, and that the machine is as it was. -/
def Unchanged (memory : Slot → Prop) (base : World) (slot : Slot) (world : World) : Prop :=
  memory slot ∧ world = base

/-- What is absent is not deleted. -/
theorem Unchanged.refused {memory : Slot → Prop} {base : World} {c : Call} {what : String}
    (habsent : base.answer c = (.error (.notFound what), base)) (slot : Slot) (world : World)
    (result : Except NetworkError c.Reply) (world' : World) (h : Unchanged memory base slot world)
    (hanswer : world.answer c = (result, world')) :
    Unchanged memory base slot world' ∧ ∀ failure, result = .error failure → failure.isNotFound = true := by
  rw [h.2, habsent] at hanswer
  obtain ⟨rfl, rfl⟩ := Prod.mk.inj hanswer
  exact ⟨⟨h.1, rfl⟩, fun _ hresult => Except.error.inj hresult ▸ rfl⟩

namespace Unchanged

variable {hazard : Hazard} {struck : Prop} {memory : Slot → Prop} {base : World} {ns : Namespace} {id : SlotId}
  {egress name : String} (hplain : hazard.Plain) (hstruck : hazard.Strikes → struck)
  (hhere : base.namespaces[base.current]? = some ns) (hbereft : ns.Bereft id egress)
include hplain hstruck hhere hbereft

/-- Deleting a rule takes one copy of it away. That the rule is absent counts as deleted, and then taking a copy
    away changes nothing. -/
theorem unrule {rule : Rule} (hrule : rule ∈ id.hostRules egress) :
    Triple (World.replies hazard) (fun _ => True) (Unchanged memory base)
      (Slot.deletion name (perform (.deleteRule rule))) (Unchanged memory base) fun _ _ => struck :=
  .delete (World.ensures_delete hplain hstruck
    (refused (World.deleteRule_absent hhere (hbereft.rules rule hrule))))

theorem unroute :
    Triple (World.replies hazard) (fun _ => True) (Unchanged memory base)
      (Slot.deletion name (perform (.deleteRoute id.hostRoute))) (Unchanged memory base) fun _ _ => struck :=
  .delete (World.ensures_delete hplain hstruck (refused (World.deleteRoute_absent hhere hbereft.route)))

theorem unplug :
    Triple (World.replies hazard) (fun _ => True) (Unchanged memory base)
      (Slot.deletion name (perform (.deleteLink id.vethName))) (Unchanged memory base) fun _ _ => struck :=
  .delete (World.ensures_delete hplain hstruck (refused (World.deleteLink_absent hhere hbereft.veth)))

end Unchanged

/-- What a slot remembers, and what there is outside its namespace. -/
def Outlying (memory : Slot → Prop) (id : SlotId) (routes : List Route) (rules : List Rule) (plugged named : Prop)
    (slot : Slot) (world : World) : Prop :=
  memory slot ∧ world.Outside id routes rules plugged named

namespace Outlying

variable {hazard : Hazard} {struck : Prop} {memory : Slot → Prop} {id : SlotId} {egress : String}
  {routes : List Route} {rules : List Rule} {plugged named : Prop} {name : String}
  (hplain : hazard.Plain) (hstruck : hazard.Strikes → struck)
include hplain hstruck

/-- Deleting a rule takes away one copy of it. That the rule is absent counts as deleted, and then none was
    known to be there. -/
theorem unrule {rule : Rule} :
    Triple (World.replies hazard) (fun _ => True) (Outlying memory id routes rules plugged named)
      (Slot.deletion name (perform (.deleteRule rule)))
      (Outlying memory id routes (rules.erase rule) plugged named) fun _ _ => struck :=
  .delete (World.ensures_delete hplain hstruck fun _ _ _ _ h hanswer =>
    have hnext := h.2.unrule hanswer
    ⟨⟨h.1, hnext.1⟩, hnext.2⟩)

/-- Deleting several rules one after another takes one copy of each away. -/
theorem unruleAll {added : List Rule} {rest : List (Sequence Unit)} {post : Assertion World}
    (hrest : AllLead (World.replies hazard) (Outlying memory id routes (rules.diff added) plugged named) rest post
      struck) :
    AllLead (World.replies hazard) (Outlying memory id routes rules plugged named)
      (added.map (fun rule => Slot.deletion name (perform (.deleteRule rule))) ++ rest) post struck := by
  induction added generalizing rules with
  | nil => exact hrest
  | cons rule added ih =>
    rw [List.diff_cons] at hrest
    exact .cons (unrule hplain hstruck) (ih hrest)

/-- Deleting a route takes it away, and a route that is absent counts as deleted. -/
theorem unroute {route : Route} :
    Triple (World.replies hazard) (fun _ => True) (Outlying memory id routes rules plugged named)
      (Slot.deletion name (perform (.deleteRoute route)))
      (Outlying memory id (routes.erase route) rules plugged named) fun _ _ => struck :=
  .delete (World.ensures_delete hplain hstruck fun _ _ _ _ h hanswer =>
    have hnext := h.2.unroute hanswer
    ⟨⟨h.1, hnext.1⟩, hnext.2⟩)

/-- When the host's end of the cable was deleted or was absent, it is gone. -/
theorem unplug :
    Triple (World.replies hazard) (fun _ => True) (Outlying memory id routes rules plugged named)
      (Slot.deletion name (perform (.deleteLink id.vethName)))
      (Outlying memory id routes rules False named) fun _ _ => struck :=
  .delete (World.ensures_delete hplain hstruck fun _ _ _ _ h hanswer =>
    have hnext := h.2.unplug hanswer
    ⟨⟨h.1, hnext.1⟩, hnext.2⟩)

/-- When the namespace was deleted or was not on record, it is no longer on record. -/
theorem erase :
    Triple (World.replies hazard) (fun _ => True) (Outlying memory id routes rules plugged named)
      (Slot.deletion name (perform (.deleteNamespace id.namespaceName)))
      (Outlying memory id routes rules plugged False) fun _ _ => struck :=
  .delete (World.ensures_delete hplain hstruck fun _ _ _ _ h hanswer =>
    have hnext := h.2.erase hanswer
    ⟨⟨h.1, hnext.1⟩, hnext.2⟩)

omit hplain in
/-- A look for the cable changes nothing, and when it answers that there is none, there is none. -/
theorem probeVeth (slot : Slot) (world : World) (h : Outlying memory id routes rules plugged named slot world) :
    Ensures (World.replies hazard) (fun _ => True) (step name (perform (.linkExists id.vethName)))
      (fun found slot world => Outlying memory id routes rules plugged named slot world ∧
        (found = false → Outlying memory id routes rules False named slot world)) (fun _ _ _ => struck) slot world := by
  obtain ⟨ns, hns, hparts⟩ := h.2.host
  have hanswer : world.answer (.linkExists id.vethName) = (.ok (decide (id.vethName ∈ ns.links)), world) := by
    simp only [World.answer, h.2.current, hns]
  exact World.ensures_probe hstruck hanswer ⟨h, fun hfound => ⟨h.1, h.2.current,
    ⟨ns, hns, hparts.1, hparts.2.1, of_decide_eq_false hfound⟩, h.2.named⟩⟩

omit hplain in
/-- A look for the namespace changes nothing, and when it answers that there is none, there is none. -/
theorem probeNamespace (slot : Slot) (world : World)
    (h : Outlying memory id routes rules plugged named slot world) :
    Ensures (World.replies hazard) (fun _ => True) (step name (perform (.namespaceExists id.namespaceName)))
      (fun found slot world => Outlying memory id routes rules plugged named slot world ∧
        (found = false → Outlying memory id routes rules plugged False slot world)) (fun _ _ _ => struck) slot
      world :=
  World.ensures_probe hstruck rfl ⟨h, fun hfound => ⟨h.1, h.2.current, h.2.host,
    fun hname => of_decide_eq_false hfound ⟨SlotId.namespaceName_ne_host, hname⟩⟩⟩

/-- Clearing up on the host takes one copy of each of the slot's rules away, and the rest of what it looks for. -/
theorem reap :
    Triple (World.replies hazard) (fun _ => True) (Outlying (·.id = id) id routes rules True True)
      (Slot.reap egress)
      (Outlying (· = .fresh id) id (routes.erase id.hostRoute) (rules.diff (id.hostRules egress)) False False)
      fun _ _ => struck := by
  refine .get fun seen => ?_
  rintro slot world ⟨rfl, h⟩
  obtain rfl := h.1
  have hveth : AllLead (World.replies hazard) (Outlying (·.id = slot.id) slot.id routes rules True True)
      [Slot.ifFound (step "probing veth" (perform (.linkExists slot.id.vethName)))
        (Slot.deletion "deleting dangling veth" (perform (.deleteLink slot.id.vethName)))]
      (Outlying (·.id = slot.id) slot.id routes rules False True) struck :=
    .cons (.found (probeVeth hstruck) (unplug hplain hstruck)) .nil
  have hrest : AllLead (World.replies hazard) (Outlying (· = .fresh slot.id) slot.id routes rules False True)
      ((slot.id.hostRules egress).map (fun rule =>
          Slot.deletion "deleting dangling host rule" (perform (.deleteRule rule)))
        ++ [Slot.deletion "deleting dangling host route" (perform (.deleteRoute slot.id.hostRoute)),
          Slot.ifFound (step "probing namespace" (perform (.namespaceExists slot.id.namespaceName)))
            (Slot.deletion "deleting dangling namespace" (perform (.deleteNamespace slot.id.namespaceName)))])
      (Outlying (· = .fresh slot.id) slot.id (routes.erase slot.id.hostRoute)
        (rules.diff (slot.id.hostRules egress)) False False) struck :=
    unruleAll hplain hstruck (.cons (unroute hplain hstruck)
      (.cons (.found (probeNamespace hstruck) (erase hplain hstruck)) .nil))
  have hforget (after : Slot) (world : World)
      (h : Outlying (·.id = slot.id) slot.id routes rules False True after world) :
      Outlying (· = .fresh slot.id) slot.id routes rules False True after.clearNetwork.2 world :=
    ⟨by rw [← h.1]; rfl, h.2⟩
  exact AllLead.collect hveth hforget hrest (fun hprior => (hprior rfl).elim) slot world h

end Outlying
end SlotPool
