import SlotPool.Proofs.Slot.Held
/-!
A firewall can be set up again over whatever earlier ones have left in the namespace, however they ended, and it can be
taken away without a trace.
-/

namespace SlotPool

open Sequence

namespace Firewall

variable {hazard : Hazard} {id : SlotId} {start : World} {base : Namespace} {memory : Slot → Prop}

/-- Without failures the chain is taken away, whatever is left of it: the hook if there is one, then the rules,
    then the chain. Each deletion that is refused tells that there was nothing to delete. -/
theorem held_removeChain (hbase : base.Unwalled) :
    Triple (World.replies hazard) (World.Relic id base start)
      (Held hazard start memory (base.Relic id) fun _ => True) (removeChain id)
      (Held hazard start memory (base.Relic id) (· = base))
      (Held hazard start memory (base.Relic id) fun _ => False) := by
  have hunhook : Triple (World.replies hazard) (World.Relic id base start)
      (Held hazard start memory (base.Relic id) fun _ => True)
      (step "unhooking egress chain" (tolerant (perform (.deleteRule id.hookRule))))
      (Held hazard start memory (base.Relic id) (·.rules.filter Rule.isHook = []))
      (Held hazard start memory (base.Relic id) fun _ => False) :=
    Held.lenient
      (Held.edited .unrule (fun _ hns => hns) fun _ _ hns hchange =>
        (hns.unhook hbase hchange).imp_right fun hnone _ => hnone)
      fun _ _ hns _ hchange => hns.unhook_refused hbase hchange
  have hflush : Triple (World.replies hazard) (World.Relic id base start)
      (Held hazard start memory (base.Relic id) (·.rules.filter Rule.isHook = []))
      (step "flushing egress chain" (tolerant (perform (.flushChain .filter egressChain))))
      (Held hazard start memory (base.Relic id) (·.rules = base.rules))
      (Held hazard start memory (base.Relic id) fun _ => False) :=
    Held.lenient (Held.edited .flush (fun _ hns => hns) fun _ _ hns hchange => hns.flush hbase hchange)
      fun _ _ hns _ hchange => (hns.flush_refused hchange).imp_right (congrArg Namespace.rules)
  have hunchain : Triple (World.replies hazard) (World.Relic id base start)
      (Held hazard start memory (base.Relic id) (·.rules = base.rules))
      (step "deleting egress chain" (tolerant (perform (.deleteChain .filter egressChain))))
      (Held hazard start memory (base.Relic id) (· = base))
      (Held hazard start memory (base.Relic id) fun _ => False) :=
    Held.lenient
      (Held.edited .unchain (fun _ hns => hns) fun _ _ hns hchange =>
        have hnone := hns.unchain hbase hchange
        ⟨hnone ▸ .nothing, fun _ => hnone⟩)
      fun _ _ hns hrules hchange => hns.unchain_refused hbase hrules hchange
  exact .bind hunhook fun _ => .bind hflush fun _ => hunchain

/-- Whatever is left of an earlier one, a firewall is set up if no call fails, and nothing else is changed. -/
theorem held_setUp (hbase : base.Unwalled) :
    Triple (World.replies hazard) (World.Relic id base start)
      (Held hazard start (id.Records none) (base.Relic id) fun _ => True) setUp
      (Held hazard start (id.Records (some .allowed)) (base.Relic id)
        (· = base.walled id []))
      (Held hazard start (·.id = id) (base.Relic id) fun _ => False) := by
  have hanew {memory : Slot → Prop} : Triple (World.replies hazard) (World.Relic id base start)
      (Held hazard start memory (base.Relic id) (· = base))
      (step "creating egress chain" (perform (.newChain .filter egressChain)))
      (Held hazard start memory (· = base.chained) (· = base.chained))
      (Held hazard start memory (base.Relic id) fun _ => False) :=
    Held.strict .chain (fun _ hns => hns) (fun _ _ hns hchange => (hns.newChain hchange).2)
      (Namespace.newChain_unwalled hbase)
  have hhook {memory : Slot → Prop} : Triple (World.replies hazard) (World.Relic id base start)
      (Held hazard start memory (· = base.chained) (· = base.chained))
      (step "hooking egress chain" (perform (.appendRule id.hookRule)))
      (Held hazard start memory (base.Relic id) (· = base.walled id []))
      (Held hazard start memory (base.Relic id) fun _ => False) := by
    refine Held.strict .rule (fun _ hns => hns ▸ .chained hbase) (fun ns ns' hns hchange => ?_)
      Namespace.hook_chained
    obtain rfl := Except.ok.inj (Namespace.hook_chained.symm.trans (hns ▸ hchange))
    exact .walled hbase nofun
  refine .get fun seen => ?_
  rintro slot world ⟨rfl, h⟩
  obtain ⟨hid, hnone⟩ := h.1
  rw [ensures_ite, if_pos (by simp [Slot.hasFirewall, hnone]), hid]
  have hbuild : Triple (World.replies hazard) (World.Relic id base start)
      (Held hazard start (id.Records none) (base.Relic id) fun _ => True)
      (do
        removeChain id
        step "creating egress chain" (perform (.newChain .filter egressChain))
        step "hooking egress chain" (perform (.appendRule id.hookRule))
        modify fun slot => (slot.installFirewall .allowed).2)
      (Held hazard start (id.Records (some .allowed)) (base.Relic id)
        (· = base.walled id []))
      (Held hazard start (id.Records none) (base.Relic id) fun _ => False) := by
    refine .bind (held_removeChain hbase) fun _ => .bind hanew fun _ => .bind hhook fun _ => .modify ?_
    rintro slot world ⟨⟨rfl, hnone⟩, hheld⟩
    exact ⟨⟨by simp, Slot.installFirewall_firewall hnone⟩, hheld⟩
  exact (hbuild slot world h).mono (fun _ _ _ hpost => hpost) fun _ _ _ hfail => ⟨hfail.1.1, hfail.2⟩

/-- The rules of a policy are added one after another. -/
theorem held_block (hbase : base.Unwalled) {memory : Slot → Prop} {name : String} {done rules : List Rule}
    (hdone : ∀ rule ∈ done ++ rules, rule ∈ blockRules) :
    Triple (World.replies hazard) (World.Relic id base start)
      (Held hazard start memory (base.Relic id) (· = base.walled id done))
      (rules.forM fun rule => step name (perform (.appendRule rule)))
      (Held hazard start memory (base.Relic id) (· = base.walled id (done ++ rules)))
      (Held hazard start memory (base.Relic id) fun _ => False) := by
  induction rules generalizing done with
  | nil =>
    rw [List.append_nil]
    exact fun _ _ h => h
  | cons rule rules ih =>
    have hrule : rule ∈ blockRules := hdone rule (List.mem_append_right _ (List.mem_cons_self ..))
    have hadd : Triple (World.replies hazard) (World.Relic id base start)
        (Held hazard start memory (base.Relic id) (· = base.walled id done))
        (step name (perform (.appendRule rule)))
        (Held hazard start memory (base.Relic id) (· = base.walled id (done ++ [rule])))
        (Held hazard start memory (base.Relic id) fun _ => False) :=
      Held.strict .rule (fun _ hns => hns) (fun _ _ hns hchange => hns.block hbase hrule hchange)
        (Namespace.block_walled hrule)
    have hsplit : done ++ rule :: rules = done ++ [rule] ++ rules := by simp
    have hrest := ih (hsplit ▸ hdone)
    rw [← hsplit] at hrest
    exact .bind hadd fun _ => hrest

/-- Where a firewall is in place and no call fails, a policy is applied, whatever it was before: the chain is
    flushed, so that what was in it does not matter. -/
theorem held_configure (hbase : base.Unwalled) {before policy : Internet} :
    Triple (World.replies hazard) (World.Relic id base start)
      (Held hazard start (id.Records (some before)) (base.Relic id) (· = base.walled id before.rules))
      (configure policy)
      (Held hazard start (id.Records (some policy)) (base.Relic id) (· = base.walled id policy.rules))
      (Held hazard start (·.id = id) (base.Relic id) fun _ => False) := by
  have hflush {memory : Slot → Prop} : Triple (World.replies hazard) (World.Relic id base start)
      (Held hazard start memory (base.Relic id) (· = base.walled id before.rules))
      (step "flushing egress chain" (perform (.flushChain .filter egressChain)))
      (Held hazard start memory (base.Relic id) (· = base.walled id []))
      (Held hazard start memory (base.Relic id) fun _ => False) :=
    Held.strict .flush (fun _ hns => hns) (fun _ _ hns hchange => (hns.flush hbase hchange).1)
      (Namespace.flush_walled hbase Internet.rules_block)
  have happly : Triple (World.replies hazard) (World.Relic id base start)
      (Held hazard start (id.Records (some before)) (base.Relic id) (· = base.walled id before.rules))
      (do
        step "flushing egress chain" (perform (.flushChain .filter egressChain))
        policy.rules.forM fun rule => step "blocking internet access" (perform (.appendRule rule))
        modify fun slot => slot.setInternet policy)
      (Held hazard start (id.Records (some policy)) (base.Relic id) (· = base.walled id policy.rules))
      (Held hazard start (id.Records (some before)) (base.Relic id) fun _ => False) := by
    refine .bind hflush fun _ => .bind (held_block hbase Internet.rules_block) fun _ => .modify ?_
    rintro slot world ⟨⟨hid, hbefore⟩, hheld⟩
    exact ⟨⟨by simpa using hid, Slot.setInternet_firewall (by simp [Slot.hasFirewall, hbefore])⟩, hheld⟩
  refine .get fun seen => ?_
  rintro slot world ⟨rfl, h⟩
  have hhas : slot.hasFirewall = true := by simp [Slot.hasFirewall, h.1.2]
  rw [ensures_ite, if_neg (by simp [hhas])]
  exact (happly slot world h).mono (fun _ _ _ hpost => hpost) fun _ _ _ hfail => ⟨hfail.1.1, hfail.2⟩

/-- A firewall is taken away if no call fails, and nothing else in the namespace is changed. -/
theorem held_close (hbase : base.Unwalled) {before : Internet} :
    Triple (World.replies hazard) (World.Relic id base start)
      (Held hazard start (id.Records (some before)) (base.Relic id) fun _ => True) close
      (Held hazard start (id.Records none) (base.Relic id) (· = base))
      (Held hazard start (·.id = id) (base.Relic id) fun _ => False) := by
  refine .get fun seen => ?_
  rintro slot world ⟨rfl, h⟩
  obtain ⟨rfl, hbefore⟩ := h.1
  have hforgotten : Held hazard start (slot.id.Records none) (base.Relic slot.id) (fun _ => True)
      slot.takeFirewall.2 world := ⟨⟨by simp, by simp⟩, h.2⟩
  have hremoved := held_removeChain hbase _ _ hforgotten
  have hclose : Ensures (World.replies hazard) (World.Relic slot.id base start)
      (if slot.takeFirewall.1.isSome then removeChain slot.id else pure ())
      (fun _ => Held hazard start (slot.id.Records none) (base.Relic slot.id) (· = base))
      (fun _ => Held hazard start (slot.id.Records none) (base.Relic slot.id) fun _ => False)
      slot.takeFirewall.2 world := by
    rw [if_pos (by simp [hbefore])]
    exact hremoved
  exact hclose.mono (fun _ _ _ hpost => hpost) fun _ _ _ hfail => ⟨hfail.1.1, hfail.2⟩

/-! ### Jobs in a row -/

/-- The policy that a job leaves in place. -/
def Job.policy : Job → Internet → Internet
  | .configure policy, _ => policy
  | .reset, _ => .allowed
  | .setUp, policy | .close, policy => policy

/-- The policy after several jobs, the first of which find a firewall that has just been set up. -/
def lastPolicy (jobs : List Job) : Internet := jobs.foldl (fun policy job => job.policy policy) .allowed

/-- Where a firewall is in place it is not set up again. -/
theorem setUp_done {τ : Type} {replies : Replies τ} {inv : τ → Prop} {ok : Unit → Slot → τ → Prop}
    {err : NetworkError → Slot → τ → Prop} {slot : Slot} {t : τ} (h : slot.hasFirewall = true) :
    Ensures replies inv setUp ok err slot t ↔ ok () slot t := by
  rw [setUp, ensures_bind, ensures_get, ensures_ite, if_neg (by simp [h])]
  rfl

theorem configure_missing {τ : Type} {replies : Replies τ} {inv : τ → Prop} {ok : Unit → Slot → τ → Prop}
    {err : NetworkError → Slot → τ → Prop} {slot : Slot} {t : τ} {policy : Internet} (h : slot.firewall = none) :
    Ensures replies inv (configure policy) ok err slot t ↔ err (.firewallMissing slot.id.val) slot t := by
  simp [configure, Slot.hasFirewall, h]

/-- There is nothing to close for a slot that remembers no firewall. -/
theorem close_done {τ : Type} {replies : Replies τ} {inv : τ → Prop} {ok : Unit → Slot → τ → Prop}
    {err : NetworkError → Slot → τ → Prop} {slot : Slot} {t : τ} (h : slot.firewall = none) :
    Ensures replies inv close ok err slot t ↔ ok () slot.takeFirewall.2 t := by
  have hnone : slot.takeFirewall.1.isSome = false := by simp [h]
  have hclose : Ensures replies inv close ok err slot t ↔
      Ensures replies inv (if slot.takeFirewall.1.isSome then removeChain slot.id else pure ()) ok err
        slot.takeFirewall.2 t := Iff.rfl
  rw [hclose, hnone]
  rfl

/-- Where none of the jobs closes the firewall and no call fails, each leaves its policy in place. -/
theorem held_job (hbase : base.Unwalled) {job : Job} (hjob : job ≠ .close) {before : Internet} :
    Triple (World.replies hazard) (World.Relic id base start)
      (Held hazard start (id.Records (some before)) (base.Relic id) (· = base.walled id before.rules)) job.steps
      (Held hazard start (id.Records (some (job.policy before))) (base.Relic id)
        (· = base.walled id (job.policy before).rules))
      (Held hazard start (·.id = id) (base.Relic id) fun _ => False) := by
  cases job with
  | setUp => exact fun slot world h => (setUp_done (by simp [Slot.hasFirewall, h.1.2])).mpr h
  | configure policy => exact held_configure hbase
  | reset => exact held_configure hbase
  | close => exact (hjob rfl).elim

/-- Jobs other than closing keep the firewall in place, and after each the chain has the rules of the policy
    that the jobs up to it have asked for. -/
theorem held_jobs (hbase : base.Unwalled) {jobs : List Job} (hjobs : .close ∉ jobs) {before : Internet} :
    Triple (World.replies hazard) (World.Relic id base start)
      (Held hazard start (id.Records (some before)) (base.Relic id) (· = base.walled id before.rules))
      (jobs.forM Job.steps)
      (Held hazard start (id.Records (some (jobs.foldl (fun policy job => job.policy policy) before))) (base.Relic id)
        (· = base.walled id (jobs.foldl (fun policy job => job.policy policy) before).rules))
      (Held hazard start (·.id = id) (base.Relic id) fun _ => False) := by
  induction jobs generalizing before with
  | nil => exact fun _ _ h => h
  | cons job jobs ih =>
    rw [List.mem_cons, not_or] at hjobs
    exact .bind (held_job hbase (Ne.symm hjobs.1)) fun _ => ih hjobs.2

/-! ### What earlier jobs have left -/

/-- A machine on which jobs have been done for slots of one identity, whatever each slot remembered, whichever calls
    failed and whichever of them ended a job. -/
inductive History (id : SlotId) (start : World) : World → Prop
  | untouched : History id start start
  | done {slot : Slot} {job : Job} {world later : World} {outcome : Option (Except NetworkError Unit × Slot)}
      (h : History id start world) (hid : slot.id = id)
      (hleads : Program.Leads (job.steps.run.run slot) world outcome later) : History id start later

/-- Whatever comes of a job, it leaves no more than what may be left of a firewall. This is asked of every
    reply, so it also holds where a job is cut off. -/
theorem relic_job (hbase : base.Unwalled) (job : Job) :
    Triple (World.replies .any) (World.Relic id base start)
      (fun slot world => slot.id = id ∧ World.Relic id base start world) job.steps
      (fun _ => World.Relic id base start) fun _ => World.Relic id base start := by
  rintro slot world ⟨hid, hrelic⟩
  have hconfigure (policy : Internet) : Ensures (World.replies .any) (World.Relic id base start) (configure policy)
      (fun _ _ => World.Relic id base start) (fun _ _ => World.Relic id base start) slot world := by
    cases hrecord : slot.firewall with
    | none => exact (configure_missing hrecord).mpr hrelic
    | some before => exact Held.leaves (held_configure hbase) ⟨hid, hrecord⟩ hrelic
  cases job with
  | setUp =>
    cases hrecord : slot.firewall with
    | none => exact Held.leaves (held_setUp hbase) ⟨hid, hrecord⟩ hrelic
    | some before => exact (setUp_done (by simp [Slot.hasFirewall, hrecord])).mpr hrelic
  | configure policy => exact hconfigure policy
  | reset => exact hconfigure .allowed
  | close =>
    cases hrecord : slot.firewall with
    | none => exact (close_done hrecord).mpr hrelic
    | some before => exact Held.leaves (held_close hbase) ⟨hid, hrecord⟩ hrelic

/-- Whatever jobs were done for slots of one identity, and however each of them ended, what they may have left
    is a relic: a part of a hook, a chain and blocking rules, and nothing else. -/
theorem History.relic (hbase : base.Unwalled) (hhere : start.namespaces[start.current]? = some base) {world : World}
    (h : History id start world) : World.Relic id base start world := by
  induction h with
  | untouched => exact ⟨base, .nothing, (World.setNamespace_same hhere).symm⟩
  | @done slot job world later outcome h hid hleads ih =>
    have hend := (job.plain slot).leads (relic_job hbase job slot world ⟨hid, ih⟩) hleads
    -- what may be left is the same however the job ended
    match outcome with
    | none => exact hend
    | some (.ok value, after) => exact hend
    | some (.error failure, after) => exact hend

/-! ### Setting it up again -/

/-- Whatever jobs with failures have left in a namespace, a firewall is set up over it if no call fails: the chain is
    there and empty, it has its hook, and every other rule is in its place. Until it is closed the chain has the rules
    of the last policy, and then nothing of it is left. -/
theorem setUp_anew (hhere : start.namespaces[start.current]? = some base) (hbase : base.Unwalled) {world : World}
    (h : History id start world) {slot : Slot} (hid : slot.id = id) (hnone : slot.firewall = none) :
    ∃ ready, (setUp.run.run slot).run World.machine world =
        (some (.ok (), ready), start.setNamespace start.current (base.walled id [])) ∧
      id.Records (some .allowed) ready ∧
      ∀ jobs, .close ∉ jobs → ∃ used,
        ((jobs.forM Job.steps).run.run ready).run World.machine
            (start.setNamespace start.current (base.walled id [])) =
          (some (.ok (), used), start.setNamespace start.current (base.walled id (lastPolicy jobs).rules)) ∧
        id.Records (some (lastPolicy jobs)) used ∧
        ∃ closed, (close.run.run used).run World.machine
            (start.setNamespace start.current (base.walled id (lastPolicy jobs).rules)) =
          (some (.ok (), closed), start) ∧
        id.Records none closed := by
  obtain ⟨ns, hns, rfl⟩ := h.relic hbase hhere
  obtain ⟨ready, hready, hrecord⟩ :=
    Held.run (held_setUp hbase) ⟨⟨hid, hnone⟩, ns, hns, fun _ => trivial, rfl⟩
  refine ⟨ready, hready, hrecord, fun jobs hjobs => ?_⟩
  obtain ⟨used, hused, hlast⟩ := Held.run (held_jobs hbase hjobs)
    ⟨hrecord, _, .walled hbase Internet.rules_block, fun _ => rfl, rfl⟩
  obtain ⟨closed, hclosed, hgone⟩ := Held.run (held_close hbase)
    ⟨hlast, _, .walled hbase Internet.rules_block, fun _ => trivial, rfl⟩
  rw [World.setNamespace_same hhere] at hclosed
  exact ⟨used, hused, hlast, closed, hclosed, hgone⟩

/-- The chain cannot be hooked. -/
def hookFault : Fault := ⟨"append_rule", 0, 1, some (.command "iptables" "failed")⟩

/-- The chain was made and could not be hooked. The next attempt takes it away and makes it anew, its firewall
    can be used, and closing it leaves the namespace as it was at first. -/
theorem setUp_anew_unhooked :
    let broken := ((setUp.run.run (.fresh 0)).run (Rehearsal.rehearsing World.machine)
      (Rehearsal.order (.start .fresh) hookFault)).2.machine
    ∃ ready, (setUp.run.run (.fresh 0)).run World.machine broken =
        (some (.ok (), ready), World.fresh.setNamespace hostNamespace (World.freshHost.walled 0 [])) ∧
      ∃ used, (([.configure .blocked, .setUp].forM Job.steps).run.run ready).run World.machine
            (World.fresh.setNamespace hostNamespace (World.freshHost.walled 0 [])) =
          (some (.ok (), used), World.fresh.setNamespace hostNamespace (World.freshHost.walled 0 blockRules)) ∧
        ∃ closed, (close.run.run used).run World.machine
            (World.fresh.setNamespace hostNamespace (World.freshHost.walled 0 blockRules)) =
          (some (.ok (), closed), World.fresh) := by
  have hhere : World.fresh.namespaces[World.fresh.current]? = some World.freshHost :=
    Std.ExtTreeMap.getElem?_insert_self
  have hbase : World.freshHost.Unwalled := ⟨nofun, nofun⟩
  have hbroken : History 0 .fresh ((setUp.run.run (.fresh 0)).run (Rehearsal.rehearsing World.machine)
      (Rehearsal.order (.start .fresh) hookFault)).2.machine :=
    @History.done _ _ (.fresh 0) .setUp _ _ _ .untouched rfl
      ⟨_, Rehearsal.rehearsing World.machine, (·.machine), _, _, Rehearsal.rehearsing_within, rfl, rfl, rfl⟩
  obtain ⟨ready, hready, -, hjobs⟩ := @setUp_anew 0 _ _ hhere hbase _ hbroken (.fresh 0) rfl rfl
  obtain ⟨used, hused, -, closed, hclosed, -⟩ := hjobs [.configure .blocked, .setUp] (by simp)
  exact ⟨ready, hready, used, hused, closed, hclosed⟩

end Firewall

end SlotPool
