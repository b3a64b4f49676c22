import SlotPool.Proofs.World.Screen
/-!
What may be left of a firewall in a namespace. As long as the chain is there, at most one rule sends packets to it, and
none does without it. So whatever is left can be taken away, and what else is in the namespace stays as it is.
-/

namespace SlotPool

/-- A rule keeps the chain from being deleted if it is in the chain or sends packets to it. -/
theorem Rule.keepsChain_eq (rule : Rule) :
    World.keepsChain .filter egressChain rule = (rule.inChain || rule.isHook) := by
  simp only [World.keepsChain, Rule.inChain, Rule.isHook]
  grind

theorem hookRule_keepsChain {id : SlotId} : World.keepsChain .filter egressChain id.hookRule = true := by
  rw [Rule.keepsChain_eq, (Namespace.hookRule_isHook id).2, Bool.or_true]

namespace Namespace

/-- There is no firewall in a namespace, and no rule that one might be taken for. -/
structure Unwalled (base : Namespace) : Prop where
  chain : (.filter, egressChain) ∉ base.chains
  rules : ∀ rule ∈ base.rules, World.keepsChain .filter egressChain rule = false

/-- A namespace with the chain and nothing that leads to it. -/
def chained (base : Namespace) : Namespace := { base with chains := base.chains ++ [(.filter, egressChain)] }

/-- A namespace with the chain, these rules in it, and its hook. -/
def walled (base : Namespace) (id : SlotId) (rules : List Rule) : Namespace :=
  { base with rules := base.rules ++ id.hookRule :: rules, chains := base.chains ++ [(.filter, egressChain)] }

/-- What may be left in a namespace of the firewall of a slot: nothing, or the chain with what is in it and with at
    most one hook. -/
inductive Relic (id : SlotId) (base : Namespace) : Namespace → Prop
  | nothing : Relic id base base
  | chain {rules : List Rule}
      (hothers : rules.filter (fun rule => !World.keepsChain .filter egressChain rule) = base.rules)
      (hhooks : rules.filter Rule.isHook = [] ∨ rules.filter Rule.isHook = [id.hookRule]) :
      Relic id base { base with rules, chains := base.chains ++ [(.filter, egressChain)] }

/-- A rule in the chain is no hook. -/
theorem inChain_of_isHook {rule : Rule} (h : rule.isHook = true) : rule.inChain = false := by
  simp only [Rule.isHook, Rule.inChain] at h ⊢
  grind

/-- What a chain is emptied of. -/
theorem flushChain_ok {ns ns' : Namespace} (h : World.flushChain .filter egressChain ns = .ok ns') :
    (.filter, egressChain) ∈ ns.chains ∧ ns' = { ns with rules := ns.rules.filter (!·.inChain) } := by
  unfold World.flushChain at h
  split at h
  · rename_i hchain
    refine ⟨hasChain_egress.mp hchain, ?_⟩
    rw [← Except.ok.inj h]
    have hrules (rule : Rule) :
        (!decide (rule.table = .filter ∧ rule.chain = egressChain)) = !rule.inChain := by
      rw [Rule.inChain, Bool.decide_and]
    simp only [hrules]
  · cases h

/-- A chain that could be deleted was there, and nothing but the chain has gone. -/
theorem deleteChain_ok {ns ns' : Namespace} {table : Table} {chain : String}
    (h : World.deleteChain table chain ns = .ok ns') :
    (table, chain) ∈ ns.chains ∧ ns' = { ns with chains := ns.chains.erase (table, chain) } := by
  unfold World.deleteChain at h
  split at h
  · cases h
  · rename_i hchain
    split at h
    · cases h
    · exact ⟨by simpa using hchain, (Except.ok.inj h).symm⟩

variable {id : SlotId} {base ns ns' : Namespace} {failure : NetworkError} {rules : List Rule} {rule : Rule}

theorem Unwalled.hooks (h : base.Unwalled) : base.rules.filter Rule.isHook = [] :=
  List.filter_eq_nil_iff.mpr fun rule hmem => by
    have hkeeps := h.rules rule hmem
    rw [Rule.keepsChain_eq] at hkeeps
    simp_all

theorem Unwalled.hook_notMem (h : base.Unwalled) : id.hookRule ∉ base.rules := by
  intro hmem
  have hkeeps := h.rules _ hmem
  rw [hookRule_keepsChain] at hkeeps
  cases hkeeps

/-- The rules that are left when the chain is empty and nothing leads to it. -/
theorem others_eq (hhooks : rules.filter Rule.isHook = []) (hempty : rules.filter Rule.inChain = []) :
    rules.filter (fun rule => !World.keepsChain .filter egressChain rule) = rules := by
  refine List.filter_eq_self.mpr fun rule hmem => ?_
  have hin := List.filter_eq_nil_iff.mp hempty rule hmem
  have hhook := List.filter_eq_nil_iff.mp hhooks rule hmem
  rw [Rule.keepsChain_eq]
  simp_all

namespace Relic

/-! ### Taking it away -/

/-- The rule that sends packets to the chain is the only one that may do so, so that none does once it is
    deleted. -/
theorem unhook (h : base.Relic id ns) (hbase : base.Unwalled) (hunhook : World.deleteRule id.hookRule ns = .ok ns') :
    base.Relic id ns' ∧ ns'.rules.filter Rule.isHook = [] := by
  obtain ⟨hmem, rfl⟩ := World.deleteRule_ok hunhook
  cases h with
  | nothing => exact absurd hmem hbase.hook_notMem
  | @chain rules hothers hhooks =>
    have hgone : (rules.erase id.hookRule).filter Rule.isHook = [] := by
      rw [← List.erase_filter]
      rcases hhooks with hnone | hone
      · rw [hnone, List.erase_nil]
      · rw [hone, List.erase_cons_head]
    refine ⟨.chain ?_ (.inl hgone), hgone⟩
    -- the hook is none of the other rules, so erasing it leaves them in order
    rw [← List.erase_filter, List.erase_of_not_mem, hothers]
    simp [hookRule_keepsChain]

/-- If there is no such rule to delete, nothing sends packets to the chain. -/
theorem unhook_refused (h : base.Relic id ns) (hbase : base.Unwalled)
    (hunhook : World.deleteRule id.hookRule ns = .error failure) :
    failure.isNotFound = true ∧ ns.rules.filter Rule.isHook = [] := by
  unfold World.deleteRule at hunhook
  split at hunhook
  · cases hunhook
  · rename_i habsent
    cases hunhook
    refine ⟨rfl, ?_⟩
    cases h with
    | nothing => exact hbase.hooks
    | chain hothers hhooks =>
      refine hhooks.resolve_right fun hone => habsent ?_
      exact (List.mem_filter.mp (hone ▸ List.mem_singleton_self _)).1

/-- Flushing the chain takes away all that an earlier firewall has put there. Where nothing sends packets to the
    chain, only the rules that were there at first are left. -/
theorem flush (h : base.Relic id ns) (hbase : base.Unwalled)
    (hflush : World.flushChain .filter egressChain ns = .ok ns') :
    base.Relic id ns' ∧ (ns.rules.filter Rule.isHook = [] → ns'.rules = base.rules) := by
  obtain ⟨hchain, rfl⟩ := flushChain_ok hflush
  cases h with
  | nothing => exact absurd hchain hbase.chain
  | @chain rules hothers hhooks =>
    have hsame : (rules.filter (!·.inChain)).filter Rule.isHook = rules.filter Rule.isHook := by
      rw [List.filter_filter]
      exact List.filter_congr fun rule _ => by cases hhook : rule.isHook <;> simp [inChain_of_isHook, hhook]
    have hkept : (rules.filter (!·.inChain)).filter (fun rule => !World.keepsChain .filter egressChain rule) =
        base.rules := by
      rw [← hothers, List.filter_filter]
      exact List.filter_congr fun rule _ => by rw [Rule.keepsChain_eq]; cases rule.inChain <;> simp
    refine ⟨.chain hkept (hsame ▸ hhooks), fun hnone => ?_⟩
    have hempty : (rules.filter (!·.inChain)).filter Rule.inChain = [] := by simp
    exact (others_eq (hsame.trans hnone) hempty).symm.trans hkept

/-- If the chain cannot be flushed it is absent, and then there is no relic: neither a rule in it nor one that
    leads to it. -/
theorem flush_refused (h : base.Relic id ns) (hflush : World.flushChain .filter egressChain ns = .error failure) :
    failure.isNotFound = true ∧ ns = base := by
  unfold World.flushChain at hflush
  split at hflush
  · cases hflush
  · rename_i habsent
    cases hflush
    refine ⟨rfl, ?_⟩
    cases h with
    | nothing => rfl
    | chain => exact absurd (hasChain_egress.mpr (by simp)) habsent

/-- When the chain could be deleted, the namespace is as it was at first. A chain in use is not deleted, so
    nothing has led to it. -/
theorem unchain (h : base.Relic id ns) (hbase : base.Unwalled)
    (hunchain : World.deleteChain .filter egressChain ns = .ok ns') : ns' = base := by
  obtain ⟨hhooks, hempty, -⟩ := screen_deleteChain hunchain
  obtain ⟨hchain, rfl⟩ := deleteChain_ok hunchain
  cases h with
  | nothing => exact absurd hchain hbase.chain
  | @chain rules hothers =>
    -- the chain could be deleted, so it was empty and had no hook
    have hrules : rules = base.rules := (others_eq hhooks hempty).symm.trans hothers
    have hchains : (base.chains ++ [(Table.filter, egressChain)]).erase (.filter, egressChain) = base.chains := by
      rw [List.erase_append_right _ hbase.chain, List.erase_cons_head, List.append_nil]
    simp only [hrules, hchains]

/-- When nothing is left but the chain, deleting it fails only if it is absent. -/
theorem unchain_refused (h : base.Relic id ns) (hbase : base.Unwalled) (hrules : ns.rules = base.rules)
    (hunchain : World.deleteChain .filter egressChain ns = .error failure) :
    failure.isNotFound = true ∧ ns = base := by
  have hfree : ns.rules.any (World.keepsChain .filter egressChain) = false := by
    simpa [hrules] using hbase.rules
  simp only [World.deleteChain, hfree] at hunchain
  split at hunchain
  · rename_i habsent
    cases hunchain
    refine ⟨rfl, ?_⟩
    cases h with
    | nothing => rfl
    | chain => simp at habsent
  · cases hunchain

/-! ### Making it anew -/

/-- A chain can only be made where there is none. -/
theorem newChain (h : base.Relic id ns) (hnew : World.newChain .filter egressChain ns = .ok ns') :
    ns = base ∧ ns' = base.chained := by
  unfold World.newChain at hnew
  split at hnew
  · cases hnew
  · rename_i habsent
    cases h with
    | nothing => exact ⟨rfl, (Except.ok.inj hnew).symm⟩
    | chain => exact absurd (hasChain_egress.mpr (by simp)) habsent

theorem chained (hbase : base.Unwalled) : base.Relic id base.chained :=
  .chain (List.filter_eq_self.mpr fun rule hmem => by rw [hbase.rules rule hmem]; rfl) (.inl hbase.hooks)

/-- A firewall in use is a relic too, as far as taking it away is concerned. -/
theorem walled (hbase : base.Unwalled) (hrules : ∀ rule ∈ rules, rule ∈ blockRules) :
    base.Relic id (base.walled id rules) := by
  have hkept : base.rules.filter (fun rule => !World.keepsChain .filter egressChain rule) = base.rules :=
    List.filter_eq_self.mpr fun rule hmem => by rw [hbase.rules rule hmem]; rfl
  have hothers : rules.filter (fun rule => !World.keepsChain .filter egressChain rule) = [] :=
    List.filter_eq_nil_iff.mpr fun rule hmem => by
      simp [Rule.keepsChain_eq, (blockRules_inChain (hrules rule hmem)).1]
  have hhooks : rules.filter Rule.isHook = [] :=
    List.filter_eq_nil_iff.mpr fun rule hmem => by simp [(blockRules_inChain (hrules rule hmem)).2]
  refine .chain ?_ (.inr ?_)
  · simp [List.filter_append, hkept, hothers, hookRule_keepsChain]
  · simp [List.filter_append, hbase.hooks, hhooks, hookRule_isHook]

/-- A rule that blocks goes into the chain. -/
theorem block (h : base.Relic id ns) (hbase : base.Unwalled) (hrule : rule ∈ blockRules)
    (hblock : World.appendRule rule ns = .ok ns') : base.Relic id ns' := by
  obtain ⟨hchain, -⟩ := screen_block hrule hblock
  obtain rfl := World.appendRule_ok hblock
  obtain ⟨hin, hhook⟩ := blockRules_inChain hrule
  cases h with
  | nothing => exact absurd hchain hbase.chain
  | chain hothers hhooks =>
    refine .chain ?_ ?_
    · simpa [List.filter_append, Rule.keepsChain_eq, hin] using hothers
    · simpa [List.filter_append, hhook] using hhooks

end Relic

/-! ### With the chain in place -/

theorem newChain_unwalled (hbase : base.Unwalled) : World.newChain .filter egressChain base = .ok base.chained := by
  rw [World.newChain, if_neg fun hchain => hbase.chain (hasChain_egress.mp hchain), chained]

theorem hook_chained : World.appendRule id.hookRule base.chained = .ok (base.walled id []) := rfl

/-- Flushing the chain of a firewall leaves it hooked and empty. -/
theorem flush_walled (hbase : base.Unwalled) (hrules : ∀ rule ∈ rules, rule ∈ blockRules) :
    World.flushChain .filter egressChain (base.walled id rules) = .ok (base.walled id []) := by
  have hchain : (base.walled id rules).hasChain .filter egressChain = true := hasChain_egress.mpr (by simp [walled])
  have hflush : ∃ ns, World.flushChain .filter egressChain (base.walled id rules) = .ok ns := by
    rw [World.flushChain, if_pos hchain]
    exact ⟨_, rfl⟩
  obtain ⟨ns, hns⟩ := hflush
  have hkept : base.rules.filter (!·.inChain) = base.rules :=
    List.filter_eq_self.mpr fun rule hmem => by
      have hkeeps := hbase.rules rule hmem
      rw [Rule.keepsChain_eq, Bool.or_eq_false_iff] at hkeeps
      simp [hkeeps.1]
  have hemptied : rules.filter (!·.inChain) = [] :=
    List.filter_eq_nil_iff.mpr fun rule hmem => by simp [(blockRules_inChain (hrules rule hmem)).1]
  rw [hns, (flushChain_ok hns).2]
  simp [walled, List.filter_append, hkept, hemptied, hookRule_isHook]

/-- A blocking rule goes to the end of the chain. -/
theorem block_walled (hrule : rule ∈ blockRules) :
    World.appendRule rule (base.walled id rules) = .ok (base.walled id (rules ++ [rule])) := by
  have hchain : (base.walled id rules).hasChain rule.table rule.chain = true := by
    rw [(blockRules_place hrule).1, (blockRules_place hrule).2]
    exact hasChain_egress.mpr (by simp [walled])
  rw [World.appendRule, if_pos hchain]
  simp [walled]

end Namespace

namespace World

variable {start world : World} {base ns : Namespace}

/-- Of two changes of one namespace the last counts. -/
theorem setNamespace_again {name : String} {other : Namespace} :
    (world.setNamespace name other).setNamespace name ns = world.setNamespace name ns := by
  have hsame : (world.namespaces.insert name other).insert name ns = world.namespaces.insert name ns := by
    refine Std.ExtTreeMap.ext_getElem? fun {place} => ?_
    simp only [Std.ExtTreeMap.getElem?_insert]
    split <;> rfl
  simp only [setNamespace, hsame]

/-- Putting back what is there changes nothing. -/
theorem setNamespace_same {name : String} (h : world.namespaces[name]? = some base) :
    world.setNamespace name base = world := by
  have hsame : world.namespaces.insert name base = world.namespaces := by
    refine Std.ExtTreeMap.ext_getElem? fun {place} => ?_
    rw [Std.ExtTreeMap.getElem?_insert]
    split
    · rename_i hplace
      rw [← Std.LawfulEqCmp.compare_eq_iff_eq.mp hplace, h]
    · rfl
  simp only [setNamespace, hsame]

/-- A change of the current namespace, on a machine whose current namespace is `ns`. -/
theorem edit_here {change : Namespace → Except NetworkError Namespace} :
    (start.setNamespace start.current ns).edit change =
      match change ns with
      | .error failure => (.error failure, start.setNamespace start.current ns)
      | .ok ns' => (.ok (), start.setNamespace start.current ns') := by
  have hns : (start.setNamespace start.current ns).namespaces[start.current]? = some ns :=
    Std.ExtTreeMap.getElem?_insert_self
  have hcurrent : (start.setNamespace start.current ns).current = start.current := rfl
  rw [edit, hcurrent, hns]
  cases hchange : change ns with
  | error failure => simp only [hchange]
  | ok ns' => simp only [hchange, setNamespace_again]

/-- What may be left on a machine of the firewall of a slot: the machine is as it was at first, but for what may be
    left in the namespace in which the thread is. -/
def Relic (id : SlotId) (base : Namespace) (start world : World) : Prop :=
  ∃ ns, base.Relic id ns ∧ world = start.setNamespace start.current ns

end World

/-- The calls that change no more than the current namespace, and how. -/
inductive Call.Edits : Call → (Namespace → Except NetworkError Namespace) → Prop
  | unrule {rule : Rule} : Edits (.deleteRule rule) (World.deleteRule rule)
  | rule {rule : Rule} : Edits (.appendRule rule) (World.appendRule rule)
  | flush {table : Table} {chain : String} : Edits (.flushChain table chain) (World.flushChain table chain)
  | unchain {table : Table} {chain : String} : Edits (.deleteChain table chain) (World.deleteChain table chain)
  | chain {table : Table} {chain : String} : Edits (.newChain table chain) (World.newChain table chain)

/-- How a call is answered that edits the namespace where the thread is: with the failure of the edit, and then
    nothing has changed, or with a success, and then the namespace has been edited. -/
theorem Call.Edits.answer {c : Call} {change : Namespace → Except NetworkError Namespace} {start world : World}
    {ns : Namespace} {result : Except NetworkError c.Reply} (hedits : c.Edits change)
    (h : (start.setNamespace start.current ns).answer c = (result, world)) :
    (∃ failure, change ns = .error failure ∧ result = .error failure ∧ world = start.setNamespace start.current ns) ∨
      ∃ ns' value, change ns = .ok ns' ∧ result = .ok value ∧ world = start.setNamespace start.current ns' := by
  have hedit {result : Except NetworkError Unit}
      (h : (start.setNamespace start.current ns).edit change = (result, world)) :
      (∃ failure, change ns = .error failure ∧ result = .error failure ∧ world = start.setNamespace start.current ns) ∨
        ∃ ns' value, change ns = .ok ns' ∧ result = .ok value ∧ world = start.setNamespace start.current ns' := by
    rw [World.edit_here] at h
    cases hchange : change ns with
    | error failure =>
      simp only [hchange, Prod.mk.injEq] at h
      exact .inl ⟨failure, rfl, h.1.symm, h.2.symm⟩
    | ok ns' =>
      simp only [hchange, Prod.mk.injEq] at h
      exact .inr ⟨ns', (), rfl, h.1.symm, h.2.symm⟩
  cases hedits <;> exact hedit h

end SlotPool
