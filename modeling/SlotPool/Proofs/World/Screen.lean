import SlotPool.Proofs.Address.Names
import SlotPool.Proofs.World.Places
/-!
The part of a slot's namespace that decides what leaves the sandbox: the chain, its rules, and the
rules that send packets through it. Calls for one slot leave the screens of all others alone, wherever
the thread is.
-/

namespace SlotPool

/-- What decides what leaves a sandbox. -/
structure Screen where
  /-- the rules that send packets to the chain -/
  hooks : List Rule
  /-- the rules in the chain -/
  rules : List Rule
  /-- the chains that were made -/
  chains : List (Table × String)
  deriving DecidableEq

/-- A rule in the chain. -/
def Rule.inChain (rule : Rule) : Bool := rule.table = .filter && rule.chain = egressChain

/-- A rule outside of the chain that sends packets to it. -/
def Rule.isHook (rule : Rule) : Bool :=
  rule.table = .filter && rule.chain ≠ egressChain && rule.spec.getLast? = some egressChain

/-- The screen of a namespace. -/
def Namespace.screen (ns : Namespace) : Screen where
  hooks := ns.rules.filter Rule.isHook
  rules := ns.rules.filter Rule.inChain
  chains := ns.chains

/-- The screen in the namespace of a slot, if the namespace is there. -/
def World.screen (world : World) (id : SlotId) : Option Screen :=
  world.namespaces[id.namespaceName]?.map Namespace.screen

namespace Namespace

variable {ns ns' : Namespace}

/-- Rules that have nothing to do with the chain do not show in the screen. -/
theorem screen_appendRule {rule : Rule} (hplain : rule.inChain = false ∧ rule.isHook = false)
    (h : World.appendRule rule ns = .ok ns') : ns'.screen = ns.screen := by
  unfold World.appendRule at h
  split at h
  · obtain rfl := by simpa using h
    simp [screen, List.filter_append, hplain.1, hplain.2]
  · cases h

/-- A rule that neither is in the chain nor leads to it is no part of the screen. -/
theorem screen_deleteRule {rule : Rule} (hplain : rule.inChain = false ∧ rule.isHook = false)
    (h : World.deleteRule rule ns = .ok ns') : ns'.screen = ns.screen := by
  unfold World.deleteRule at h
  split at h
  · obtain rfl := by simpa using h
    have hin : rule ∉ ns.rules.filter Rule.inChain := by simp [hplain.1]
    have hhook : rule ∉ ns.rules.filter Rule.isHook := by simp [hplain.2]
    simp only [screen, ← List.erase_filter, List.erase_of_not_mem hin, List.erase_of_not_mem hhook]
  · cases h

theorem hasChain_egress : ns.hasChain .filter egressChain = true ↔ (.filter, egressChain) ∈ ns.chains := by
  have hbuiltin : (Table.filter, egressChain) ∉ builtinChains := by decide
  rw [hasChain, decide_eq_false hbuiltin, Bool.false_or, decide_eq_true_iff]

theorem blockRules_inChain {rule : Rule} (hrule : rule ∈ blockRules) :
    rule.inChain = true ∧ rule.isHook = false := by
  simp only [blockRules, List.mem_cons, List.not_mem_nil, or_false] at hrule
  rcases hrule with rfl | rfl <;> simp [Rule.inChain, Rule.isHook]

theorem hookRule_isHook (id : SlotId) :
    id.hookRule.inChain = false ∧ id.hookRule.isHook = true := by
  simp [Rule.inChain, Rule.isHook, SlotId.hookRule, egressChain]

/-- Flushing the chain leaves its hooks. -/
theorem screen_flushChain (h : World.flushChain .filter egressChain ns = .ok ns') :
    (.filter, egressChain) ∈ ns.chains ∧ ns'.screen = { ns.screen with rules := [] } := by
  unfold World.flushChain at h
  split at h
  · rename_i hchain
    obtain rfl := by simpa using h
    refine ⟨hasChain_egress.mp hchain, ?_⟩
    simp only [screen, List.filter_filter, Screen.mk.injEq, and_true]
    constructor
    · refine List.filter_congr fun rule _ => ?_
      simp only [Rule.isHook]
      grind
    · refine List.filter_eq_nil_iff.mpr fun rule _ => ?_
      simp only [Rule.inChain]
      grind
  · cases h

/-- A rule that blocks can only be added to a chain that is there. -/
theorem screen_block {rule : Rule} (hrule : rule ∈ blockRules)
    (h : World.appendRule rule ns = .ok ns') :
    (.filter, egressChain) ∈ ns.chains ∧
      ns'.screen = { ns.screen with rules := ns.screen.rules ++ [rule] } := by
  have hplace := blockRules_place hrule
  unfold World.appendRule at h
  split at h
  · rename_i hchain
    obtain rfl := by simpa using h
    rw [hplace.1, hplace.2] at hchain
    refine ⟨hasChain_egress.mp hchain, ?_⟩
    simp [screen, List.filter_append, blockRules_inChain hrule]
  · cases h

/-- Hooking the chain adds one hook to the screen. -/
theorem screen_hook {id : SlotId} (h : World.appendRule id.hookRule ns = .ok ns') :
    ns'.screen = { ns.screen with hooks := ns.screen.hooks ++ [id.hookRule] } := by
  unfold World.appendRule at h
  split at h
  · obtain rfl := by simpa using h
    simp [screen, List.filter_append, hookRule_isHook]
  · cases h

/-- Unhooking takes one hook away from it. -/
theorem screen_unhook {id : SlotId} (h : World.deleteRule id.hookRule ns = .ok ns') :
    ns'.screen = { ns.screen with hooks := ns.screen.hooks.erase id.hookRule } := by
  unfold World.deleteRule at h
  split at h
  · obtain rfl := by simpa using h
    have hin : id.hookRule ∉ ns.rules.filter Rule.inChain := by simp [hookRule_isHook]
    simp only [screen, ← List.erase_filter, List.erase_of_not_mem hin]
  · cases h

/-- A chain is made where there is none, and it is new in the screen as well. -/
theorem screen_newChain (h : World.newChain .filter egressChain ns = .ok ns') :
    (.filter, egressChain) ∉ ns.chains ∧
      ns'.screen = { ns.screen with chains := ns.chains ++ [(.filter, egressChain)] } := by
  unfold World.newChain at h
  split at h
  · cases h
  · rename_i hchain
    obtain rfl := by simpa using h
    exact ⟨fun hmem => hchain (hasChain_egress.mpr hmem), rfl⟩

/-- A chain can only be deleted when it is empty and nothing goes through it. -/
theorem screen_deleteChain (h : World.deleteChain .filter egressChain ns = .ok ns') :
    ns.screen.hooks = [] ∧ ns.screen.rules = [] ∧
      ns'.screen = { ns.screen with chains := ns.chains.erase (.filter, egressChain) } := by
  unfold World.deleteChain at h
  split at h
  · cases h
  · split at h
    · cases h
    · rename_i hfree
      obtain rfl := by simpa using h
      have hrules : ∀ rule ∈ ns.rules, World.keepsChain .filter egressChain rule = false := by
        simpa using hfree
      refine ⟨List.filter_eq_nil_iff.mpr fun rule hrule => ?_,
        List.filter_eq_nil_iff.mpr fun rule hrule => ?_, rfl⟩
      · have hkeeps := hrules rule hrule
        simp only [World.keepsChain, Rule.isHook] at hkeeps ⊢
        grind
      · have hkeeps := hrules rule hrule
        simp only [World.keepsChain, Rule.inChain] at hkeeps ⊢
        grind

end Namespace

/-- The rules of a slot that are not about the chain. -/
theorem SlotId.hostRules_plain {id : SlotId} {egress : String} {rule : Rule}
    (hrule : rule ∈ id.hostRules egress) : rule.inChain = false ∧ rule.isHook = false := by
  simp only [hostRules, List.mem_cons, List.not_mem_nil, or_false] at hrule
  rcases hrule with rfl | rfl | rfl <;> simp [Rule.inChain, Rule.isHook, egressChain]

theorem SlotId.natRules_plain {id : SlotId} {rule : Rule} (hrule : rule ∈ id.natRules) :
    rule.inChain = false ∧ rule.isHook = false := by
  simp only [natRules, List.mem_cons, List.not_mem_nil, or_false] at hrule
  rcases hrule with rfl | rfl <;> simp [Rule.inChain, Rule.isHook]

namespace World

variable {world after : World} {id other : SlotId} {egress : String}

theorem screen_setNamespace {name : String} {ns : Namespace} :
    (world.setNamespace name ns).screen id =
      if name = id.namespaceName then some ns.screen else world.screen id := by
  simp only [screen, setNamespace, Std.ExtTreeMap.getElem?_insert, Std.LawfulEqCmp.compare_eq_iff_eq]
  split <;> rfl

/-- A change of the current namespace that does not touch its screen. -/
theorem screen_edit {change : Namespace → Except NetworkError Namespace}
    (hchange : ∀ ns ns', change ns = .ok ns' → ns'.screen = ns.screen)
    (h : world.edit change = (.ok (), after)) : after.screen id = world.screen id := by
  obtain ⟨ns, ns', hns, hchanged, rfl⟩ := edit_ok h
  rw [screen_setNamespace]
  split
  · rename_i hcurrent
    rw [screen, ← hcurrent, hns, hchange ns ns' hchanged]
    rfl
  · rfl

/-- A change of the current namespace, which is not the slot's. -/
theorem screen_edit_elsewhere {change : Namespace → Except NetworkError Namespace}
    (hcurrent : world.current ≠ id.namespaceName) (h : world.edit change = (.ok (), after)) :
    after.screen id = world.screen id := by
  obtain ⟨ns, ns', -, -, rfl⟩ := edit_ok h
  rw [screen_setNamespace, if_neg hcurrent]

theorem screen_dropPeer {link : String} : (world.dropPeer link).screen id = world.screen id := by
  unfold dropPeer
  split
  · rfl
  · simp only [screen, Std.ExtTreeMap.getElem?_map, Option.map_map]
    rfl

theorem screen_dropPeers {links : List String} :
    (links.foldl dropPeer world).screen id = world.screen id := by
  induction links generalizing world with
  | nil => rfl
  | cons link links ih => rw [List.foldl_cons, ih, screen_dropPeer]

theorem screen_deleteNamed {name : String} (h : world.deleteNamed name = (.ok (), after)) :
    after.screen id = if name = id.namespaceName then none else world.screen id := by
  obtain ⟨-, ns, -, rfl⟩ := deleteNamed_ok h
  simp only [screen_dropPeers]
  simp only [screen, Std.ExtTreeMap.getElem?_erase, Std.LawfulEqCmp.compare_eq_iff_eq]
  split <;> rfl

/-- Cables are no part of any screen. -/
theorem screen_layCable {name peer : String} (h : world.layCable name peer = (.ok (), after)) :
    after.screen id = world.screen id := by
  obtain ⟨ns, hns, rfl⟩ := layCable_ok h
  have hset (changed : Namespace) : (world.setNamespace world.current changed).screen id =
      if world.current = id.namespaceName then some changed.screen else world.screen id :=
    screen_setNamespace
  refine (hset _).trans ?_
  split
  · rename_i hcurrent
    rw [screen, ← hcurrent, hns]
    rfl
  · rfl

/-- Moving a device from one namespace to another changes the screen of neither. -/
theorem screen_moveLink {link : String} {target : Handle}
    (h : world.moveLink link target = (.ok (), after)) : after.screen id = world.screen id := by
  obtain ⟨-, ns, hns, -, rfl⟩ := moveLink_ok h
  -- the link's old namespace and its new one may be the same
  have hmoved : ((world.namespaces.insert world.current (ns.dropLink link)).modify target.label
      fun ns => { ns with links := ns.links.insert link .plain })[id.namespaceName]?.map
        Namespace.screen =
      (world.namespaces.insert world.current (ns.dropLink link))[id.namespaceName]?.map
        Namespace.screen := by
    rw [Std.ExtTreeMap.getElem?_modify]
    split
    · rename_i htarget
      rw [Std.LawfulEqCmp.compare_eq_iff_eq.mp htarget, Option.map_map]
      rfl
    · rfl
  refine hmoved.trans ?_
  rw [Std.ExtTreeMap.getElem?_insert]
  split
  · rename_i hcurrent
    rw [screen, ← Std.LawfulEqCmp.compare_eq_iff_eq.mp hcurrent, hns]
    rfl
  · rfl

/-- Deleting a device changes no screen, even when the other end of its cable goes with it. -/
theorem screen_deleteLink {link : String} (h : world.deleteLink link = (.ok (), after)) :
    after.screen id = world.screen id := by
  obtain ⟨ns, hns, -, rfl⟩ := deleteLink_ok h
  rw [screen_dropPeer, screen_setNamespace]
  split
  · rename_i hcurrent
    rw [screen, ← hcurrent, hns]
    rfl
  · rfl

/-- What is done to a link inside a namespace does not touch the screen. -/
theorem screen_setLinkUp {name : String} {ns ns' : Namespace} (h : setLinkUp name ns = .ok ns') :
    ns'.screen = ns.screen := by
  unfold setLinkUp at h
  split at h
  · cases h
  · obtain rfl := by simpa using h
    rfl

/-- Addresses are no part of the screen. -/
theorem screen_addAddress {name : String} {address : Cidr} {ns ns' : Namespace}
    (h : addAddress name address ns = .ok ns') : ns'.screen = ns.screen := by
  unfold addAddress at h
  split at h
  · cases h
  · split at h
    · cases h
    · obtain rfl := by simpa using h
      rfl

/-- A tap device is no part of the screen. -/
theorem screen_addTap {name : String} {ns ns' : Namespace} (h : addTap name ns = .ok ns') :
    ns'.screen = ns.screen := by
  unfold addTap at h
  split at h
  · cases h
  · obtain rfl := by simpa using h
    rfl

/-- A new route is no part of the screen. -/
theorem screen_addRoute {route : Route} {ns ns' : Namespace} (h : addRoute route ns = .ok ns') :
    ns'.screen = ns.screen := by
  unfold addRoute at h
  split at h
  · cases h
  · obtain rfl := by simpa using h
    rfl

/-- Nor is a route that goes. -/
theorem screen_deleteRoute {route : Route} {ns ns' : Namespace} (h : deleteRoute route ns = .ok ns') :
    ns'.screen = ns.screen := by
  unfold deleteRoute at h
  split at h
  · obtain rfl := by simpa using h
    rfl
  · cases h

/-- The calls made wherever the thread is touch no screen at all. -/
theorem screen_outer {call : Call} {value : call.Reply} (hcall : Call.Outer other egress call)
    (h : world.answer call = (.ok value, after)) : after.screen id = world.screen id := by
  cases hcall with
  | onRecord =>
    obtain ⟨-, rfl⟩ := by simpa [answer] using h
    rfl
  | probe => rw [linkExists_ok h]
  | up => exact screen_edit (fun _ _ => screen_setLinkUp) h
  | address => exact screen_edit (fun _ _ => screen_addAddress) h
  | unplug => exact screen_deleteLink h
  | route => exact screen_edit (fun _ _ => screen_addRoute) h
  | unroute => exact screen_edit (fun _ _ => screen_deleteRoute) h
  | rule rule hrule =>
    exact screen_edit (fun _ _ => Namespace.screen_appendRule (SlotId.hostRules_plain hrule)) h
  | unrule rule hrule =>
    exact screen_edit (fun _ _ => Namespace.screen_deleteRule (SlotId.hostRules_plain hrule)) h

/-- Nor do the calls that furnish a namespace. -/
theorem screen_inner {back : Handle → Prop} {call : Call} {value : call.Reply}
    (hcall : Call.Inner other back call) (h : world.answer call = (.ok value, after)) :
    after.screen id = world.screen id := by
  cases hcall with
  | cable => exact screen_layCable h
  | up link hlink => exact screen_edit (fun _ _ => screen_setLinkUp) h
  | vpeer => exact screen_edit (fun _ _ => screen_addAddress) h
  | move origin horigin => exact screen_moveLink h
  | tap => exact screen_edit (fun _ _ => screen_addTap) h
  | address => exact screen_edit (fun _ _ => screen_addAddress) h
  | route => exact screen_edit (fun _ _ => screen_addRoute) h
  | rule rule hrule =>
    exact screen_edit (fun _ _ => Namespace.screen_appendRule (SlotId.natRules_plain hrule)) h

theorem screen_enter {target : Handle} (h : world.enter target = (.ok (), after)) :
    after.screen id = world.screen id := by
  obtain ⟨-, rfl⟩ := enter_ok h
  rfl

end World
end SlotPool
