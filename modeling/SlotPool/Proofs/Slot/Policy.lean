import SlotPool.Proofs.World.Screen
/-!
The policy of a slot as it stands on the machine. Whatever fails on the way, the screen of a slot is
sound, a slot that remembers a firewall has one, and a slot whose policy was applied has that policy.
-/

namespace SlotPool

open Sequence

/-- The screen of a slot under a policy. -/
def SlotId.standing (id : SlotId) (policy : Internet) : Screen where
  hooks := [id.hookRule]
  rules := policy.rules
  chains := [(.filter, egressChain)]

namespace Screen

/-- Without a chain there is nothing; with a chain there may be its one hook. -/
def Sound (id : SlotId) (screen : Screen) : Prop :=
  screen = ⟨[], [], []⟩ ∨ screen.chains = [(.filter, egressChain)] ∧
    (screen.hooks = [] ∨ screen.hooks = [id.hookRule])

/-- The chain is there, and what the tap device forwards goes through it. -/
def Hooked (id : SlotId) (screen : Screen) : Prop :=
  screen.chains = [(.filter, egressChain)] ∧ screen.hooks = [id.hookRule]

variable {id : SlotId} {screen : Screen}

theorem Hooked.sound (h : screen.Hooked id) : screen.Sound id := .inr ⟨h.1, .inr h.2⟩

theorem standing_hooked (policy : Internet) : (id.standing policy).Hooked id := ⟨rfl, rfl⟩

theorem Sound.setRules {rules : List Rule} (h : screen.Sound id)
    (hchain : (Table.filter, egressChain) ∈ screen.chains) : { screen with rules }.Sound id := by
  rcases h with rfl | hchained
  · cases hchain
  · exact .inr hchained

theorem Sound.unhook (h : screen.Sound id) :
    { screen with hooks := screen.hooks.erase id.hookRule }.Sound id := by
  rcases h with rfl | ⟨hchains, hhooks | hhooks⟩
  · exact .inl rfl
  · exact .inr ⟨hchains, .inl (by simp [hhooks])⟩
  · exact .inr ⟨hchains, .inl (by simp [hhooks])⟩

/-- A chain that could be deleted leaves nothing. -/
theorem Sound.unchain (h : screen.Sound id) (hhooks : screen.hooks = []) (hrules : screen.rules = []) :
    Screen.mk screen.hooks screen.rules (screen.chains.erase (.filter, egressChain)) = ⟨[], [], []⟩ := by
  rcases h with rfl | ⟨hchains, -⟩
  · rfl
  · simp [hhooks, hrules, hchains]

/-- A chain that could be made is new, and nothing is in the way. -/
theorem Sound.chain (h : screen.Sound id) (hchain : (Table.filter, egressChain) ∉ screen.chains) :
    { screen with chains := screen.chains ++ [(Table.filter, egressChain)] } =
      ⟨[], [], [(.filter, egressChain)]⟩ := by
  rcases h with rfl | ⟨hchains, -⟩
  · rfl
  · exact (hchain (by simp [hchains])).elim

end Screen

/-- What holds of a slot and of the machine at any time of a job for the slot, with the screens of the
    other slots as they were before. -/
structure Screened (id : SlotId) (screens : SlotId → Option Screen) (slot : Slot) (world : World) :
    Prop where
  id_eq : slot.id = id
  home : ∀ handle, slot.handle = some handle → handle.label = id.namespaceName
  sound : ∀ screen, world.screen id = some screen → screen.Sound id
  /-- a slot that remembers a firewall has one -/
  hooked : slot.hasFirewall = true → ∃ screen, world.screen id = some screen ∧ screen.Hooked id
  others : ∀ other, other ≠ id → world.screen other = screens other

/-- What holds at every call of a job for a slot: the screens of the others are as they were, and its
    own is sound. -/
abbrev Screened.Kept (id : SlotId) (screens : SlotId → Option Screen) (world : World) : Prop :=
  (∀ screen, world.screen id = some screen → screen.Sound id) ∧
    ∀ other, other ≠ id → world.screen other = screens other

namespace Screened

variable {id : SlotId} {screens : SlotId → Option Screen} {slot after : Slot} {world world' : World}

/-- What does not touch any screen keeps everything. -/
theorem congr (h : Screened id screens slot world)
    (hscreen : ∀ other, world'.screen other = world.screen other) : Screened id screens slot world' where
  id_eq := h.id_eq
  home := h.home
  sound := hscreen id ▸ h.sound
  hooked := hscreen id ▸ h.hooked
  others other hother := (hscreen other).trans (h.others other hother)

/-- The screen of a slot is sound for what the slot remembers as long as it keeps its number and its handle, and
    does not come to remember a firewall that it did not remember before. -/
theorem memory (h : Screened id screens slot world) (hid : after.id = slot.id)
    (hhandle : after.handle = slot.handle ∨ after.handle = none)
    (hfirewall : after.hasFirewall = true → slot.hasFirewall = true) :
    Screened id screens after world where
  id_eq := hid.trans h.id_eq
  home handle hsome := by
    rcases hhandle with hsame | hnone
    · exact h.home handle (hsame ▸ hsome)
    · rw [hnone] at hsome
      cases hsome
  sound := h.sound
  hooked hhas := h.hooked (hfirewall hhas)
  others := h.others

/-- A change of the slot's own screen. -/
theorem change (h : Screened id screens slot world)
    (hothers : ∀ other, other ≠ id → world'.screen other = world.screen other)
    (hsound : ∀ screen, world'.screen id = some screen → screen.Sound id)
    (hhooked : slot.hasFirewall = true → ∃ screen, world'.screen id = some screen ∧ screen.Hooked id) :
    Screened id screens slot world' where
  id_eq := h.id_eq
  home := h.home
  sound := hsound
  hooked := hhooked
  others other hother := (hothers other hother).trans (h.others other hother)

/-- While the thread is in the slot's namespace. -/
def Inside (id : SlotId) (screens : SlotId → Option Screen) (slot : Slot) (world : World) : Prop :=
  Screened id screens slot world ∧ world.current = id.namespaceName

/-- When the chain has just been made. -/
def Made (id : SlotId) (screens : SlotId → Option Screen) (slot : Slot) (world : World) : Prop :=
  Inside id screens slot world ∧ world.screen id = some ⟨[], [], [(.filter, egressChain)]⟩

/-- A change inside the slot's namespace: what it does to the screen there. -/
theorem Inside.edit {change : Namespace → Except NetworkError Namespace}
    (h : Inside id screens slot world) (hedit : world.edit change = (.ok (), world')) :
    world'.current = id.namespaceName ∧ (∀ other, other ≠ id → world'.screen other = world.screen other) ∧
      ∃ ns ns', change ns = .ok ns' ∧ world.screen id = some ns.screen ∧
        world'.screen id = some ns'.screen := by
  obtain ⟨ns, ns', hns, hchange, hafter⟩ := World.edit_ok hedit
  refine ⟨by rw [hafter]; exact h.2, fun other hother => ?_, ns, ns', hchange, ?_, ?_⟩
  · refine World.screen_edit_elsewhere ?_ hedit
    rw [h.2]
    exact fun heq => hother (SlotId.namespaceName_inj.mp heq).symm
  · rw [World.screen, ← h.2, hns]
    rfl
  · rw [hafter, World.screen_setNamespace, if_pos h.2]

variable {hazard : Hazard} {guards : List Handle} {c : Call} {result : Except NetworkError c.Reply}

/-- The calls that change the rules of the chain leave the hook and the chain alone, so the screen stays sound
    under them, whatever fails. -/
theorem Inside.rules (hc : Call.Ruling c) (h : Inside id screens slot world)
    (hreply : World.replies hazard c guards world result world') : Inside id screens slot world' := by
  refine World.replies_keeps hreply h fun value hanswer => ?_
  have hsame {ns ns' : Namespace} {rules : List Rule} (hbefore : world.screen id = some ns.screen)
      (hafter : world'.screen id = some ns'.screen) (hchain : (.filter, egressChain) ∈ ns.chains)
      (hrules : ns'.screen = { ns.screen with rules })
      (hothers : ∀ other, other ≠ id → world'.screen other = world.screen other) :
      Screened id screens slot world' := by
    refine h.1.change hothers (fun screen hscreen => ?_) fun hhas => ?_
    · obtain rfl : { ns.screen with rules } = screen := by
        rw [hafter, hrules] at hscreen
        exact Option.some.inj hscreen
      exact (h.1.sound _ hbefore).setRules hchain
    · obtain ⟨screen, hscreen, hhooked⟩ := h.1.hooked hhas
      obtain rfl : ns.screen = screen := Option.some.inj (hbefore.symm.trans hscreen)
      exact ⟨_, hafter.trans (congrArg some hrules), hhooked⟩
  cases hc with
  | flush =>
    obtain ⟨hcurrent, hothers, ns, ns', hchange, hbefore, hafter⟩ := h.edit hanswer
    obtain ⟨hchain, hscreen⟩ := Namespace.screen_flushChain hchange
    exact ⟨hsame hbefore hafter hchain hscreen hothers, hcurrent⟩
  | rule rule hrule =>
    obtain ⟨hcurrent, hothers, ns, ns', hchange, hbefore, hafter⟩ := h.edit hanswer
    obtain ⟨hchain, hscreen⟩ := Namespace.screen_block hrule hchange
    exact ⟨hsame hbefore hafter hchain hscreen hothers, hcurrent⟩

/-- A change of the screen of a slot that remembers no firewall. -/
theorem Inside.change_bare (h : Inside id screens slot world) (hbare : slot.hasFirewall = false)
    {screen : Screen} (hcurrent : world'.current = id.namespaceName)
    (hothers : ∀ other, other ≠ id → world'.screen other = world.screen other)
    (hafter : world'.screen id = some screen) (hsound : screen.Sound id) :
    Inside id screens slot world' := by
  refine ⟨h.1.change hothers (fun found hfound => ?_) fun hhas => ?_, hcurrent⟩
  · obtain rfl : screen = found := Option.some.inj (hafter.symm.trans hfound)
    exact hsound
  · rw [hbare] at hhas
    cases hhas

/-- The calls that take the chain away are made for a slot that no longer remembers a firewall, so nothing has
    to be said of its chain any more. -/
theorem Inside.unchains (hc : Call.Unchaining id c) (h : Inside id screens slot world)
    (hbare : slot.hasFirewall = false)
    (hreply : World.replies hazard c guards world result world') : Inside id screens slot world' := by
  refine World.replies_keeps hreply h fun value hanswer => ?_
  cases hc with
  | unhook =>
    obtain ⟨hcurrent, hothers, ns, ns', hchange, hbefore, hafter⟩ := h.edit hanswer
    rw [Namespace.screen_unhook hchange] at hafter
    exact h.change_bare hbare hcurrent hothers hafter (h.1.sound _ hbefore).unhook
  | unchain =>
    obtain ⟨hcurrent, hothers, ns, ns', hchange, hbefore, hafter⟩ := h.edit hanswer
    obtain ⟨hhooks, hrules, hscreen⟩ := Namespace.screen_deleteChain hchange
    have hgone : ns'.screen = ⟨[], [], []⟩ :=
      hscreen.trans ((h.1.sound _ hbefore).unchain hhooks hrules)
    rw [hgone] at hafter
    exact h.change_bare hbare hcurrent hothers hafter (.inl rfl)

/-- A chain is made for a slot that remembers no firewall. When it could be made, it is empty and waits to be
    hooked. -/
theorem Inside.chains {result : Except NetworkError Unit} (h : Inside id screens slot world)
    (hbare : slot.hasFirewall = false)
    (hreply : World.replies hazard (.newChain .filter egressChain) guards world result world') :
    Inside id screens slot world' ∧ (result = .ok () → Made id screens slot world') := by
  have hmade (hanswer : world.answer (.newChain .filter egressChain) = (.ok (), world')) :
      Made id screens slot world' := by
    obtain ⟨hcurrent, hothers, ns, ns', hchange, hbefore, hafter⟩ := h.edit hanswer
    obtain ⟨hchain, hscreen⟩ := Namespace.screen_newChain hchange
    have hnew : ns'.screen = ⟨[], [], [(.filter, egressChain)]⟩ :=
      hscreen.trans ((h.1.sound _ hbefore).chain hchain)
    rw [hnew] at hafter
    exact ⟨h.change_bare hbare hcurrent hothers hafter (.inr ⟨rfl, .inl rfl⟩), hafter⟩
  constructor
  · exact World.replies_keeps hreply h fun value hanswer => (hmade hanswer).1
  · rintro rfl
    exact hmade (World.replies_ok hreply)

/-- A change after which the slot has its firewall, whatever it remembers. -/
theorem Inside.change_hooked (h : Inside id screens slot world) (hid : after.id = slot.id)
    (hhandle : after.handle = slot.handle) {screen : Screen}
    (hcurrent : world'.current = id.namespaceName)
    (hothers : ∀ other, other ≠ id → world'.screen other = world.screen other)
    (hafter : world'.screen id = some screen) (hhooked : screen.Hooked id) :
    Inside id screens after world' := by
  refine ⟨⟨hid.trans h.1.id_eq, hhandle ▸ h.1.home, fun found hfound => ?_,
    fun _ => ⟨screen, hafter, hhooked⟩,
    fun other hother => (hothers other hother).trans (h.1.others other hother)⟩, hcurrent⟩
  obtain rfl : screen = found := Option.some.inj (hafter.symm.trans hfound)
  exact hhooked.sound

/-- When the new chain is hooked, the slot has a firewall that allows everything, and may say so. If it cannot
    be hooked, the slot goes on remembering none. -/
theorem Made.hooks {result : Except NetworkError Unit} (h : Made id screens slot world)
    (hreply : World.replies hazard (.appendRule id.hookRule) guards world result world') :
    Inside id screens slot world' ∧
      (result = .ok () → Inside id screens (slot.installFirewall .allowed).2 world') := by
  have hhooked (hanswer : world.answer (.appendRule id.hookRule) = (.ok (), world')) :
      world'.current = id.namespaceName ∧
        (∀ other, other ≠ id → world'.screen other = world.screen other) ∧
        world'.screen id = some (id.standing .allowed) := by
    have hedit : world.edit (World.appendRule id.hookRule) = (.ok (), world') := hanswer
    obtain ⟨hcurrent, hothers, ns, ns', hchange, hbefore, hafter⟩ := h.1.edit hedit
    refine ⟨hcurrent, hothers, hafter.trans ?_⟩
    rw [Namespace.screen_hook hchange, Option.some.inj (hbefore.symm.trans h.2)]
    rfl
  constructor
  · refine World.replies_keeps hreply h.1 fun value hanswer => ?_
    obtain ⟨hcurrent, hothers, hafter⟩ := hhooked hanswer
    exact h.1.change_hooked rfl rfl hcurrent hothers hafter (Screen.standing_hooked _)
  · rintro rfl
    obtain ⟨hcurrent, hothers, hafter⟩ := hhooked (World.replies_ok hreply)
    exact h.1.change_hooked (by simp) (by simp) hcurrent hothers hafter (Screen.standing_hooked _)

/-- A namespace that could be made was not there before, so the slot remembered no firewall. Its screen is
    empty, which is sound. -/
theorem created {handle : Handle} (h : Screened id screens slot world)
    (hanswer : world.createNamed id.namespaceName = (.ok handle, world')) :
    Screened id screens slot world' ∧ Inside id screens (slot.attachNamespace handle) world' := by
  obtain ⟨habsent, rfl, rfl⟩ := World.createNamed_ok hanswer
  have hscreen (other : SlotId) :
      ({ world.setNamespace id.namespaceName .bare with current := id.namespaceName } : World).screen
        other = if id = other then some ⟨[], [], []⟩ else world.screen other := by
    have hset : (world.setNamespace id.namespaceName .bare).screen other =
        if id.namespaceName = other.namespaceName then some Namespace.bare.screen
        else world.screen other := World.screen_setNamespace
    simp only [SlotId.namespaceName_inj] at hset
    exact hset
  have hothers (other : SlotId) (hother : other ≠ id) := (hscreen other).trans (if_neg hother.symm)
  have hown := (hscreen id).trans (if_pos rfl)
  have hsound (screen : Screen) (hfound : World.screen _ id = some screen) : screen.Sound id :=
    .inl (Option.some.inj (hfound.symm.trans hown))
  refine ⟨h.change hothers hsound fun hhas => ?_, ⟨h.id_eq, ?_, hsound, by simp, ?_⟩, rfl⟩
  · obtain ⟨screen, hfound, -⟩ := h.hooked hhas
    rw [World.screen, Std.ExtTreeMap.getElem?_eq_none habsent] at hfound
    cases hfound
  · rintro handle ⟨⟩
    rfl
  · exact fun other hother => (hothers other hother).trans (h.others other hother)

/-- A namespace is deleted only when the slot remembers no firewall, so nothing is remembered that is gone. -/
theorem deleted (h : Screened id screens slot world) (hbare : slot.hasFirewall = false)
    (hanswer : world.deleteNamed id.namespaceName = (.ok (), world')) :
    Screened id screens slot world' := by
  have hscreen (other : SlotId) : world'.screen other =
      if id.namespaceName = other.namespaceName then none else world.screen other :=
    World.screen_deleteNamed hanswer
  refine h.change (fun other hother => ?_) (fun screen hfound => ?_) fun hhas => ?_
  · rw [hscreen, if_neg (fun heq => hother (SlotId.namespaceName_inj.mp heq).symm)]
  · rw [hscreen, if_pos rfl] at hfound
    cases hfound
  · rw [hbare] at hhas
    cases hhas

/-- Every call of a job for a slot keeps the screens of the others, and its own sound. The calls that touch a
    chain are the only ones that ask for a closer look, and they are made inside the slot's own namespace. -/
theorem frame (hazard : Hazard) (id : SlotId) (egress : String)
    (screens : SlotId → Option Screen) :
    Frame (World.replies hazard) (Kept id screens) id egress (fun _ => True) (fun _ => True)
      (fun handle => handle.label = id.namespaceName) (Screened id screens) (Inside id screens)
      (Made id screens) where
  of_inside h := h.1
  holds h := ⟨h.sound, h.others⟩
  id_eq h := h.id_eq
  handle h hsome := h.home _ hsome
  capture h hreply := by
    obtain ⟨rfl, -⟩ := World.replies_captured hreply
    exact ⟨h, fun _ _ => trivial⟩
  returns _ h hreply := World.replies_keeps hreply h fun value hanswer =>
    h.congr fun other => World.screen_enter hanswer
  opens h hreply := by
    obtain ⟨rfl, hlabel⟩ := World.replies_opened hreply
    exact ⟨h, hlabel⟩
  enters htarget h hreply := by
    have hkept := World.replies_keeps hreply h fun _ hanswer => h.congr fun other => World.screen_enter hanswer
    refine ⟨hkept, ?_⟩
    rintro rfl
    exact ⟨hkept, (World.replies_entered hreply).trans htarget⟩
  rules hc h hreply := h.rules hc hreply
  unchains hc h hbare hreply := h.unchains hc hbare hreply
  chains h hbare hreply := h.chains hbare hreply
  hooks h hreply := h.hooks hreply
  made_holds h := ⟨h.1.1.sound, h.1.1.others⟩
  memory hid hhandle hfirewall := ⟨fun h => h.memory hid (.inl hhandle) hfirewall,
    fun h => ⟨h.1.memory hid (.inl hhandle) hfirewall, h.2⟩⟩
  forgets h := h.memory (by simp) (by simp) (by simp)
  outer hc h hreply := World.replies_keeps hreply h fun value hanswer =>
    h.congr fun other => World.screen_outer hc hanswer
  deletes h hbare hreply := World.replies_keeps hreply h fun value hanswer =>
    h.deleted hbare hanswer
  inner hc h hreply := World.replies_keeps hreply h fun value hanswer =>
    ⟨h.1.congr fun other => World.screen_inner hc hanswer,
      (World.current_inner hc hanswer).trans h.2⟩
  creates h hreply := by
    refine ⟨World.replies_keeps hreply h fun value hanswer => (h.created hanswer).1, ?_⟩
    rintro handle rfl
    exact (h.created (World.replies_ok hreply)).2

/-- Inside the namespace, with the chain hooked and just these rules in it. -/
def Ruled (id : SlotId) (screens : SlotId → Option Screen) (rules : List Rule) (slot : Slot)
    (world : World) : Prop :=
  Inside id screens slot world ∧
    world.screen id = some ⟨[id.hookRule], rules, [(.filter, egressChain)]⟩

/-- What holds when a policy was applied. -/
def Applied (id : SlotId) (screens : SlotId → Option Screen) (policy : Internet) (slot : Slot)
    (world : World) : Prop :=
  Screened id screens slot world ∧ world.screen id = some (id.standing policy)

section

variable {egress : String} {origin : Handle} {rules : List Rule}

/-- Flushing the chain of a slot with a firewall leaves the hook, and leaves no rule in the chain. -/
theorem Inside.flush (h : Inside id screens slot world) (hhas : slot.hasFirewall = true)
    (hanswer : world.answer (.flushChain .filter egressChain) = (.ok (), world')) :
    Ruled id screens [] slot world' := by
  have hedit : world.edit (World.flushChain .filter egressChain) = (.ok (), world') := hanswer
  obtain ⟨hcurrent, hothers, ns, ns', hchange, hbefore, hafter⟩ := h.edit hedit
  obtain ⟨-, hscreen⟩ := Namespace.screen_flushChain hchange
  obtain ⟨screen, hfound, hhooked⟩ := h.1.hooked hhas
  obtain rfl : ns.screen = screen := Option.some.inj (hbefore.symm.trans hfound)
  have hstanding : ns'.screen = ⟨[id.hookRule], [], [(.filter, egressChain)]⟩ := by
    rw [hscreen, ← hhooked.1, ← hhooked.2]
  rw [hstanding] at hafter
  exact ⟨h.change_hooked rfl rfl hcurrent hothers hafter ⟨rfl, rfl⟩, hafter⟩

/-- One rule more in the chain of a slot. After the flush the chain has just the rules that were added since, so
    in the end it has the rules of the policy and no others. -/
theorem Ruled.append {rule : Rule} (h : Ruled id screens rules slot world) (hrule : rule ∈ blockRules)
    (hanswer : world.answer (.appendRule rule) = (.ok (), world')) :
    Ruled id screens (rules ++ [rule]) slot world' := by
  have hedit : world.edit (World.appendRule rule) = (.ok (), world') := hanswer
  obtain ⟨hcurrent, hothers, ns, ns', hchange, hbefore, hafter⟩ := h.1.edit hedit
  obtain ⟨-, hscreen⟩ := Namespace.screen_block hrule hchange
  rw [hscreen, Option.some.inj (hbefore.symm.trans h.2)] at hafter
  exact ⟨h.1.change_hooked rfl rfl hcurrent hothers hafter ⟨rfl, rfl⟩, hafter⟩

variable (hazard : Hazard) (egress : String)

/-- Rules are added in order. If one cannot be added, the chain is still there and hooked, with the rules that
    were added until then. -/
theorem block_all {name : String} {added : List Rule} (hadded : ∀ rule ∈ added, rule ∈ blockRules) :
    Triple (World.replies hazard) (Kept id screens) (Ruled id screens rules)
      (added.forM fun rule => step name (perform (.appendRule rule)))
      (Ruled id screens (rules ++ added)) (Inside id screens) := by
  induction added generalizing rules with
  | nil =>
    rw [List.append_nil]
    exact fun _ _ h => h
  | cons rule added ih =>
    intro slot world h
    rw [ensures_forM_cons, ensures_step, ensures_perform]
    refine ⟨⟨h.1.1.sound, h.1.1.others⟩, fun result world' hreply => ?_⟩
    cases result with
    | error failure =>
      rw [World.replies_error hreply]
      exact h.1
    | ok value =>
      have hrest : Triple (World.replies hazard) (Kept id screens)
          (Ruled id screens (rules ++ [rule]))
          (added.forM fun rule => step name (perform (.appendRule rule)))
          (Ruled id screens (rules ++ [rule] ++ added)) (Inside id screens) :=
        ih fun other hmem => hadded other (List.mem_cons_of_mem _ hmem)
      rw [List.append_assoc] at hrest
      exact hrest slot world' (h.append (hadded rule (List.mem_cons_self ..)) (World.replies_ok hreply))

/-- A configuration that succeeds leaves just the rules of the policy in the chain. One that fails leaves the
    chain hooked, with whatever rules are in it by then. -/
theorem configure (policy : Internet) :
    Triple (World.replies hazard) (Kept id screens) (Inside id screens) (Firewall.configure policy)
      (Applied id screens policy) (Inside id screens) := by
  have hflush : Triple (World.replies hazard) (Kept id screens)
      (fun slot world => Inside id screens slot world ∧ slot.hasFirewall = true)
      (perform (.flushChain .filter egressChain)) (Ruled id screens []) (Inside id screens) :=
    .perform (fun _ _ h => ⟨h.1.1.sound, h.1.1.others⟩)
      (fun _ _ _ _ h hreply => h.1.flush h.2 (World.replies_ok hreply))
      fun _ _ _ _ h hreply => World.replies_error hreply ▸ h.1
  have hset : Triple (ε := NetworkError) (World.replies hazard) (Kept id screens)
      (Ruled id screens ([] ++ policy.rules)) (modify fun slot => slot.setInternet policy)
      (Applied id screens policy) (Inside id screens) :=
    .modify fun slot world h => ⟨h.1.1.memory (by simp) (by simp) (by simp), h.2⟩
  refine .get fun seen => .ite (fun _ _ _ h => h.2) fun hhas slot world h => ?_
  refine Triple.bind (.step hflush) (fun _ => .bind (block_all hazard Internet.rules_block) fun _ => hset) slot world
    ⟨h.2, ?_⟩
  simpa [h.1] using hhas

theorem applied_ends (policy : Internet) :
    Ends (World.replies hazard) (Kept id screens) (fun _ => True) (Applied id screens policy)
      (Applied id screens policy) where
  holds h := ⟨h.1.sound, h.1.others⟩
  returns _ h hreply := World.replies_keeps hreply h fun _ hanswer =>
    ⟨h.1.congr fun _ => World.screen_enter hanswer, (World.screen_enter hanswer).trans h.2⟩

/-- A policy that was applied stands, wherever the thread was and whatever else failed. -/
theorem applyPolicy {ε : Type} {blame : NetworkError → Option NetworkError → ε} (policy : Internet) :
    Triple (World.replies hazard) (Kept id screens) (Screened id screens)
      (Slot.orUndo (inNamespace (Firewall.configure policy)) (Slot.remove egress) blame)
      (Applied id screens policy) (Screened id screens) := by
  have hframe := frame hazard id egress screens
  refine hframe.applyPolicy hframe.around hframe.clearing
    (hframe.inNamespace_post hframe.around (fun origin => ?_) (applied_ends hazard policy))
  exact (configure (hazard.under origin) policy).mono (fun _ _ h => h) (fun _ _ h => h)
    fun _ _ h => h.1

theorem prepare (policy : Internet) :
    Triple (World.replies hazard) (Kept id screens) (Screened id screens) (Slot.prepare egress policy)
      (Applied id screens policy) (Screened id screens) :=
  .bind ((frame hazard id egress screens).provide_anywhere fun _ => trivial) fun _ => applyPolicy hazard egress policy

theorem release :
    Triple (World.replies hazard) (Kept id screens) (Screened id screens) (Slot.release egress)
      (Applied id screens .allowed) (Screened id screens) :=
  applyPolicy hazard egress .allowed

theorem remove :
    Triple (World.replies hazard) (Kept id screens) (Screened id screens) (Slot.remove egress)
      (Screened id screens) (Screened id screens) :=
  (frame hazard id egress screens).remove_anywhere.of_bare

end

end Screened
end SlotPool
