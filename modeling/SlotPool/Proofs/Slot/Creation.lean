import SlotPool.Proofs.Slot.Obeying
import SlotPool.Proofs.Slot.Returning
/-!
Making a network stops at the first failure, whatever the machine answers. The calls are the first of one list that
the slot fixes, and all that comes after them is that the guard takes the thread back.
-/

namespace SlotPool

/-- The calls that take a chain away, whatever is left of it. -/
def SlotId.unchaining (id : SlotId) : List Chore :=
  [.lenient "unhooking egress chain" (.deleteRule id.hookRule),
    .lenient "flushing egress chain" (.flushChain .filter egressChain),
    .lenient "deleting egress chain" (.deleteChain .filter egressChain)]

/-- The calls that set up a firewall. -/
def SlotId.walling (id : SlotId) : List Chore :=
  id.unchaining ++
    [.strict "creating egress chain" (.newChain .filter egressChain),
      .strict "hooking egress chain" (.appendRule id.hookRule)]

/-- The calls that make the network of a slot. `origin` leads to the namespace that is current at first, and `handle`
    to the one that is made. -/
def SlotId.creation (id : SlotId) (egress : String) (origin handle : Handle) : List Chore :=
  [.strict "capturing host namespace" .currentNamespace,
    .strict "creating namespace" (.createNamespace id.namespaceName),
    .strict "creating veth pair" (.addVethPair id.vethName id.vpeerName),
    .strict "setting vpeer up" (.setLinkUp id.vpeerName),
    .strict "adding vpeer address" (.addAddress id.vpeerName id.vpeerCidr),
    .strict "moving veth to host namespace" (.moveLink id.vethName origin),
    .strict "entering host namespace" (.enterNamespace origin),
    .strict "setting veth up" (.setLinkUp id.vethName),
    .strict "adding veth address" (.addAddress id.vethName id.vethCidr),
    .strict "entering slot namespace" (.enterNamespace handle),
    .strict "creating tap device" (.addTap id.tapName),
    .strict "setting tap up" (.setLinkUp id.tapName),
    .strict "adding tap address" (.addAddress id.tapName id.tapCidr),
    .strict "setting loopback up" (.setLinkUp loopback),
    .strict "adding namespace default route" (.addRoute id.defaultRoute)]
  ++ id.natRules.map (fun rule => .strict "adding namespace NAT rule" (.appendRule rule))
  ++ id.walling.map (·.within "initializing firewall")
  ++ [.strict "entering host namespace" (.enterNamespace origin),
    .strict "adding host route" (.addRoute id.hostRoute)]
  ++ (id.hostRules egress).map (fun rule => .strict "adding host forwarding rule" (.appendRule rule))

/-- The calls that make the network when the namespace is there: the rest of the list. -/
def SlotId.furnishing (id : SlotId) (egress : String) (origin handle : Handle) : List Chore :=
  (id.creation egress origin handle).drop 2

/-- What a guard does after the calls that were made under it: it takes the thread back to the namespace that was
    captured, and nothing if none was. -/
inductive Restored (made : List Record) : List Record → Prop
  | back {origin : Handle} {reply : Except NetworkError Unit}
      (hcaptured : ⟨.currentNamespace, .returned (.ok origin)⟩ ∈ made) :
      Restored made [⟨.enterNamespace origin, .returned reply⟩]
  | unset (hnone : ∀ origin, ⟨.currentNamespace, .returned (.ok origin)⟩ ∉ made) : Restored made []

/-- An attempt to make a network, on record: `made` are the calls of its sequence and `dropped` what the guard does
    after them. -/
structure SlotId.Attempt (id : SlotId) (egress : String) (origin handle : Handle) (made dropped : List Record)
    (result : Except NetworkError Unit) : Prop where
  stopping : Stopping (id.creation egress origin handle) made result
  restored : Restored made dropped
  /-- the list leads to the namespace that was captured -/
  captured : ∀ other, ⟨.currentNamespace, .returned (.ok other)⟩ ∈ made → other = origin
  /-- the list leads to the namespace that was made -/
  opened : ∀ other, ⟨.createNamespace id.namespaceName, .returned (.ok other)⟩ ∈ made → other = handle

/-- What making a network ends with, and its record. -/
def Slot.Attempted (slot : Slot) (egress : String) (result : Except NetworkError Unit) (_ : Slot) (told : List Record) :
    Prop :=
  ∃ origin handle made dropped, told = made ++ dropped ∧ slot.id.Attempt egress origin handle made dropped result

open Sequence

namespace Firewall

variable {id : SlotId} {slot : Slot}

theorem obeys_removeChain : Obeys slot (removeChain id) id.unchaining slot :=
  (Does.lenient does_perform).obeys.bind
    ((Does.lenient does_perform).obeys.bind (Does.lenient does_perform).obeys)

theorem obeys_setUp (hnone : slot.hasFirewall = false) :
    Obeys slot setUp slot.id.walling (slot.installFirewall .allowed).2 := by
  refine .get ?_
  rw [if_pos (by simp [hnone])]
  exact obeys_removeChain.bind (does_strict.obeys.bind (does_strict.obeys.bind (obeys_modify (by simp))))

end Firewall

namespace Slot

variable {id : SlotId} {slot : Slot} {egress : String} {origin handle : Handle}

theorem obeys_layCable : Obeys slot (layCable id origin)
    [.strict "creating veth pair" (.addVethPair id.vethName id.vpeerName),
      .strict "setting vpeer up" (.setLinkUp id.vpeerName),
      .strict "adding vpeer address" (.addAddress id.vpeerName id.vpeerCidr),
      .strict "moving veth to host namespace" (.moveLink id.vethName origin)] slot :=
  does_strict.obeys.bind (does_strict.obeys.bind (does_strict.obeys.bind does_strict.obeys))

theorem obeys_readyHostEnd : Obeys slot (readyHostEnd id origin)
    [.strict "entering host namespace" (.enterNamespace origin),
      .strict "setting veth up" (.setLinkUp id.vethName),
      .strict "adding veth address" (.addAddress id.vethName id.vethCidr)] slot :=
  does_strict.obeys.bind (does_strict.obeys.bind does_strict.obeys)

/-- A slot whose namespace has just been made can always go back there. -/
theorem obeys_reenter : Obeys (slot.attachNamespace handle) reenter
    [.strict "entering slot namespace" (.enterNamespace handle)] (slot.attachNamespace handle) :=
  .get does_strict.obeys

/-- Furnishing a slot's namespace adds the tap device, sets the devices up, and adds the default route and the
    translation rules, up to the first failure. -/
theorem obeys_furnish : Obeys slot (furnish id)
    ([.strict "creating tap device" (.addTap id.tapName), .strict "setting tap up" (.setLinkUp id.tapName),
      .strict "adding tap address" (.addAddress id.tapName id.tapCidr),
      .strict "setting loopback up" (.setLinkUp loopback),
      .strict "adding namespace default route" (.addRoute id.defaultRoute)]
    ++ id.natRules.map (fun rule => .strict "adding namespace NAT rule" (.appendRule rule))) slot :=
  does_strict.obeys.bind (does_strict.obeys.bind (does_strict.obeys.bind (does_strict.obeys.bind
    (does_strict.obeys.bind (.forM id.natRules fun _ => does_strict)))))

theorem obeys_connectHost : Obeys slot (connectHost id egress origin)
    ([.strict "entering host namespace" (.enterNamespace origin), .strict "adding host route" (.addRoute id.hostRoute)]
    ++ (id.hostRules egress).map (fun rule => .strict "adding host forwarding rule" (.appendRule rule))) slot :=
  does_strict.obeys.bind (does_strict.obeys.bind (.forM (id.hostRules egress) fun _ => does_strict))

/-- With the namespace made and opened, the rest of the list is obeyed: the cable, its outer end on the host,
    the namespace from within, the firewall and what the host needs, in this order. -/
theorem obeys_build : Obeys (slot.attachNamespace handle)
    (do
      layCable slot.id origin
      readyHostEnd slot.id origin
      reenter
      furnish slot.id
      step "initializing firewall" Firewall.setUp
      connectHost slot.id egress origin)
    (slot.id.furnishing egress origin handle) ((slot.attachNamespace handle).installFirewall .allowed).2 := by
  have hwall : Obeys (slot.attachNamespace handle) (step "initializing firewall" Firewall.setUp)
      (slot.id.walling.map (·.within "initializing firewall"))
      ((slot.attachNamespace handle).installFirewall .allowed).2 :=
    (Firewall.obeys_setUp (by simp)).step
  exact obeys_layCable.bind (obeys_readyHostEnd.bind (obeys_reenter.bind (obeys_furnish.bind
    (hwall.bind obeys_connectHost))))

/-- Nothing is captured or made anew once the namespace is there. -/
theorem furnishing_calls {chore : Chore} (hchore : chore ∈ id.furnishing egress origin handle) :
    chore.call ≠ .currentNamespace ∧ chore.call ≠ .createNamespace id.namespaceName := by
  revert chore
  simp [SlotId.furnishing, SlotId.creation, SlotId.natRules, SlotId.hostRules, SlotId.walling, SlotId.unchaining,
    Chore.strict, Chore.lenient, Chore.within]

/-- Each call of the list is a step with a name, and in none is a handle read. -/
theorem creation_step {chore : Chore} (hchore : chore ∈ id.creation egress origin handle) :
    ∃ name, chore.steps.head? = some name ∧ name ≠ "reading namespace handle" := by
  revert chore
  simp [SlotId.creation, SlotId.natRules, SlotId.hostRules, SlotId.walling, SlotId.unchaining, Chore.strict,
    Chore.lenient, Chore.within]

theorem furnishing_records {made : List Record} {result : Except NetworkError Unit} {record : Record}
    (h : Stopping (id.furnishing egress origin handle) made result) (hmem : record ∈ made) :
    record.call ≠ .currentNamespace ∧ record.call ≠ .createNamespace id.namespaceName := by
  obtain ⟨chore, hchore, heq⟩ := h.call_mem hmem
  exact heq ▸ furnishing_calls hchore

/-- An attempt in which nothing is captured. -/
theorem attempt_uncaptured {cause : NetworkError} :
    id.Attempt egress origin handle [⟨.currentNamespace, .returned (.error cause)⟩] []
      (.error (.step "capturing host namespace" cause)) where
  stopping := .stop rfl
  restored := .unset (by simp)
  captured := by simp
  opened := by simp

/-- An attempt in which no namespace is made. -/
theorem attempt_unmade {cause : NetworkError} {reply : Except NetworkError Unit} :
    id.Attempt egress origin handle
      [⟨.currentNamespace, .returned (.ok origin)⟩, ⟨.createNamespace id.namespaceName, .returned (.error cause)⟩]
      [⟨.enterNamespace origin, .returned reply⟩] (.error (.step "creating namespace" cause)) where
  stopping := .pass rfl (.stop rfl)
  restored := .back (List.mem_cons_self ..)
  captured := by simp
  opened := by simp

/-- An attempt in which the namespace is made: the rest of the list is as it is, and the guard is heard of once
    at the end. -/
theorem attempt_made {made : List Record} {result : Except NetworkError Unit} {reply : Except NetworkError Unit}
    (h : Stopping (id.furnishing egress origin handle) made result) :
    id.Attempt egress origin handle
      (⟨.currentNamespace, .returned (.ok origin)⟩ :: ⟨.createNamespace id.namespaceName, .returned (.ok handle)⟩ ::
        made) [⟨.enterNamespace origin, .returned reply⟩] result where
  stopping := .pass rfl (.pass rfl h)
  restored := .back (List.mem_cons_self ..)
  captured other hmem := by
    have hrest : ⟨.currentNamespace, .returned (.ok other)⟩ ∉ made := fun hmem => (furnishing_records h hmem).1 rfl
    simpa [hrest] using hmem
  opened other hmem := by
    have hrest : ⟨.createNamespace id.namespaceName, .returned (.ok other)⟩ ∉ made :=
      fun hmem => (furnishing_records h hmem).2 rfl
    simpa [hrest] using hmem

/-- Making a network is an attempt to obey the list. There are three ways for it to end early: where the thread
    is may not be known, the namespace may not be made, and any call after that may fail. -/
theorem create_recorded (slot : Slot) (egress : String) : Ensures recording (fun _ => True) (create egress)
    (fun _ => slot.Attempted egress (.ok ())) (fun failure => slot.Attempted egress (.error failure)) slot [] := by
  refine ensures_namedCall (fun cause => ?_) fun origin => ensures_guard ?_
  · exact ⟨⟨hostNamespace, true⟩, ⟨hostNamespace, true⟩, _, [], rfl, attempt_uncaptured⟩
  rw [ensures_bind, ensures_get]
  refine ensures_namedCall (fun cause reply => ?_) fun handle => ?_
  · exact ⟨origin, origin, _, _, rfl, attempt_unmade⟩
  -- from here on the namespace is there
  rw [ensures_bind, ensures_modify]
  refine (obeys_build.2 _).mono ?_ ?_
  · rintro - after told ⟨-, made, rfl, hmade⟩ reply
    exact ⟨origin, handle, _, _, rfl, attempt_made hmade⟩
  · rintro failure after told ⟨-, made, rfl, hmade⟩ reply
    exact ⟨origin, handle, _, _, rfl, attempt_made hmade⟩

end Slot

namespace Operation

variable {σ : Type} {machine : Machine σ} {state : σ} {slot : Slot} {egress : String}

/-- Making a network stops at the first failure, on any machine: the calls are the first of the slot's list up to
    one whose failure counts, which is told, and then the guard takes the thread back. All was done if nothing is
    told. That the namespace is open is never in doubt. -/
theorem create_stops (hreturns : (create.program egress slot).Returns machine state) :
    ∃ origin handle made dropped result after last,
      (create.program egress slot).run machine state = (some (result, after), last) ∧
      ((create.program egress slot).trace machine state).map (·.toRecord) = made ++ dropped ∧
      slot.id.Attempt egress origin handle made dropped result ∧
      made.map (·.call) <+: (slot.id.creation egress origin handle).map (·.call) ∧
      (result = .ok () → made.map (·.call) = (slot.id.creation egress origin handle).map (·.call)) ∧
      ∀ cause, result ≠ .error (.step "reading namespace handle" cause) := by
  obtain ⟨result, after, last, hrun, origin, handle, made, dropped, htrace, hattempt⟩ :=
    (Slot.create_recorded slot egress).recorded hreturns
  refine ⟨origin, handle, made, dropped, result, after, last, hrun, htrace, hattempt, hattempt.stopping.calls_prefix,
    fun hok => ?_, fun cause herror => ?_⟩
  · subst hok
    exact hattempt.stopping.calls_eq
  · subst herror
    obtain ⟨chore, hchore, cause', hblame, -⟩ := hattempt.stopping.blamed
    obtain ⟨name, hname, hreading⟩ := Slot.creation_step hchore
    rw [Chore.blame_of_head hname] at hblame
    exact hreading (NetworkError.step.inj hblame).1.symm

/-- The tap device cannot be added. The calls that were made are the first of the fixed list, and after them the
    guard takes the thread back. -/
theorem create_stops_withoutTap :
    let rehearsal := Rehearsal.order (.start .fresh) Errand.tapFault
    ∃ origin handle made dropped result after last,
      (create.program "eth0" (.fresh 0)).run (Rehearsal.rehearsing World.machine) rehearsal =
        (some (result, after), last) ∧
      ((create.program "eth0" (.fresh 0)).trace (Rehearsal.rehearsing World.machine) rehearsal).map (·.toRecord) =
        made ++ dropped ∧
      (0 : SlotId).Attempt "eth0" origin handle made dropped result := by
  have hhoming : (Rehearsal.order (.start .fresh) Errand.tapFault).Homing :=
    ⟨rfl, fun fault hmem => List.mem_singleton.mp hmem ▸ ⟨by decide, rfl⟩⟩
  obtain ⟨origin, handle, made, dropped, result, after, last, hrun, htrace, hattempt, -⟩ :=
    @create_stops _ _ _ (.fresh 0) "eth0" hhoming.meets.returns
  exact ⟨origin, handle, made, dropped, result, after, last, hrun, htrace, hattempt⟩

end Operation
end SlotPool
