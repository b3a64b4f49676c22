import SlotPool.Proofs.Slot.Creation
/-!
Taking a network away and clearing up after an earlier life go on past every failure, whatever the machine answers.
Each deletion is tried once and in its place, and what is told in the end is what failed, in order.
-/

namespace SlotPool

/-- The calls by which a thread on a machine with guards gets into a slot's namespace: through the handle that the
    slot remembers, or through one that is opened by name. -/
def Slot.entering (slot : Slot) (opened : Handle) : List Chore :=
  .strict "entering slot namespace" .currentNamespace ::
    match slot.handle with
    | some handle => [.strict "entering slot namespace" (.enterNamespace handle)]
    | none =>
      [.strict "entering slot namespace" (.openNamespace slot.id.namespaceName),
        .strict "entering slot namespace" (.enterNamespace opened)]

/-- The calls by which a slot's firewall is closed, where the slot remembers one. -/
def Slot.unwalling (slot : Slot) (opened : Handle) : List Chore :=
  if slot.hasFirewall then slot.entering opened ++ slot.id.unchaining else []

/-- If the slot's namespace is opened by name, it is opened as `opened`. -/
def Slot.Opens (slot : Slot) (opened : Handle) (made : List Record) : Prop :=
  ∀ other, ⟨.openNamespace slot.id.namespaceName, .returned (.ok other)⟩ ∈ made → other = opened

/-- The closing of a slot's firewall, on record: `made` are its calls and `dropped` what the guard does after them. -/
structure Slot.Unwalling (slot : Slot) (opened : Handle) (made dropped : List Record)
    (ended : Except NetworkError Unit) : Prop where
  stopping : Stopping (slot.unwalling opened) made ended
  restored : Restored made dropped
  opens : slot.Opens opened made

/-- What is told when the firewall of a slot could not be closed. That its namespace is gone is not worth telling. -/
def Slot.unwalled : Except NetworkError Unit → List NetworkError
  | .ok _ => []
  | .error failure => if failure.isNotFound then [] else [failure]

namespace SlotId

/-- The deletions by which a slot's network is taken away from outside. -/
def removal (id : SlotId) (egress : String) : List Chore :=
  (id.hostRules egress).map (fun rule => .lenient "deleting host forwarding rule" (.deleteRule rule))
    ++ [.lenient "deleting host route" (.deleteRoute id.hostRoute), .lenient "deleting veth" (.deleteLink id.vethName),
      .lenient "deleting namespace" (.deleteNamespace id.namespaceName)]

/-- What is tried to clear up after an earlier life of a slot. -/
def reaping (id : SlotId) (egress : String) : List Duty :=
  [.ifFound "probing veth" (.link id.vethName) (.lenient "deleting dangling veth" (.deleteLink id.vethName))]
    ++ (id.hostRules egress).map (fun rule => .always (.lenient "deleting dangling host rule" (.deleteRule rule)))
    ++ [.always (.lenient "deleting dangling host route" (.deleteRoute id.hostRoute)),
      .ifFound "probing namespace" (.named id.namespaceName)
        (.lenient "deleting dangling namespace" (.deleteNamespace id.namespaceName))]

end SlotId

namespace Slot

open Sequence

variable {α : Type} {slot : Slot} {opened : Handle} {made dropped records : List Record}
  {ended : Except NetworkError Unit}

/-! ### Closing the firewall -/

/-- Nothing is opened by the calls that take a chain away. -/
theorem unchaining_records {id : SlotId} {record : Record} (h : Stopping id.unchaining records ended)
    (hmem : record ∈ records) : record.call ≠ .openNamespace id.namespaceName := by
  obtain ⟨chore, hchore, hcall⟩ := h.call_mem hmem
  rw [← hcall]
  revert chore
  simp [SlotId.unchaining, Chore.lenient]

/-- The way into a slot's namespace, whatever the replies. Where it leads there, the steps that follow begin with its
    calls on record, and in the end the guard adds one more. -/
theorem ensures_inNamespace {steps : Sequence α} {ok : α → Slot → List Record → Prop}
    {err : NetworkError → Slot → List Record → Prop}
    (hstopped : ∀ opened made dropped failure,
      Stopping (slot.entering opened) made (.error (.step "entering slot namespace" failure)) →
      slot.Opens opened made → Restored made dropped → err failure slot (made ++ dropped))
    (hentered : ∀ origin opened made, Stopping (slot.entering opened) made (.ok ()) → slot.Opens opened made →
      ⟨.currentNamespace, .returned (.ok origin)⟩ ∈ made →
      Ensures recording (fun _ => True) steps
        (fun value after told => ∀ reply, ok value after (told ++ [⟨.enterNamespace origin, .returned reply⟩]))
        (fun failure after told => ∀ reply, err failure after (told ++ [⟨.enterNamespace origin, .returned reply⟩]))
        slot made) :
    Ensures recording (fun _ => True) (inNamespace steps) ok err slot [] := by
  rw [inNamespace, underGuard]
  refine ensures_call (fun cause => ?_) fun origin => ensures_guard ?_
  · exact hstopped ⟨hostNamespace, true⟩ [⟨.currentNamespace, .returned (.error cause)⟩] [] cause (.stop rfl)
      (by simp [Opens]) (.unset (by simp))
  rw [ensures_bind, ensures_get]
  cases hhandle : slot.handle with
  | some handle =>
    have hentering : slot.entering handle = [.strict "entering slot namespace" .currentNamespace,
        .strict "entering slot namespace" (.enterNamespace handle)] := by
      rw [entering, hhandle]
    refine ensures_call (fun cause reply => ?_) fun value => ?_
    · exact hstopped handle _ _ cause (hentering ▸ .pass rfl (.stop rfl)) (by simp [Opens])
        (.back (List.mem_cons_self ..))
    · exact hentered origin handle _ (hentering ▸ .pass rfl (.pass rfl .done)) (by simp [Opens])
        (List.mem_cons_self ..)
  | none =>
    have hentering (opened : Handle) : slot.entering opened = [.strict "entering slot namespace" .currentNamespace,
        .strict "entering slot namespace" (.openNamespace slot.id.namespaceName),
        .strict "entering slot namespace" (.enterNamespace opened)] := by
      rw [entering, hhandle]
    refine ensures_call (fun cause reply => ?_) fun opened => ensures_call (fun cause reply => ?_) fun value => ?_
    · exact hstopped origin _ _ cause (hentering origin ▸ .pass rfl (.stop rfl)) (by simp [Opens])
        (.back (List.mem_cons_self ..))
    · exact hstopped opened _ _ cause (hentering opened ▸ .pass rfl (.pass rfl (.stop rfl))) (by simp [Opens])
        (.back (List.mem_cons_self ..))
    · exact hentered origin opened _ (hentering opened ▸ .pass rfl (.pass rfl (.pass rfl .done))) (by simp [Opens])
        (List.mem_cons_self ..)

/-- Closing the firewall of a slot that remembers one takes its hook, its rules and its chain away, in this
    order and up to the first failure. The slot forgets its firewall. -/
theorem obeys_close (hfirewall : slot.hasFirewall = true) :
    Obeys slot Firewall.close slot.id.unchaining slot.takeFirewall.2 := by
  have hsome : slot.takeFirewall.1.isSome = true := by rwa [takeFirewall_policy]
  have hremove : Obeys slot.takeFirewall.2
      (if slot.takeFirewall.1.isSome then Firewall.removeChain slot.id else pure ()) slot.id.unchaining
      slot.takeFirewall.2 := by
    rw [if_pos hsome]
    exact Firewall.obeys_removeChain
  exact .get ((obeys_set takeFirewall_id).bind hremove)

/-- That something is absent is never told of a chain that is taken away. -/
theorem unchaining_unwalled {id : SlotId} {failure : NetworkError}
    (h : Stopping id.unchaining records (.error failure)) : unwalled (.error failure) = [failure] := by
  obtain ⟨chore, hchore, cause, rfl, hpresent⟩ := h.blamed
  have htolerant : chore.tolerant = true := by
    revert chore
    simp [SlotId.unchaining, Chore.lenient]
  rw [unwalled, Chore.blame_isNotFound, hpresent htolerant]
  rfl

/-- Closing a firewall that the slot remembers: the namespace is entered first, under a guard, and the deletions
    are made inside. The guard makes its one call whatever has come of them. -/
theorem unwalling_entered {origin : Handle} {reply : Except NetworkError Unit} (hfirewall : slot.hasFirewall = true)
    (hentered : Stopping (slot.entering opened) made (.ok ())) (hopens : slot.Opens opened made)
    (horigin : ⟨.currentNamespace, .returned (.ok origin)⟩ ∈ made)
    (hclosed : Stopping slot.id.unchaining records ended) :
    slot.Unwalling opened (made ++ records) [⟨.enterNamespace origin, .returned reply⟩] ended where
  stopping := by
    rw [unwalling, if_pos hfirewall]
    exact hentered.append hclosed
  restored := .back (List.mem_append_left _ horigin)
  opens other hmem := by
    rcases List.mem_append.mp hmem with hmem | hmem
    · exact hopens other hmem
    · exact absurd rfl (unchaining_records hclosed hmem)

/-- The firewall of a slot is closed inside the slot's namespace, under a guard. What is told of it is its
    failure, unless the namespace is gone, and the closing as a whole never fails, so the removal always goes on
    to its deletions. -/
theorem closeFirewall_recorded (slot : Slot) : Ensures recording (fun _ => True) closeFirewall
    (fun failures after told => after.id = slot.id ∧ ∃ opened made dropped ended, told = made ++ dropped ∧
      slot.Unwalling opened made dropped ended ∧ failures = unwalled ended)
    (fun _ _ _ => False) slot [] := by
  rw [closeFirewall, ensures_bind, ensures_get, ensures_ite]
  split
  case isFalse hnone =>
    have hunwalling (opened : Handle) : slot.Unwalling opened [] [] (.ok ()) :=
      ⟨by simpa only [unwalling, if_neg hnone] using .done, .unset (by simp), by simp [Opens]⟩
    exact ⟨rfl, ⟨hostNamespace, true⟩, [], [], _, rfl, hunwalling _, rfl⟩
  case isTrue hfirewall =>
    rw [ensures_bind, ensures_attempt]
    refine ensures_inNamespace (fun opened made dropped failure hstopped hopens hrestored => ?_)
      fun origin opened made hentered hopens horigin => ?_
    · have hunwalling : slot.Unwalling opened made dropped (.error (.step "entering slot namespace" failure)) :=
        ⟨by simpa only [unwalling, if_pos hfirewall] using hstopped.skip, hrestored, hopens⟩
      exact ⟨by simp, opened, made, dropped, _, rfl, hunwalling, rfl⟩
    · rw [ensures_attempt]
      refine ((obeys_close hfirewall).2 made).mono ?_ ?_
      · rintro - after told ⟨rfl, records, rfl, hclosed⟩ reply
        exact ⟨by simp, opened, _, _, _, rfl, unwalling_entered hfirewall hentered hopens horigin hclosed, rfl⟩
      · rintro failure after told ⟨hid, records, rfl, hclosed⟩ reply
        have hunwalling := @unwalling_entered _ _ _ _ _ _ reply hfirewall hentered hopens horigin hclosed
        exact ⟨takeFirewall_id.trans hid, opened, _, _, _, rfl, hunwalling, (unchaining_unwalled hclosed).symm⟩

/-! ### Every deletion in its place -/

theorem tries_deletion {name : String} {c : Call} {delete : Sequence Unit} (h : Does delete ⟨[], c, false⟩) :
    Tries (deletion name delete) (.always (.lenient name c)) :=
  (Does.lenient h).tries

theorem tries_hostRules (name : String) (id : SlotId) (egress : String) :
    List.Forall₂ Tries ((id.hostRules egress).map fun rule => deletion name (perform (.deleteRule rule)))
      ((id.hostRules egress).map fun rule => .always (.lenient name (.deleteRule rule))) := by
  rw [List.forall₂_map_left_iff, List.forall₂_map_right_iff, List.forall₂_same]
  exact fun rule _ => tries_deletion does_perform

/-- What a removal ends with, and its record: first the firewall, then the deletions. -/
structure Removal (slot : Slot) (egress : String) (result : Except NetworkError Unit) (after : Slot)
    (told : List Record) : Prop where
  forgotten : after = .fresh slot.id
  record : ∃ opened made dropped ended outside failures, told = made ++ dropped ++ outside ∧
    slot.Unwalling opened made dropped ended ∧
    Trying ((slot.id.removal egress).map .always) outside failures ∧
    Told (unwalled ended ++ failures) result

/-- A removal closes the firewall, and then tries every deletion, whatever came of the firewall and of the
    deletions before. The slot is forgotten in any case, and the result tells of all failures in order. -/
theorem remove_recorded (slot : Slot) (egress : String) : Ensures recording (fun _ => True) (remove egress)
    (fun _ => slot.Removal egress (.ok ())) (fun failure => slot.Removal egress (.error failure)) slot [] := by
  rw [remove, ensures_bind, ensures_get, ensures_bind]
  refine (closeFirewall_recorded slot).mono ?_ fun _ _ _ h => h.elim
  rintro inside closed told ⟨hid, opened, made, dropped, ended, rfl, hunwalling, rfl⟩
  have hrules := tries_hostRules "deleting host forwarding rule" slot.id egress
  have htail : List.Forall₂ Tries
      [deletion "deleting host route" (perform (.deleteRoute slot.id.hostRoute)),
        deletion "deleting veth" (perform (.deleteLink slot.id.vethName))]
      [.always (.lenient "deleting host route" (.deleteRoute slot.id.hostRoute)),
        .always (.lenient "deleting veth" (.deleteLink slot.id.vethName))] :=
    .cons (tries_deletion does_perform) (.cons (tries_deletion does_perform) .nil)
  rw [ensures_bind]
  refine (tries_attemptAll (List.rel_append hrules htail) _).mono ?_ fun _ _ _ h => h.elim
  rintro outer after told ⟨hslot, outside, rfl, houtside⟩
  subst after
  -- the slot forgets its namespace before this is deleted
  rw [ensures_bind, ensures_modify, ensures_bind]
  refine (tries_attemptAll (.cons (tries_deletion does_perform) .nil) _).mono ?_ fun _ _ _ h => h.elim
  rintro last after told ⟨hslot, final, rfl, hfinal⟩
  subst after
  refine ensures_failWith_told (slot.Removal egress) fun result htold => ⟨?_, opened, made, dropped, ended,
    outside ++ final, outer ++ last, List.append_assoc .., hunwalling, houtside.append hfinal, ?_⟩
  · rw [← hid]
    rfl
  · rwa [← List.append_assoc]

/-- What clearing up ends with, and its record. -/
structure Reaping (slot : Slot) (egress : String) (result : Except NetworkError Unit) (after : Slot)
    (told : List Record) : Prop where
  forgotten : after = .fresh slot.id
  record : ∃ failures, Trying (slot.id.reaping egress) told failures ∧ Told failures result

/-- Clearing up tries every duty, whatever came of those before, and its result tells of all failures in order.
    It sets no guard: all of it is done where the thread is. -/
theorem reap_recorded (slot : Slot) (egress : String) : Ensures recording (fun _ => True) (reap egress)
    (fun _ => slot.Reaping egress (.ok ())) (fun failure => slot.Reaping egress (.error failure)) slot [] := by
  have hveth : Tries (ifFound (step "probing veth" (perform (.linkExists slot.id.vethName)))
      (deletion "deleting dangling veth" (perform (.deleteLink slot.id.vethName)))) _ :=
    Does.ifFound (.link slot.id.vethName) (Does.lenient does_perform)
  have hnamespace : Tries (ifFound (step "probing namespace" (perform (.namespaceExists slot.id.namespaceName)))
      (deletion "deleting dangling namespace" (perform (.deleteNamespace slot.id.namespaceName)))) _ :=
    Does.ifFound (.named slot.id.namespaceName) (Does.lenient does_perform)
  have hroute : Tries (deletion "deleting dangling host route" (perform (.deleteRoute slot.id.hostRoute))) _ :=
    tries_deletion does_perform
  have hrules := tries_hostRules "deleting dangling host rule" slot.id egress
  rw [reap, ensures_bind, ensures_get, ensures_bind]
  refine (tries_attemptAll (.cons hveth .nil) _).mono ?_ fun _ _ _ h => h.elim
  rintro first after told ⟨hslot, early, rfl, hearly⟩
  subst after
  rw [ensures_bind, ensures_modify, ensures_bind]
  refine (tries_attemptAll (List.rel_append hrules (.cons hroute (.cons hnamespace .nil))) _).mono ?_
    fun _ _ _ h => h.elim
  rintro rest after told ⟨hslot, late, rfl, hlate⟩
  subst after
  exact ensures_failWith_told (slot.Reaping egress) fun result htold =>
    ⟨rfl, first ++ rest, hearly.append hlate, htold⟩

end Slot

namespace Operation

variable {σ : Type} {machine : Machine σ} {state : σ} {slot : Slot} {egress : String}

/-- Neither taking a network away nor clearing up after an earlier life gives up, on any machine. Once the firewall is
    closed or cannot be, all six deletions are made, and clearing up looks for the cable and the namespace and makes the
    deletions that are left to it. The slot remembers nothing in the end, and what is told is what failed. -/
theorem deletions_go_on :
    ((remove.program egress slot).Returns machine state →
      ∃ opened made dropped ended outside failures result last,
        (remove.program egress slot).run machine state = (some (result, .fresh slot.id), last) ∧
        ((remove.program egress slot).trace machine state).map (·.toRecord) = made ++ dropped ++ outside ∧
        slot.Unwalling opened made dropped ended ∧
        outside.map (·.call) = (slot.id.hostRules egress).map .deleteRule ++
          [.deleteRoute slot.id.hostRoute, .deleteLink slot.id.vethName, .deleteNamespace slot.id.namespaceName] ∧
        Trying ((slot.id.removal egress).map .always) outside failures ∧
        Told (Slot.unwalled ended ++ failures) result) ∧
    ((reap.program egress slot).Returns machine state →
      ∃ failures result last,
        (reap.program egress slot).run machine state = (some (result, .fresh slot.id), last) ∧
        Trying (slot.id.reaping egress) (((reap.program egress slot).trace machine state).map (·.toRecord)) failures ∧
        Told failures result) := by
  constructor
  · intro hreturns
    obtain ⟨result, after, last, hrun, rfl, opened, made, dropped, ended, outside, failures, htrace, hunwalling,
      htrying, htold⟩ := (Slot.remove_recorded slot egress).recorded hreturns
    exact ⟨opened, made, dropped, ended, outside, failures, result, last, hrun, htrace, hunwalling, htrying.calls,
      htrying, htold⟩
  · intro hreturns
    obtain ⟨result, after, last, hrun, rfl, failures, htrying, htold⟩ :=
      (Slot.reap_recorded slot egress).recorded hreturns
    exact ⟨failures, result, last, hrun, htrying, htold⟩

/-- A route cannot be deleted. -/
def routeFault : Fault := ⟨"delete_route", 0, 1, some (.command "ip" "failed")⟩

/-- The host route cannot be deleted, in a removal and in a clearing up. Both still try all deletions that come
    after it. -/
theorem deletions_go_on_withRoute :
    let rehearsal := Rehearsal.order (.start .fresh) routeFault
    let machine := Rehearsal.rehearsing World.machine
    let slot : Slot := ⟨0, .firewallReady none .blocked⟩
    (∃ opened made dropped ended outside failures result last,
      (remove.program "eth0" slot).run machine rehearsal = (some (result, .fresh 0), last) ∧
      ((remove.program "eth0" slot).trace machine rehearsal).map (·.toRecord) = made ++ dropped ++ outside ∧
      slot.Unwalling opened made dropped ended ∧
      Trying (((0 : SlotId).removal "eth0").map .always) outside failures ∧
      Told (Slot.unwalled ended ++ failures) result) ∧
    (∃ failures result last,
      (reap.program "eth0" slot).run machine rehearsal = (some (result, .fresh 0), last) ∧
      Trying ((0 : SlotId).reaping "eth0") (((reap.program "eth0" slot).trace machine rehearsal).map (·.toRecord))
        failures ∧
      Told failures result) := by
  have hhoming : (Rehearsal.order (.start .fresh) routeFault).Homing :=
    ⟨rfl, fun fault hmem => List.mem_singleton.mp hmem ▸ ⟨by decide, rfl⟩⟩
  have hgoOn := @deletions_go_on _ (Rehearsal.rehearsing World.machine) (Rehearsal.order (.start .fresh) routeFault)
    ⟨0, .firewallReady none .blocked⟩ "eth0"
  obtain ⟨opened, made, dropped, ended, outside, failures, result, last, hrun, htrace, hunwalling, -, htrying, htold⟩ :=
    hgoOn.1 hhoming.meets.returns
  exact ⟨⟨opened, made, dropped, ended, outside, failures, result, last, hrun, htrace, hunwalling, htrying, htold⟩,
    hgoOn.2 hhoming.meets.returns⟩

end Operation
end SlotPool
