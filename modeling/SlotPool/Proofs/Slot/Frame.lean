import SlotPool.Proofs.Slot.Wall
/-!
What everything done for one slot leaves alone. A frame says of each call that is made for a slot what
the call keeps, wherever the thread is or while it is in the slot's own namespace. From the effects of
single calls follow those of whole jobs.
-/

namespace SlotPool

/-- The calls made for a slot wherever the thread is. -/
inductive Call.Outer (id : SlotId) (egress : String) : Call → Prop
  | onRecord : Outer id egress (.namespaceExists id.namespaceName)
  | probe : Outer id egress (.linkExists id.vethName)
  | up : Outer id egress (.setLinkUp id.vethName)
  | address : Outer id egress (.addAddress id.vethName id.vethCidr)
  | unplug : Outer id egress (.deleteLink id.vethName)
  | route : Outer id egress (.addRoute id.hostRoute)
  | unroute : Outer id egress (.deleteRoute id.hostRoute)
  | rule (rule : Rule) (hrule : rule ∈ id.hostRules egress) : Outer id egress (.appendRule rule)
  | unrule (rule : Rule) (hrule : rule ∈ id.hostRules egress) : Outer id egress (.deleteRule rule)

/-- The calls by which what stands of a slot outside its namespace is looked for and taken away. -/
inductive Call.Unmaking (id : SlotId) (egress : String) : Call → Prop
  | onRecord : Unmaking id egress (.namespaceExists id.namespaceName)
  | probe : Unmaking id egress (.linkExists id.vethName)
  | unplug : Unmaking id egress (.deleteLink id.vethName)
  | unroute : Unmaking id egress (.deleteRoute id.hostRoute)
  | unrule (rule : Rule) (hrule : rule ∈ id.hostRules egress) : Unmaking id egress (.deleteRule rule)

/-- The calls that take a network away are among those that are made wherever the thread is. -/
theorem Call.Unmaking.outer {id : SlotId} {egress : String} {c : Call} (h : Unmaking id egress c) :
    Outer id egress c := by
  cases h with
  | onRecord => exact .onRecord
  | probe => exact .probe
  | unplug => exact .unplug
  | unroute => exact .unroute
  | unrule rule hrule => exact .unrule rule hrule

/-- The calls made for a slot only when the thread is in the slot's namespace. `goal` says to which
    namespaces the outer end of the cable may be moved. -/
inductive Call.Inner (id : SlotId) (goal : Handle → Prop) : Call → Prop
  | cable : Inner id goal (.addVethPair id.vethName id.vpeerName)
  | up (link : String) (hlink : link ∈ [id.vpeerName, id.tapName, loopback]) :
      Inner id goal (.setLinkUp link)
  | vpeer : Inner id goal (.addAddress id.vpeerName id.vpeerCidr)
  | move (origin : Handle) (horigin : goal origin) : Inner id goal (.moveLink id.vethName origin)
  | tap : Inner id goal (.addTap id.tapName)
  | address : Inner id goal (.addAddress id.tapName id.tapCidr)
  | route : Inner id goal (.addRoute id.defaultRoute)
  | rule (rule : Rule) (hrule : rule ∈ id.natRules) : Inner id goal (.appendRule rule)

open Sequence

variable {τ ε : Type}

/-- What the calls that clear up after a slot keep. -/
structure Clearing (replies : Replies τ) (inv : τ → Prop) (id : SlotId) (egress : String)
    (outside : Assertion τ) : Prop where
  holds : ∀ {slot t}, outside slot t → inv t
  id_eq : ∀ {slot t}, outside slot t → slot.id = id
  forgets : ∀ {slot t}, outside slot t → outside slot.clearNetwork.2 t
  unmakes : ∀ {c guards slot t result t'}, Call.Unmaking id egress c → outside slot t →
    replies c guards t result t' → outside slot t'
  /-- the namespace is deleted only for a slot that remembers no firewall -/
  deletes : ∀ {guards slot t result t'}, outside slot t → slot.hasFirewall = false →
    replies (.deleteNamespace id.namespaceName) guards t result t' → outside slot t'

/-- What single calls keep. -/
structure Frame (replies : Replies τ) (inv : τ → Prop) (id : SlotId) (egress : String)
    (back goal home : Handle → Prop) (outside inside made : Assertion τ) : Prop
    extends Wall replies inv id back home outside inside made where
  forgets : ∀ {slot t}, outside slot t → outside slot.clearNetwork.2 t
  outer : ∀ {c guards slot t result t'}, Call.Outer id egress c → outside slot t →
    replies c guards t result t' → outside slot t'
  deletes : ∀ {guards slot t result t'}, outside slot t → slot.hasFirewall = false →
    replies (.deleteNamespace id.namespaceName) guards t result t' → outside slot t'
  inner : ∀ {c guards slot t result t'}, Call.Inner id goal c → inside slot t →
    replies c guards t result t' → inside slot t'
  creates : ∀ {guards slot t result t'}, outside slot t →
    replies (.createNamespace id.namespaceName) guards t result t' →
    outside slot t' ∧ ∀ handle, result = .ok handle → inside (slot.attachNamespace handle) t'

variable {replies : Replies τ} {inv : τ → Prop} {id : SlotId} {egress : String}
  {back goal home : Handle → Prop} {outside inside made : Assertion τ}

/-- Seeing to it that a slot has its namespace, from what each way of doing so leads to: the namespace cannot be
    looked for, it is absent and is made afresh, or it is there and may lack a firewall. -/
theorem Slot.provide_of_parts {pre undone absent present broken post fail : Assertion τ}
    (hid : ∀ slot t, pre slot t → slot.id = id) (hinv : ∀ slot t, pre slot t → inv t)
    (herror : ∀ slot t failure t', pre slot t →
      replies (.namespaceExists id.namespaceName) [] t (.error failure) t' → undone slot t')
    (habsent : ∀ slot t t', pre slot t →
      replies (.namespaceExists id.namespaceName) [] t (.ok false) t' → absent slot t')
    (hpresent : ∀ slot t t', pre slot t →
      replies (.namespaceExists id.namespaceName) [] t (.ok true) t' → present slot t')
    (hpost : ∀ slot t, present slot t → post slot t)
    (hsetUp : Triple replies inv present (Sequence.inNamespace Firewall.setUp) post broken)
    (hcreate : Triple replies inv absent (Slot.createAfresh egress) post fail)
    (hremove : Triple replies inv undone (Slot.remove egress) fail fail)
    (hrepair : Triple replies inv broken (Slot.remove egress) fail fail) :
    Triple replies inv pre (Slot.provide egress) post fail := by
  have hfail (cause : NetworkError) : Triple replies inv undone
      (do throw (PrepareFailure.probe cause (← failure? (Slot.remove egress))) :
        SequenceOf PrepareFailure Unit) post fail :=
    .bind (.failure? hremove) fun _ => .throw
  have hfirewall : Triple replies inv present
      (do
        if !(← get).hasFirewall then
          Slot.orUndo (Sequence.inNamespace Firewall.setUp) (Slot.remove egress)
            PrepareFailure.firewall) post fail := by
    refine .get fun seen => .ite (fun _ slot t ht => ?_) fun _ slot t ht => hpost slot t ht.2
    exact Triple.orUndo hsetUp hrepair slot t ht.2
  refine .get fun seen => ?_
  rintro slot t ⟨rfl, ht⟩
  obtain rfl := hid slot t ht
  rw [ensures_bind, ensures_attempt, ensures_perform]
  refine ⟨hinv slot t ht, fun result t' hreply => ?_⟩
  match result with
  | .error cause => exact hfail cause slot t' (herror slot t cause t' ht hreply)
  | .ok false => exact hcreate slot t' (habsent slot t t' ht hreply)
  | .ok true => exact hfirewall slot t' (hpresent slot t t' ht hreply)

/-- What a removal does after the firewall is closed. -/
def Slot.removeOutside (id : SlotId) (egress : String) (inside : List NetworkError) : Sequence Unit := do
  let outside ← attemptAll <|
    (id.hostRules egress).map (fun rule =>
        Slot.deletion "deleting host forwarding rule" (perform (.deleteRule rule)))
      ++ [Slot.deletion "deleting host route" (perform (.deleteRoute id.hostRoute)),
        Slot.deletion "deleting veth" (perform (.deleteLink id.vethName))]
  modify fun slot => slot.clearNetwork.2
  let last ← attemptAll [Slot.deletion "deleting namespace" (perform (.deleteNamespace id.namespaceName))]
  failWith (inside ++ outside ++ last)

namespace Clearing

variable (hclearing : Clearing replies inv id egress outside)
include hclearing

theorem perform_unmaking {c : Call} (hc : Call.Unmaking id egress c) :
    Triple replies inv outside (perform c) outside outside :=
  .perform (fun _ _ ht => hclearing.holds ht) (fun _ _ _ _ ht hreply => hclearing.unmakes hc ht hreply)
    fun _ _ _ _ ht hreply => hclearing.unmakes hc ht hreply

/-- These calls do not touch the slot's memory. -/
theorem perform_unmaking_bare {c : Call} (hc : Call.Unmaking id egress c) :
    Triple replies inv outside.bare (perform c) outside.bare outside.bare :=
  .perform (fun _ _ ht => hclearing.holds ht.1)
    (fun _ _ _ _ ht hreply => ⟨hclearing.unmakes hc ht.1 hreply, ht.2⟩)
    fun _ _ _ _ ht hreply => ⟨hclearing.unmakes hc ht.1 hreply, ht.2⟩

theorem perform_delete :
    Triple replies inv outside.bare (perform (.deleteNamespace id.namespaceName)) outside.bare
      outside.bare :=
  .perform (fun _ _ ht => hclearing.holds ht.1)
    (fun _ _ _ _ ht hreply => ⟨hclearing.deletes ht.1 ht.2 hreply, ht.2⟩)
    fun _ _ _ _ ht hreply => ⟨hclearing.deletes ht.1 ht.2 hreply, ht.2⟩

theorem clear :
    Triple (ε := ε) replies inv outside (modify fun slot => slot.clearNetwork.2) outside.bare
      outside.bare :=
  .modify fun _ _ ht => ⟨hclearing.forgets ht, by simp⟩

/-- The host's rules are deleted one by one. -/
theorem unruleAll {name : String} : ∀ steps ∈ (id.hostRules egress).map (fun rule =>
      Slot.deletion name (perform (.deleteRule rule))),
    Triple replies inv outside.bare steps outside.bare outside.bare := by
  intro steps hsteps
  obtain ⟨rule, hrule, rfl⟩ := List.mem_map.mp hsteps
  exact .deletion (hclearing.perform_unmaking_bare (.unrule rule hrule)) fun _ _ ht => ht

/-- Clearing up keeps what its single calls keep. It deletes the namespace last, when the slot has forgotten its
    firewall. -/
theorem reap : Triple replies inv outside (Slot.reap egress) outside.bare outside.bare := by
  refine .get fun seen => ?_
  rintro slot t ⟨rfl, ht⟩
  obtain rfl := hclearing.id_eq ht
  have hroute := hclearing.perform_unmaking_bare .unroute
  have hveth := hclearing.perform_unmaking .unplug
  have hrecord := hclearing.perform_unmaking_bare .onRecord
  have hunplug {fail : Assertion τ} : Triple (ε := NetworkError) replies inv outside
      (attemptAll [Slot.ifFound (step "probing veth" (perform (.linkExists slot.id.vethName)))
        (Slot.deletion "deleting dangling veth" (perform (.deleteLink slot.id.vethName)))])
      outside fail := by
    refine .attemptAll fun steps hsteps => ?_
    obtain rfl := List.mem_singleton.mp hsteps
    exact .ifFound (.step (hclearing.perform_unmaking .probe)) (.deletion hveth fun _ _ ht => ht)
  refine Triple.bind hunplug (fun _ => .bind hclearing.clear fun _ =>
    .bind (.attemptAll fun steps hsteps => ?_) fun _ => .failWith (fun _ _ ht => ht)
      fun _ _ ht => ht) slot t ht
  · simp only [List.mem_append, List.mem_cons, List.not_mem_nil, or_false] at hsteps
    rcases hsteps with hrules | rfl | rfl
    · exact hclearing.unruleAll steps hrules
    · exact .deletion hroute fun _ _ ht => ht
    · exact .ifFound (.step hrecord) (.deletion hclearing.perform_delete fun _ _ ht => ht)

/-- Whatever has failed inside, the rest of a removal keeps what its calls keep. The namespace is deleted last,
    when the slot has forgotten it. -/
theorem removeOutside (inside : List NetworkError) :
    Triple replies inv outside.bare (Slot.removeOutside id egress inside) outside.bare outside.bare := by
  have hroute := hclearing.perform_unmaking_bare .unroute
  have hveth := hclearing.perform_unmaking_bare .unplug
  have hclear : Triple (ε := NetworkError) replies inv outside.bare
      (modify fun slot => slot.clearNetwork.2) outside.bare outside.bare :=
    hclearing.clear.mono (fun _ _ ht => ht.1) (fun _ _ ht => ht) fun _ _ ht => ht
  refine .bind (.attemptAll fun steps hsteps => ?_) fun _ => .bind hclear fun _ =>
    .bind (.attemptAll fun steps hsteps => ?_) fun _ => .failWith (fun _ _ ht => ht) fun _ _ ht => ht
  · simp only [List.mem_append, List.mem_cons, List.not_mem_nil, or_false] at hsteps
    rcases hsteps with hrules | rfl | rfl
    · exact hclearing.unruleAll steps hrules
    · exact .deletion hroute fun _ _ ht => ht
    · exact .deletion hveth fun _ _ ht => ht
  · obtain rfl := List.mem_singleton.mp hsteps
    exact .deletion hclearing.perform_delete fun _ _ ht => ht

end Clearing

namespace Wall

variable (hwall : Wall replies inv id back home outside inside made) {origins : Handle → Prop}
  {start rest : Assertion τ}
include hwall

/-- A removal keeps what closing the firewall and the single deletions keep. The firewall is closed before
    anything is deleted, and the slot has forgotten it by then. -/
theorem remove (haround : Around replies inv origins outside start rest)
    (hclearing : Clearing replies inv id egress rest) :
    Triple replies inv start (Slot.remove egress) rest.bare rest.bare := by
  refine .get fun seen => ?_
  rintro slot t ⟨rfl, ht⟩
  obtain rfl := hwall.id_eq (haround.out ht)
  exact Triple.bind (hwall.closeFirewall haround) hclearing.removeOutside slot t ht

/-- Applying a policy may bring about more than is known around visits, which is then what a success
    comes to. A failure has the slot removed. -/
theorem applyPolicy {post : Assertion τ} {policy : Internet}
    {blame : NetworkError → Option NetworkError → ε}
    (haround : Around replies inv origins outside rest rest)
    (hclearing : Clearing replies inv id egress rest)
    (hpolicy : Triple replies inv start (Sequence.inNamespace (Firewall.configure policy)) post rest) :
    Triple replies inv start
      (Slot.orUndo (Sequence.inNamespace (Firewall.configure policy)) (Slot.remove egress) blame) post
      rest :=
  .orUndo hpolicy (hwall.remove haround hclearing).of_bare

end Wall

namespace Frame

@[inherit_doc Visit.under]
theorem under (hframe : Frame replies inv id egress back goal home outside inside made)
    (origin : Handle) :
    Frame (replies.under origin) inv id egress back goal home outside inside made where
  toWall := hframe.toWall.under origin
  outer := fun hc ht hreply => hframe.outer hc ht hreply
  deletes := fun ht hbare hreply => hframe.deletes ht hbare hreply
  inner := fun hc ht hreply => hframe.inner hc ht hreply
  creates := fun ht hreply => hframe.creates ht hreply
  forgets := hframe.forgets

section

variable (hframe : Frame replies inv id egress back goal home outside inside made)
include hframe

theorem clearing : Clearing replies inv id egress outside where
  holds := hframe.holds
  id_eq := hframe.id_eq
  forgets := hframe.forgets
  unmakes := fun hc ht hreply => hframe.outer hc.outer ht hreply
  deletes := hframe.deletes

theorem step_outer {name : String} {c : Call} (hc : Call.Outer id egress c) :
    Triple replies inv outside (step name (perform c)) outside outside :=
  .step (.perform (fun _ _ ht => hframe.holds ht)
    (fun _ _ _ _ ht hreply => hframe.outer hc ht hreply)
    fun _ _ _ _ ht hreply => hframe.outer hc ht hreply)

theorem step_inner {name : String} {c : Call} (hc : Call.Inner id goal c) :
    Triple replies inv inside (step name (perform c)) inside outside :=
  .step (.perform (fun _ _ ht => hframe.holds (hframe.of_inside ht))
    (fun _ _ _ _ ht hreply => hframe.inner hc ht hreply)
    fun _ _ _ _ ht hreply => hframe.of_inside (hframe.inner hc ht hreply))

theorem layCable {origin : Handle} (horigin : goal origin) :
    Triple replies inv inside (Slot.layCable id origin) inside outside := by
  unfold Slot.layCable
  exact .bind (hframe.step_inner .cable) fun _ => .bind (hframe.step_inner (.up _ (by simp)))
    fun _ => .bind (hframe.step_inner .vpeer) fun _ => hframe.step_inner (.move origin horigin)

theorem readyHostEnd {origin : Handle} (horigin : back origin) :
    Triple replies inv outside (Slot.readyHostEnd id origin) outside outside := by
  unfold Slot.readyHostEnd
  exact .bind (.step (hframe.perform_return horigin)) fun _ => .bind (hframe.step_outer .up)
    fun _ => hframe.step_outer .address

/-- Entering the slot's namespace again leads inside, through the handle that the slot remembers or through one
    that is opened by name. -/
theorem reenter : Triple replies inv outside Slot.reenter inside outside := by
  refine .get fun seen => ?_
  cases hhandle : seen.handle with
  | some handle =>
    rintro slot t ⟨rfl, ht⟩
    exact Triple.step (hframe.perform_enter (hframe.handle ht hhandle)) slot t ht
  | none => exact fun slot t ht => ht.2

theorem furnish : Triple replies inv inside (Slot.furnish id) inside outside := by
  unfold Slot.furnish
  exact .bind (hframe.step_inner .tap) fun _ => .bind (hframe.step_inner (.up _ (by simp)))
    fun _ => .bind (hframe.step_inner .address) fun _ =>
    .bind (hframe.step_inner (.up _ (by simp))) fun _ => .bind (hframe.step_inner .route)
    fun _ => .forM fun rule hrule => hframe.step_inner (.rule rule hrule)

theorem connectHost {origin : Handle} (horigin : back origin) :
    Triple replies inv outside (Slot.connectHost id egress origin) outside outside := by
  unfold Slot.connectHost
  exact .bind (.step (hframe.perform_return horigin)) fun _ => .bind (hframe.step_outer .route)
    fun _ => .forM fun rule hrule => hframe.step_outer (.rule rule hrule)

/-- The part of `create` that runs under its guard. It moves between the host and the slot's namespace twice,
    and every call of it is one of those that the frame knows. -/
theorem build {origin : Handle} (hback : back origin) (hgoal : goal origin) :
    Triple replies inv outside
      (do
        let handle ← step "creating namespace" (perform (.createNamespace id.namespaceName))
        modify fun slot => slot.attachNamespace handle
        Slot.layCable id origin
        Slot.readyHostEnd id origin
        Slot.reenter
        Slot.furnish id
        step "initializing firewall" Firewall.setUp
        Slot.connectHost id egress origin) outside outside := by
  intro slot t ht
  rw [ensures_bind, ensures_step, ensures_perform]
  refine ⟨hframe.holds ht, fun result t' hreply => ?_⟩
  obtain ⟨ht', hinside⟩ := hframe.creates ht hreply
  cases result with
  | error failure => exact ht'
  | ok handle =>
    rw [byResult_ok, ensures_bind, ensures_modify]
    have hrest : Triple replies inv inside
        (do
          Slot.layCable id origin
          Slot.readyHostEnd id origin
          Slot.reenter
          Slot.furnish id
          step "initializing firewall" Firewall.setUp
          Slot.connectHost id egress origin) outside outside := by
      refine .bind (hframe.layCable hgoal) fun _ => ?_
      refine .bind ((hframe.readyHostEnd hback).mono (fun _ _ => hframe.of_inside)
        (fun _ _ ht => ht) fun _ _ ht => ht) fun _ => ?_
      refine .bind hframe.reenter fun _ => .bind hframe.furnish fun _ => ?_
      refine .bind (.step (hframe.setUp.mono (fun _ _ ht => ht) (fun _ _ => hframe.of_inside)
        fun _ _ => hframe.of_inside)) fun _ => hframe.connectHost hback
    exact hrest _ t' (hinside handle rfl)

variable {origins : Handle → Prop} {start rest : Assertion τ}

/-- The network is made from where the cable may lead: the guard is set where the thread is, and the outer end
    of the cable goes there. -/
theorem create (haround : Around replies inv origins outside start rest)
    (hgoal : ∀ {guards slot t origin t'}, start slot t →
      replies .currentNamespace guards t (.ok origin) t' → goal origin) :
    Triple replies inv start (Slot.create egress) rest rest := by
  have hcapture (slot : Slot) (t : τ) (ht : start slot t) :
      Ensures replies inv (step "capturing host namespace" (perform .currentNamespace))
        (fun origin slot t => (origins origin ∧ back origin ∧ goal origin) ∧ outside slot t)
        (fun _ => rest) slot t := by
    rw [ensures_step, ensures_perform]
    refine ⟨hframe.holds (haround.out ht), fun result t' hreply => ?_⟩
    obtain ⟨hrest, horigin⟩ := haround.captures ht hreply
    obtain ⟨ht', hback⟩ := hframe.capture (haround.out ht) hreply
    cases result with
    | ok origin => exact ⟨⟨horigin origin rfl, hback origin rfl, hgoal ht hreply⟩, ht'⟩
    | error failure => exact hrest
  unfold Slot.create
  refine .underGuard hcapture (fun origin _ hgoal => .get fun seen => ?_) haround.toEnds haround.toEnds
  rintro slot t ⟨rfl, ht⟩
  rw [hframe.id_eq ht]
  exact (hframe.under origin).build hgoal.1 hgoal.2 slot t ht

/-- Making a network where something may be left of an earlier one: first that is cleared up, whatever comes of
    it, and then the network is made. If it cannot be made, what was made is cleared up as well. -/
theorem createAfresh (haround : Around replies inv origins outside start rest)
    (hstart : Clearing replies inv id egress start) (hrest : Clearing replies inv id egress rest)
    (hgoal : ∀ {guards slot t origin t'}, start slot t →
      replies .currentNamespace guards t (.ok origin) t' → goal origin) :
    Triple replies inv start (Slot.createAfresh egress) rest rest :=
  .bind (.failure? hstart.reap.of_bare) fun _ =>
    .orUndo (hframe.create haround hgoal) hrest.reap.of_bare

/-- Seeing to it that a slot has its namespace. `pre` has to hold before it is known whether a network has to be
    made; where one has to be made, `start` holds, which may say more. -/
theorem provide {pre : Assertion τ} (haround : Around replies inv origins outside start rest)
    (hrest : Around replies inv origins outside rest rest)
    (hprobe : ∀ {slot t result t'}, pre slot t →
      replies (.namespaceExists id.namespaceName) [] t result t' → rest slot t')
    (habsent : ∀ {slot t t'}, pre slot t →
      replies (.namespaceExists id.namespaceName) [] t (.ok false) t' → start slot t')
    (hpre : ∀ {slot t}, pre slot t → outside slot t)
    (hstart : Clearing replies inv id egress start) (hclearing : Clearing replies inv id egress rest)
    (hgoal : ∀ {guards slot t origin t'}, start slot t →
      replies .currentNamespace guards t (.ok origin) t' → goal origin) :
    Triple replies inv pre (Slot.provide egress) rest rest := by
  have hremove : Triple replies inv rest (Slot.remove egress) rest rest :=
    (hframe.toWall.remove hrest hclearing).of_bare
  have hsetUp : Triple replies inv rest (Sequence.inNamespace Firewall.setUp) rest rest :=
    hframe.inNamespace hrest fun origin => (hframe.under origin).setUp
  exact Slot.provide_of_parts (fun _ _ ht => hframe.id_eq (hpre ht)) (fun _ _ ht => hframe.holds (hpre ht))
    (fun _ _ _ _ ht hreply => hprobe ht hreply) (fun _ _ _ ht hreply => habsent ht hreply)
    (fun _ _ _ ht hreply => hprobe ht hreply) (fun _ _ ht => ht) hsetUp
    (hframe.createAfresh haround hstart hclearing hgoal) hremove hremove

/-- Where the cable may lead anywhere, a network can be made anywhere. -/
theorem provide_anywhere (hgoal : ∀ origin, goal origin) :
    Triple replies inv outside (Slot.provide egress) outside outside :=
  hframe.provide hframe.around hframe.around (fun ht hreply => hframe.outer .onRecord ht hreply)
    (fun ht hreply => hframe.outer .onRecord ht hreply) (fun ht => ht) hframe.clearing hframe.clearing
    fun _ _ => hgoal _

/-- Wherever the thread is, a slot can be removed. -/
theorem remove_anywhere :
    Triple replies inv outside (Slot.remove egress) outside.bare outside.bare :=
  hframe.toWall.remove hframe.around hframe.clearing

end

end Frame
end SlotPool
