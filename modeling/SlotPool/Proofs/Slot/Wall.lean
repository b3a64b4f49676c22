import SlotPool.Proofs.Slot.Visit
import SlotPool.Slot.Removal
/-!
What the firewall sequences keep. They run inside the slot's namespace, and they take a chain away or
make one only for a slot that remembers no firewall. So a condition may say that what the slot
remembers of its firewall is true.
-/

namespace SlotPool

open Sequence

variable {τ ε : Type}

theorem blockRules_place {rule : Rule} (hrule : rule ∈ blockRules) :
    rule.table = .filter ∧ rule.chain = egressChain := by
  simp only [blockRules, List.mem_cons, List.not_mem_nil, or_false] at hrule
  rcases hrule with rfl | rfl <;> exact ⟨rfl, rfl⟩

theorem Internet.rules_block {policy : Internet} : ∀ rule ∈ policy.rules, rule ∈ blockRules := by
  cases policy with
  | allowed => exact fun _ hrule => by cases hrule
  | blocked => exact fun _ hrule => hrule

/-- The calls that change the rules of a chain that stays. -/
inductive Call.Ruling : Call → Prop
  | flush : Ruling (.flushChain .filter egressChain)
  | rule (rule : Rule) (hrule : rule ∈ blockRules) : Ruling (.appendRule rule)

/-- The calls that take a chain away. -/
inductive Call.Unchaining (id : SlotId) : Call → Prop
  | unhook : Unchaining id (.deleteRule id.hookRule)
  | unchain : Unchaining id (.deleteChain .filter egressChain)

/-- What the calls of the firewall keep. `made` holds between the making of a chain and its hooking. -/
structure Wall (replies : Replies τ) (inv : τ → Prop) (id : SlotId) (back home : Handle → Prop)
    (outside inside made : Assertion τ) : Prop
    extends Visit replies inv id back home outside inside where
  rules : ∀ {c guards slot t result t'}, Call.Ruling c → inside slot t →
    replies c guards t result t' → inside slot t'
  unchains : ∀ {c guards slot t result t'}, Call.Unchaining id c → inside slot t →
    slot.hasFirewall = false → replies c guards t result t' → inside slot t'
  chains : ∀ {guards slot t result t'}, inside slot t → slot.hasFirewall = false →
    replies (.newChain .filter egressChain) guards t result t' →
    inside slot t' ∧ (result = .ok () → made slot t')
  hooks : ∀ {guards slot t result t'}, made slot t →
    replies (.appendRule id.hookRule) guards t result t' →
    inside slot t' ∧ (result = .ok () → inside (slot.installFirewall .allowed).2 t')
  made_holds : ∀ {slot t}, made slot t → inv t
  /-- a slot may forget its firewall -/
  memory : ∀ {slot after t}, after.id = slot.id → after.handle = slot.handle →
    (after.hasFirewall = true → slot.hasFirewall = true) →
    (outside slot t → outside after t) ∧ (inside slot t → inside after t)

/-- To apply a policy, no more is done than to change the rules in the chain. -/
theorem Sequence.triple_configure {replies : Replies τ} {inv : τ → Prop} {inside : Assertion τ} {policy : Internet}
    (hrules : ∀ {c}, Call.Ruling c → Triple replies inv inside (perform c) inside inside)
    (hmemory : ∀ slot t, inside slot t → inside (slot.setInternet policy) t) :
    Triple replies inv inside (Firewall.configure policy) inside inside := by
  have happly : Triple replies inv inside
      (do
        step "flushing egress chain" (perform (.flushChain .filter egressChain))
        policy.rules.forM fun rule => step "blocking internet access" (perform (.appendRule rule))
        modify fun slot => slot.setInternet policy) inside inside := by
    refine .bind (.step (hrules .flush)) fun _ => ?_
    refine .bind (.forM fun rule hrule => .step (hrules (.rule rule ?_))) fun _ => .modify hmemory
    exact Internet.rules_block rule hrule
  refine .get fun seen => .ite (fun _ slot t ht => ht.2) fun _ slot t ht => ?_
  exact happly slot t ht.2

namespace Wall

variable {replies : Replies τ} {inv : τ → Prop} {id : SlotId} {back home : Handle → Prop}
  {outside inside made : Assertion τ}

@[inherit_doc Visit.under]
theorem under (hwall : Wall replies inv id back home outside inside made) (origin : Handle) :
    Wall (replies.under origin) inv id back home outside inside made where
  toVisit := hwall.toVisit.under origin
  rules := fun hc ht hreply => hwall.rules hc ht hreply
  unchains := fun hc ht hbare hreply => hwall.unchains hc ht hbare hreply
  chains := fun ht hbare hreply => hwall.chains ht hbare hreply
  hooks := fun ht hreply => hwall.hooks ht hreply
  made_holds := hwall.made_holds
  memory := hwall.memory

section

variable (hwall : Wall replies inv id back home outside inside made)
include hwall

theorem perform_rules {c : Call} (hc : Call.Ruling c) :
    Triple replies inv inside (perform c) inside inside :=
  .perform (fun _ _ ht => hwall.holds (hwall.of_inside ht))
    (fun _ _ _ _ ht hreply => hwall.rules hc ht hreply)
    fun _ _ _ _ ht hreply => hwall.rules hc ht hreply

theorem perform_unchains {c : Call} (hc : Call.Unchaining id c) :
    Triple replies inv inside.bare (perform c) inside.bare inside.bare :=
  .perform (fun _ _ ht => hwall.holds (hwall.of_inside ht.1))
    (fun _ _ _ _ ht hreply => ⟨hwall.unchains hc ht.1 ht.2 hreply, ht.2⟩)
    fun _ _ _ _ ht hreply => ⟨hwall.unchains hc ht.1 ht.2 hreply, ht.2⟩

theorem perform_flush :
    Triple replies inv inside.bare (perform (.flushChain .filter egressChain)) inside.bare
      inside.bare :=
  .perform (fun _ _ ht => hwall.holds (hwall.of_inside ht.1))
    (fun _ _ _ _ ht hreply => ⟨hwall.rules .flush ht.1 hreply, ht.2⟩)
    fun _ _ _ _ ht hreply => ⟨hwall.rules .flush ht.1 hreply, ht.2⟩

/-- What is left of an earlier firewall is taken away only for a slot that remembers none, so its chain may go.
    -/
theorem removeChain :
    Triple replies inv inside.bare (Firewall.removeChain id) inside.bare inside.bare := by
  have hstep {name : String} {steps : Sequence Unit}
      (hsteps : Triple replies inv inside.bare steps inside.bare inside.bare) :
      Triple replies inv inside.bare (step name (tolerant steps)) inside.bare inside.bare :=
    .step (.tolerant hsteps fun _ _ ht => ht)
  unfold Firewall.removeChain
  exact .bind (hstep (hwall.perform_unchains .unhook)) fun _ =>
    .bind (hstep hwall.perform_flush) fun _ => hstep (hwall.perform_unchains .unchain)

/-- Setting up a firewall ends with one in place that the slot remembers. -/
theorem setUp : Triple replies inv inside Firewall.setUp inside inside := by
  refine .get fun seen => .ite (fun hbare => ?_) fun _ slot t ht => ht.2
  rintro slot t ⟨rfl, ht⟩
  obtain rfl := hwall.id_eq (hwall.of_inside ht)
  have hremoved : Triple replies inv inside.bare (Firewall.removeChain slot.id) inside.bare inside :=
    hwall.removeChain.mono (fun _ _ ht => ht) (fun _ _ ht => ht) fun _ _ ht => ht.1
  refine Triple.bind hremoved (fun _ => ?_) slot t ⟨ht, by simpa using hbare⟩
  have hnew : Triple replies inv inside.bare (perform (.newChain .filter egressChain)) made inside :=
    .perform (fun _ _ ht => hwall.holds (hwall.of_inside ht.1))
      (fun _ _ _ _ ht hreply => (hwall.chains ht.1 ht.2 hreply).2 rfl)
      fun _ _ _ _ ht hreply => (hwall.chains ht.1 ht.2 hreply).1
  have hhook : Triple replies inv made (perform (.appendRule slot.id.hookRule))
      (fun slot t => inside (slot.installFirewall .allowed).2 t) inside :=
    .perform (fun _ _ ht => hwall.made_holds ht)
      (fun _ _ _ _ ht hreply => (hwall.hooks ht hreply).2 rfl)
      fun _ _ _ _ ht hreply => (hwall.hooks ht hreply).1
  exact .bind (.step hnew) fun _ => .bind (.step hhook) fun _ => .modify fun _ _ ht => ht

theorem configure (policy : Internet) :
    Triple replies inv inside (Firewall.configure policy) inside inside :=
  triple_configure hwall.perform_rules fun _ _ ht => (hwall.memory (by simp) (by simp) (by simp)).2 ht

/-- The slot forgets its firewall first, and its chain is taken away afterwards. So at no time does the slot
    remember a firewall that is no longer there. -/
theorem close : Triple replies inv inside Firewall.close inside inside := by
  refine .get fun seen => ?_
  rintro slot t ⟨rfl, ht⟩
  obtain rfl := hwall.id_eq (hwall.of_inside ht)
  have hforgotten : inside.bare slot.takeFirewall.2 t :=
    ⟨(hwall.memory (by simp) (by simp) (by simp)).2 ht, by simp⟩
  have hremoved : Triple replies inv inside.bare (Firewall.removeChain slot.id) inside inside :=
    hwall.removeChain.mono (fun _ _ ht => ht) (fun _ _ ht => ht.1) fun _ _ ht => ht.1
  have hrest : Triple replies inv inside.bare
      (if slot.takeFirewall.1.isSome then Firewall.removeChain slot.id else pure ()) inside inside :=
    .ite (fun _ => hremoved) fun _ _ _ ht => ht.1
  exact hrest _ t hforgotten

theorem around : Around replies inv back outside outside outside :=
  hwall.toVisit.around (hwall.memory (by simp) (by simp) (by simp)).1

/-- After the firewall is closed, the slot remembers none. -/
theorem closeFirewall {origins : Handle → Prop} {start rest : Assertion τ}
    (haround : Around replies inv origins outside start rest) :
    Triple replies inv start Slot.closeFirewall rest.bare rest.bare := by
  have hclose : Triple replies inv start
      (Sequence.inNamespace (attempt (ε := NetworkError) Firewall.close)) rest rest :=
    hwall.inNamespace haround fun origin => .attempt (hwall.under origin).close
  have hforget : Triple (ε := NetworkError) replies inv rest
      (modify fun slot => slot.takeFirewall.2) rest.bare rest.bare :=
    .modify fun _ _ ht => ⟨haround.unwalled ht, by simp⟩
  refine .get fun seen => .ite (fun _ => ?_) fun hbare slot t ht => ⟨haround.stays ht.2, ?_⟩
  · rintro slot t ⟨-, ht⟩
    refine Triple.bind (.attempt hclose) (fun closed => .bind hforget ?_) slot t ht
    rintro -
    split
    · exact .pure
    · exact .pure
    · exact .pure
  · simpa [ht.1] using hbare

end

end Wall
end SlotPool
