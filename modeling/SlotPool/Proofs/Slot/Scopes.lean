import SlotPool.Proofs.Primitive.Scoped
import SlotPool.Proofs.Slot.Errand
/-!
Whatever is done for a slot sets guards one after another. What is put together of programs of a kind is of that
kind, so it takes one rule for each way to build a sequence, and then one look at each sequence.
-/

namespace SlotPool

namespace Sequence

variable {ε α β : Type} {kind : (α : Type) → Program α → Prop}

/-- Whatever the slot remembers, a sequence is a program of the given kind. -/
def Follows (kind : (α : Type) → Program α → Prop) (steps : SequenceOf ε α) : Prop :=
  ∀ slot, kind (Except ε α × Slot) (steps.run.run slot)

section

variable (hkind : Program.Closed kind)
include hkind

theorem follows_pure {value : α} : Follows kind (pure value : SequenceOf ε α) := fun _ => hkind.done _

theorem follows_throw {failure : ε} : Follows kind (throw failure : SequenceOf ε α) := fun _ => hkind.done _

theorem follows_modify {change : Slot → Slot} : Follows kind (modify change : SequenceOf ε Unit) :=
  fun _ => hkind.done _

/-- What is put together of two sequences of a kind is of that kind. -/
theorem Follows.bind {steps : SequenceOf ε α} {rest : α → SequenceOf ε β} (hsteps : Follows kind steps)
    (hrest : ∀ value, Follows kind (rest value)) : Follows kind (steps >>= rest) := by
  intro slot
  refine hkind.bind (hsteps slot) fun ended => ?_
  obtain ⟨result, after⟩ := ended
  cases result with
  | ok value => exact hrest value after
  | error failure => exact hkind.done _

omit hkind in
/-- A sequence that begins by looking at the slot. -/
theorem Follows.get {rest : Slot → SequenceOf ε β} (hrest : ∀ seen, Follows kind (rest seen)) :
    Follows kind (get >>= rest) := fun slot => hrest slot slot

omit hkind in
theorem Follows.ite {c : Prop} [Decidable c] {steps steps' : SequenceOf ε α} (hthen : Follows kind steps)
    (helse : Follows kind steps') : Follows kind (if c then steps else steps') := by
  split
  · exact hthen
  · exact helse

/-- Building on the result of a sequence without a call in between. -/
theorem Follows.map {ε' α' : Type} {steps : SequenceOf ε α} {change : Except ε α → Except ε' α'}
    (h : Follows kind steps) : Follows kind (ExceptT.mk (change <$> steps.run) : SequenceOf ε' α') :=
  fun slot => hkind.bind (h slot) fun _ => hkind.done _

theorem Follows.step {name : String} {steps : Sequence α} (h : Follows kind steps) : Follows kind (step name steps) :=
  h.map hkind

theorem Follows.tolerant {steps : Sequence Unit} (h : Follows kind steps) : Follows kind (tolerant steps) :=
  h.map hkind

theorem Follows.attempt {steps : Sequence α} (h : Follows kind steps) :
    Follows kind (attempt steps : SequenceOf ε (Except NetworkError α)) :=
  h.map hkind

theorem Follows.failure? {steps : Sequence α} (h : Follows kind steps) :
    Follows kind (failure? steps : SequenceOf ε (Option NetworkError)) :=
  (h.attempt hkind).bind hkind fun _ => follows_pure hkind

/-- Sequences of a kind that are all run are of that kind together. -/
theorem Follows.attemptAll {list : List (Sequence Unit)} (h : ∀ steps ∈ list, Follows kind steps) :
    Follows kind (attemptAll list : SequenceOf ε (List NetworkError)) := by
  induction list with
  | nil => exact follows_pure hkind
  | cons steps rest ih =>
    obtain ⟨hfirst, hrest⟩ := List.forall_mem_cons.mp h
    exact (hfirst.failure? hkind).bind hkind fun _ => (ih hrest).bind hkind fun _ => follows_pure hkind

theorem follows_failWith {failures : List NetworkError} : Follows kind (failWith failures) := fun _ => hkind.done _

theorem Follows.forM {γ : Type} {f : γ → Sequence Unit} {xs : List γ} (h : ∀ x, Follows kind (f x)) :
    Follows kind (xs.forM f) := by
  induction xs with
  | nil => exact follows_pure hkind
  | cons x xs ih => exact (h x).bind hkind fun _ => ih

theorem Follows.deletion {name : String} {steps : Sequence Unit} (h : Follows kind steps) :
    Follows kind (Slot.deletion name steps) :=
  (h.tolerant hkind).step hkind

theorem Follows.ifFound {probe : Sequence Bool} {delete : Sequence Unit} (hprobe : Follows kind probe)
    (hdelete : Follows kind delete) : Follows kind (Slot.ifFound probe delete) :=
  hprobe.bind hkind fun _ => .ite hdelete (follows_pure hkind)

theorem Follows.orUndo {steps undo : Sequence Unit} {blame : NetworkError → Option NetworkError → ε}
    (hsteps : Follows kind steps) (hundo : Follows kind undo) : Follows kind (Slot.orUndo steps undo blame) := by
  refine (hsteps.attempt hkind).bind hkind fun result => ?_
  cases result with
  | ok value => exact follows_pure hkind
  | error cause => exact (hundo.failure? hkind).bind hkind fun _ => follows_throw hkind

end

open Program

theorem plain_perform {c : Call} (hcapture : c ≠ .currentNamespace) : Follows Plain (perform c) :=
  fun _ => ⟨rfl, hcapture, fun _ => trivial⟩

theorem scoped_perform {c : Call} (hcapture : c ≠ .currentNamespace) (hstays : ∀ target, c ≠ .enterNamespace target) :
    Follows Scoped (perform c) :=
  fun _ => .call hcapture hstays fun _ => .done _

/-- A call as a step of a sequence. -/
theorem plain_step {name : String} {c : Call} (hcapture : c ≠ .currentNamespace) :
    Follows Plain (step name (perform c)) :=
  (plain_perform hcapture).step plain_closed

/-- A look at the current namespace, however its failure is told. -/
def Captures (capture : Sequence Handle) : Prop :=
  ∀ slot, ∃ next, capture.run.run slot = .call .currentNamespace [] next ∧
    (∀ origin, next (.ok origin) = .done (.ok origin, slot)) ∧
    ∀ failure, ∃ cause, next (.error failure) = .done (.error cause, slot)

theorem captures_perform : Captures (perform .currentNamespace) :=
  fun _ => ⟨_, rfl, fun _ => rfl, fun _ => ⟨_, rfl⟩⟩

theorem captures_step {name : String} : Captures (step name (perform .currentNamespace)) :=
  fun _ => ⟨_, rfl, fun _ => rfl, fun _ => ⟨_, rfl⟩⟩

/-- What is run under a guard sets none itself, so that at most one guard is alive at a time. -/
theorem scoped_underGuard {capture : Sequence Handle} {steps : Handle → Sequence α} (hcapture : Captures capture)
    (hsteps : ∀ origin, Follows Plain (steps origin)) : Follows Scoped (underGuard capture steps) := by
  intro slot
  obtain ⟨next, hrun, hok, hfailed⟩ := hcapture slot
  change Scoped _ ((capture.run.run slot).bind _)
  rw [hrun]
  refine .scope (fun failure => ?_) (fun origin => ?_) (fun origin => hsteps origin slot) fun _ ended => .done ended
  · obtain ⟨cause, hcause⟩ := hfailed failure
    rw [hcause]
    exact .done _
  · rw [hok]
    exact (bind_done _).symm

/-- A visit to the slot's namespace. -/
theorem scoped_inNamespace {steps : Sequence α} (h : Follows Plain steps) : Follows Scoped (inNamespace steps) := by
  refine scoped_underGuard captures_perform fun origin => .get fun seen => ?_
  have henter (handle : Handle) : Follows Plain (perform (.enterNamespace handle) >>= fun _ => steps) :=
    (plain_perform (by simp)).bind plain_closed fun _ => h
  cases seen.handle with
  | some handle => exact henter handle
  | none => exact (plain_perform (by simp)).bind plain_closed henter

end Sequence

open Sequence Program

/-! ### Inside the slot's namespace -/

namespace Firewall

theorem plain_removeChain {id : SlotId} : Follows Plain (removeChain id) := by
  have hstep {name : String} {steps : Sequence Unit} (h : Follows Plain steps) :
      Follows Plain (step name (tolerant steps)) := (h.tolerant plain_closed).step plain_closed
  unfold removeChain
  exact (hstep (plain_perform (by simp))).bind plain_closed fun _ =>
    (hstep (plain_perform (by simp))).bind plain_closed fun _ => hstep (plain_perform (by simp))

theorem plain_setUp : Follows Plain setUp := by
  refine .get fun seen => .ite ?_ (follows_pure plain_closed)
  exact plain_removeChain.bind plain_closed fun _ => (plain_step (by simp)).bind plain_closed fun _ =>
    (plain_step (by simp)).bind plain_closed fun _ => follows_modify plain_closed

/-- Applying a policy sets no guard. It is done inside the namespace, where a guard has been set. -/
theorem plain_configure {policy : Internet} : Follows Plain (configure policy) := by
  have happly : Follows Plain
      (do
        step "flushing egress chain" (perform (.flushChain .filter egressChain))
        policy.rules.forM fun rule => step "blocking internet access" (perform (.appendRule rule))
        modify fun slot => slot.setInternet policy) :=
    (plain_step (by simp)).bind plain_closed fun _ =>
      (Follows.forM plain_closed fun _ => plain_step (by simp)).bind plain_closed fun _ => follows_modify plain_closed
  exact .get fun seen => .ite (follows_throw plain_closed) happly

theorem plain_close : Follows Plain close := by
  intro slot
  have hrest : Follows Plain (if slot.takeFirewall.1.isSome then removeChain slot.id else pure ()) :=
    .ite plain_removeChain (follows_pure plain_closed)
  exact hrest slot.takeFirewall.2

theorem Job.plain (job : Job) : Follows Plain job.steps := by
  cases job with
  | setUp => exact plain_setUp
  | configure policy => exact plain_configure
  | reset => exact plain_configure
  | close => exact plain_close

end Firewall

namespace Slot

theorem plain_layCable {id : SlotId} {origin : Handle} : Follows Plain (layCable id origin) := by
  unfold layCable
  exact (plain_step (by simp)).bind plain_closed fun _ => (plain_step (by simp)).bind plain_closed fun _ =>
    (plain_step (by simp)).bind plain_closed fun _ => plain_step (by simp)

theorem plain_readyHostEnd {id : SlotId} {origin : Handle} : Follows Plain (readyHostEnd id origin) := by
  unfold readyHostEnd
  exact (plain_step (by simp)).bind plain_closed fun _ => (plain_step (by simp)).bind plain_closed fun _ =>
    plain_step (by simp)

theorem plain_reenter : Follows Plain reenter := by
  refine .get fun seen => ?_
  cases seen.handle with
  | some handle => exact plain_step (by simp)
  | none => exact (follows_throw plain_closed).step plain_closed

theorem plain_furnish {id : SlotId} : Follows Plain (furnish id) := by
  unfold furnish
  exact (plain_step (by simp)).bind plain_closed fun _ => (plain_step (by simp)).bind plain_closed fun _ =>
    (plain_step (by simp)).bind plain_closed fun _ => (plain_step (by simp)).bind plain_closed fun _ =>
    (plain_step (by simp)).bind plain_closed fun _ => .forM plain_closed fun _ => plain_step (by simp)

theorem plain_connectHost {id : SlotId} {egress : String} {origin : Handle} :
    Follows Plain (connectHost id egress origin) := by
  unfold connectHost
  exact (plain_step (by simp)).bind plain_closed fun _ => (plain_step (by simp)).bind plain_closed fun _ =>
    .forM plain_closed fun _ => plain_step (by simp)

/-! ### Around visits -/

theorem scoped_create {egress : String} : Follows Scoped (create egress) := by
  refine scoped_underGuard captures_step fun origin => .get fun seen => ?_
  exact (plain_step (by simp)).bind plain_closed fun _ => (follows_modify plain_closed).bind plain_closed fun _ =>
    plain_layCable.bind plain_closed fun _ => plain_readyHostEnd.bind plain_closed fun _ =>
    plain_reenter.bind plain_closed fun _ => plain_furnish.bind plain_closed fun _ =>
    (Firewall.plain_setUp.step plain_closed).bind plain_closed fun _ => plain_connectHost

theorem scoped_unruleAll {id : SlotId} {egress name : String} :
    ∀ steps ∈ (id.hostRules egress).map (fun rule => deletion name (perform (.deleteRule rule))),
      Follows Scoped steps := by
  intro steps hmem
  obtain ⟨rule, -, rfl⟩ := List.mem_map.mp hmem
  exact .deletion scoped_closed (scoped_perform (by simp) (by simp))

/-- Closing a firewall sets one guard, and nothing in it sets another. -/
theorem scoped_closeFirewall : Follows Scoped closeFirewall := by
  refine .get fun seen => .ite ?_ (follows_pure scoped_closed)
  have hvisit : Follows Scoped (inNamespace (attempt (ε := NetworkError) Firewall.close)) :=
    scoped_inNamespace (Firewall.plain_close.attempt plain_closed)
  refine (hvisit.attempt scoped_closed).bind scoped_closed fun closed =>
    (follows_modify scoped_closed).bind scoped_closed fun _ => ?_
  split <;> exact follows_pure scoped_closed

/-- A removal sets a guard while the firewall is closed, and none for its deletions. -/
theorem scoped_remove {egress : String} : Follows Scoped (remove egress) := by
  refine .get fun seen => scoped_closeFirewall.bind scoped_closed fun inside =>
    (Follows.attemptAll scoped_closed fun steps hmem => ?_).bind scoped_closed fun outside =>
    (follows_modify scoped_closed).bind scoped_closed fun _ =>
    (Follows.attemptAll scoped_closed fun steps hmem => ?_).bind scoped_closed fun last =>
    follows_failWith scoped_closed
  · simp only [List.mem_append, List.mem_cons, List.not_mem_nil, or_false] at hmem
    rcases hmem with hrules | rfl | rfl
    · exact scoped_unruleAll steps hrules
    · exact .deletion scoped_closed (scoped_perform (by simp) (by simp))
    · exact .deletion scoped_closed (scoped_perform (by simp) (by simp))
  · obtain rfl := List.mem_singleton.mp hmem
    exact .deletion scoped_closed (scoped_perform (by simp) (by simp))

/-- Clearing up sets no guard at all. -/
theorem scoped_reap {egress : String} : Follows Scoped (reap egress) := by
  refine .get fun seen => (Follows.attemptAll scoped_closed fun steps hmem => ?_).bind scoped_closed fun veth =>
    (follows_modify scoped_closed).bind scoped_closed fun _ =>
    (Follows.attemptAll scoped_closed fun steps hmem => ?_).bind scoped_closed fun rest =>
    follows_failWith scoped_closed
  · obtain rfl := List.mem_singleton.mp hmem
    exact .ifFound scoped_closed ((scoped_perform (by simp) (by simp)).step scoped_closed)
      (.deletion scoped_closed (scoped_perform (by simp) (by simp)))
  · simp only [List.mem_append, List.mem_cons, List.not_mem_nil, or_false] at hmem
    rcases hmem with hrules | rfl | rfl
    · exact scoped_unruleAll steps hrules
    · exact .deletion scoped_closed (scoped_perform (by simp) (by simp))
    · exact .ifFound scoped_closed ((scoped_perform (by simp) (by simp)).step scoped_closed)
        (.deletion scoped_closed (scoped_perform (by simp) (by simp)))

theorem scoped_createAfresh {egress : String} : Follows Scoped (createAfresh egress) :=
  (scoped_reap.failure? scoped_closed).bind scoped_closed fun _ => scoped_create.orUndo scoped_closed scoped_reap

/-- Making a slot ready sets its guards one after another, never one inside another. -/
theorem scoped_provide {egress : String} : Follows Scoped (provide egress) := by
  have hprobe {id : SlotId} : Follows Scoped (Sequence.perform (.namespaceExists id.namespaceName)) :=
    scoped_perform (by simp) (by simp)
  refine .get fun seen => (hprobe.attempt scoped_closed).bind scoped_closed fun found => ?_
  split
  · exact (scoped_remove.failure? scoped_closed).bind scoped_closed fun _ => follows_throw scoped_closed
  · exact scoped_createAfresh
  · exact .get fun seen => .ite ((scoped_inNamespace Firewall.plain_setUp).orUndo scoped_closed scoped_remove)
      (follows_pure scoped_closed)

theorem scoped_prepare {egress : String} {policy : Internet} : Follows Scoped (prepare egress policy) :=
  scoped_provide.bind scoped_closed fun _ =>
    (scoped_inNamespace Firewall.plain_configure).orUndo scoped_closed scoped_remove

theorem scoped_release {egress : String} : Follows Scoped (release egress) :=
  (scoped_inNamespace Firewall.plain_configure).orUndo scoped_closed scoped_remove

end Slot

/-- Whatever is done for a slot, guards are set one after another. -/
theorem Errand.scoped {egress : String} (errand : Errand) : Follows Scoped (errand.steps egress) := by
  cases errand with
  | operate operation =>
    cases operation with
    | create => exact Slot.scoped_create
    | remove => exact Slot.scoped_remove
    | reap => exact Slot.scoped_reap
    | prepare policy => exact Slot.scoped_prepare
    | release => exact Slot.scoped_release
  | visit job => exact scoped_inNamespace job.plain

end SlotPool
