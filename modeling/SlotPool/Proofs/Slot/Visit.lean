import SlotPool.Proofs.Slot.Record
import SlotPool.Proofs.Slot.Triple
/-!
Visits to a slot's namespace. A job remembers where the thread is, enters the slot's namespace, does
something there and has the thread taken back. `outside` is what holds wherever the thread is, and
`inside` is what holds besides while it is known to be in the slot's namespace.
-/

namespace SlotPool

open Sequence

variable {τ ε : Type}

/-- What coming and going keeps. `back` says to which namespaces guards return, `home` which handles
    lead into the slot's namespace. -/
structure Visit (replies : Replies τ) (inv : τ → Prop) (id : SlotId) (back home : Handle → Prop)
    (outside inside : Assertion τ) : Prop where
  of_inside : ∀ {slot t}, inside slot t → outside slot t
  holds : ∀ {slot t}, outside slot t → inv t
  id_eq : ∀ {slot t}, outside slot t → slot.id = id
  handle : ∀ {slot t handle}, outside slot t → slot.handle = some handle → home handle
  capture : ∀ {guards slot t result t'}, outside slot t →
    replies .currentNamespace guards t result t' →
    outside slot t' ∧ ∀ origin, result = .ok origin → back origin
  returns : ∀ {origin guards slot t result t'}, back origin → outside slot t →
    replies (.enterNamespace origin) guards t result t' → outside slot t'
  opens : ∀ {guards slot t result t'}, outside slot t →
    replies (.openNamespace id.namespaceName) guards t result t' →
    outside slot t' ∧ ∀ handle, result = .ok handle → home handle
  enters : ∀ {target guards slot t result t'}, home target → outside slot t →
    replies (.enterNamespace target) guards t result t' →
    outside slot t' ∧ (result = .ok () → inside slot t')

/-- What the return of a guard makes of what held until then. `origins` says where the guard was set. -/
structure Ends (replies : Replies τ) (inv : τ → Prop) (origins : Handle → Prop)
    (condition after : Assertion τ) : Prop where
  holds : ∀ {slot t}, condition slot t → inv t
  returns : ∀ {origin slot t result t'}, origins origin → condition slot t →
    replies (.enterNamespace origin) [] t result t' → after slot t'

/-- What holds around visits. They begin where `start` holds, and whatever comes of them, `rest` holds
    when the thread has been taken back. -/
structure Around (replies : Replies τ) (inv : τ → Prop) (origins : Handle → Prop)
    (outside start rest : Assertion τ) : Prop extends Ends replies inv origins outside rest where
  out : ∀ {slot t}, start slot t → outside slot t
  stays : ∀ {slot t}, start slot t → rest slot t
  captures : ∀ {slot t result t'}, start slot t → replies .currentNamespace [] t result t' →
    rest slot t' ∧ ∀ origin, result = .ok origin → origins origin
  /-- a slot may forget its firewall -/
  unwalled : ∀ {slot t}, rest slot t → rest slot.takeFirewall.2 t

/-- Visits may begin where more is known. -/
theorem Around.narrow {replies : Replies τ} {inv : τ → Prop} {origins : Handle → Prop}
    {outside start start' rest : Assertion τ} (h : Around replies inv origins outside start rest)
    (hstart : ∀ slot t, start' slot t → start slot t) :
    Around replies inv origins outside start' rest where
  toEnds := h.toEnds
  out ht := h.out (hstart _ _ ht)
  stays ht := h.stays (hstart _ _ ht)
  captures ht hreply := h.captures (hstart _ _ ht) hreply
  unwalled := h.unwalled

/-- A condition on a slot that remembers no firewall. -/
def Sequence.Assertion.bare (condition : Assertion τ) : Assertion τ :=
  fun slot t => condition slot t ∧ slot.hasFirewall = false

theorem Sequence.Triple.of_bare {α : Type} {replies : Replies τ} {inv : τ → Prop}
    {pre post fail : Assertion τ} {steps : SequenceOf ε α}
    (h : Triple replies inv pre steps post.bare fail.bare) : Triple replies inv pre steps post fail :=
  h.mono (fun _ _ ht => ht) (fun _ _ ht => ht.1) fun _ _ ht => ht.1

/-- What is run under a guard ends where the guard leads. -/
theorem Sequence.Triple.underGuard {α : Type} {replies : Replies τ} {inv : τ → Prop}
    {origins goal : Handle → Prop} {pre mid post fail post' fail' : Assertion τ}
    {capture : Sequence Handle} {steps : Handle → Sequence α}
    (hcapture : ∀ slot t, pre slot t → Ensures replies inv capture
      (fun origin slot t => (origins origin ∧ goal origin) ∧ mid slot t) (fun _ => fail') slot t)
    (hsteps : ∀ origin, origins origin → goal origin →
      Triple (replies.under origin) inv mid (steps origin) post fail)
    (hpost : Ends replies inv origins post post') (hfail : Ends replies inv origins fail fail') :
    Triple replies inv pre (underGuard capture steps) post' fail' := by
  intro slot t ht
  unfold Sequence.underGuard
  rw [ensures_bind]
  refine (hcapture slot t ht).mono (fun origin slot t horigin => ?_) fun _ _ _ ht => ht
  obtain ⟨⟨horigins, hgoal⟩, hmid⟩ := horigin
  exact Triple.guarded (hsteps origin horigins hgoal) (fun _ _ ht => ht.elim hpost.holds hfail.holds)
    (fun _ _ _ _ ht hreply => hpost.returns horigins ht hreply)
    (fun _ _ _ _ ht hreply => hfail.returns horigins ht hreply) slot t hmid

namespace Visit

variable {replies : Replies τ} {inv : τ → Prop} {id : SlotId} {back home : Handle → Prop}
  {outside inside : Assertion τ}

/-- A guard does not change what is kept. -/
theorem under (hvisit : Visit replies inv id back home outside inside) (origin : Handle) :
    Visit (replies.under origin) inv id back home outside inside where
  of_inside := hvisit.of_inside
  holds := hvisit.holds
  id_eq := hvisit.id_eq
  handle := hvisit.handle
  capture := fun ht hreply => hvisit.capture ht hreply
  returns := fun hback ht hreply => hvisit.returns hback ht hreply
  opens := fun ht hreply => hvisit.opens ht hreply
  enters := fun hhome ht hreply => hvisit.enters hhome ht hreply

section

variable (hvisit : Visit replies inv id back home outside inside)
include hvisit

theorem perform_return {origin : Handle} (horigin : back origin) :
    Triple replies inv outside (perform (.enterNamespace origin)) outside outside :=
  .perform (fun _ _ ht => hvisit.holds ht)
    (fun _ _ _ _ ht hreply => hvisit.returns horigin ht hreply)
    fun _ _ _ _ ht hreply => hvisit.returns horigin ht hreply

theorem perform_enter {target : Handle} (htarget : home target) :
    Triple replies inv outside (perform (.enterNamespace target)) inside outside :=
  .perform (fun _ _ ht => hvisit.holds ht)
    (fun _ _ _ _ ht hreply => (hvisit.enters htarget ht hreply).2 rfl)
    fun _ _ _ _ ht hreply => (hvisit.enters htarget ht hreply).1

/-- Visits that begin wherever the thread is. -/
theorem around (hunwalled : ∀ {slot t}, outside slot t → outside slot.takeFirewall.2 t) :
    Around replies inv back outside outside outside where
  holds := hvisit.holds
  returns := hvisit.returns
  out ht := ht
  stays ht := ht
  captures := hvisit.capture
  unwalled := hunwalled

variable {α : Type} {origins : Handle → Prop} {start rest post post' : Assertion τ}

/-- A sequence for the slot's namespace can be run there from anywhere. -/
theorem inNamespace_post {steps : Sequence α} (haround : Around replies inv origins outside start rest)
    (hsteps : ∀ origin, Triple (replies.under origin) inv inside steps post outside)
    (hpost : Ends replies inv origins post post') :
    Triple replies inv start (inNamespace steps) post' rest := by
  have hcapture (slot : Slot) (t : τ) (ht : start slot t) :
      Ensures replies inv (perform .currentNamespace)
        (fun origin slot t => (origins origin ∧ True) ∧ outside slot t) (fun _ => rest) slot t := by
    rw [ensures_perform]
    refine ⟨hvisit.holds (haround.out ht), fun result t' hreply => ?_⟩
    obtain ⟨hrest, horigin⟩ := haround.captures ht hreply
    cases result with
    | ok origin => exact ⟨⟨horigin origin rfl, trivial⟩, (hvisit.capture (haround.out ht) hreply).1⟩
    | error failure => exact hrest
  refine .underGuard hcapture (fun origin _ _ => ?_) hpost haround.toEnds
  have hunder := hvisit.under origin
  have henter {handle : Handle} (hhome : home handle) :
      Triple (replies.under origin) inv outside (perform (.enterNamespace handle) >>= fun _ => steps)
        post outside :=
    .bind (hunder.perform_enter hhome) fun _ => hsteps origin
  refine .get fun seen => ?_
  rintro slot t ⟨rfl, ht⟩
  cases hhandle : slot.handle with
  | some handle => exact henter (hvisit.handle ht hhandle) slot t ht
  | none =>
    obtain rfl := hvisit.id_eq ht
    rw [ensures_bind, ensures_perform]
    refine ⟨hvisit.holds ht, fun result t' hreply => ?_⟩
    obtain ⟨ht', hhome⟩ := hunder.opens ht hreply
    cases result with
    | error failure => exact ht'
    | ok handle => exact henter (hhome handle rfl) slot t' ht'

/-- A sequence that stays inside the slot's namespace can be run there from anywhere. -/
theorem inNamespace {steps : Sequence α} (haround : Around replies inv origins outside start rest)
    (hsteps : ∀ origin, Triple (replies.under origin) inv inside steps inside inside) :
    Triple replies inv start (inNamespace steps) rest rest :=
  hvisit.inNamespace_post haround (fun origin => (hsteps origin).mono (fun _ _ ht => ht)
    (fun _ _ => hvisit.of_inside) fun _ _ => hvisit.of_inside) haround.toEnds

end

end Visit
end SlotPool
