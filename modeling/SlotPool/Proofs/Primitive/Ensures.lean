import SlotPool.Primitive.Program
/-!
What a program brings about whatever the replies to its calls are. `Ensures` goes down the tree of a
program with a state that the replies may change; `Ensures.run` carries its result over to the run
on any machine whose answers are among these replies.
-/

namespace SlotPool

variable {σ τ α β : Type}

/-- How calls may be replied to: the guards alive at the call, the state before, the result, and the
    state after. -/
abbrev Replies (τ : Type) :=
  (call : Call) → List Handle → τ → Except NetworkError call.Reply → τ → Prop

/-- The replies to calls that are made under one guard more. -/
def Replies.under (replies : Replies τ) (origin : Handle) : Replies τ :=
  fun call guards => replies call (guards ++ [origin])

namespace Program

/-- Whatever the replies, `inv` holds whenever a call is made and `post` at the end. -/
def Ensures (replies : Replies τ) (inv : τ → Prop) (post : α → τ → Prop) : Program α → τ → Prop
  | .done value, t => post value t
  | .call c guards next, t =>
    inv t ∧ ∀ result t', replies c guards t result t' → (next result).Ensures replies inv post t'

/-- What a program ensures may be weakened, and so may what has to hold at its calls. -/
theorem Ensures.mono {replies : Replies τ} {inv inv' : τ → Prop} {post post' : α → τ → Prop}
    {p : Program α} {t : τ} (hp : p.Ensures replies inv post t) (hinv : ∀ t, inv t → inv' t)
    (hpost : ∀ value t, post value t → post' value t) : p.Ensures replies inv' post' t := by
  induction p generalizing t with
  | done value => exact hpost value t hp
  | call c guards next ih =>
    exact ⟨hinv t hp.1, fun result t' hreply => ih result (hp.2 result t' hreply)⟩

theorem ensures_true {replies : Replies τ} {p : Program α} {t : τ} :
    p.Ensures replies (fun _ => True) (fun _ _ => True) t := by
  induction p generalizing t with
  | done value => trivial
  | call c guards next ih => exact ⟨trivial, fun result t' _ => ih result⟩

/-- What every reply keeps holds whenever a call is made and at the end. -/
theorem ensures_kept {replies : Replies τ} {inv : τ → Prop} {p : Program α} {t : τ}
    (hkeeps : ∀ c guards t result t', replies c guards t result t' → inv t → inv t') (ht : inv t) :
    p.Ensures replies inv (fun _ => inv) t := by
  induction p generalizing t with
  | done value => exact ht
  | call c guards next ih => exact ⟨ht, fun result t' hreply => ih result (hkeeps c guards t result t' hreply ht)⟩

/-- What holds for two reasons. -/
theorem Ensures.and {replies : Replies τ} {inv inv' : τ → Prop} {post post' : α → τ → Prop}
    {p : Program α} {t : τ} (hp : p.Ensures replies inv post t) (hp' : p.Ensures replies inv' post' t) :
    p.Ensures replies (fun t => inv t ∧ inv' t) (fun value t => post value t ∧ post' value t) t := by
  induction p generalizing t with
  | done value => exact ⟨hp, hp'⟩
  | call c guards next ih =>
    exact ⟨⟨hp.1, hp'.1⟩, fun result t' hreply => ih result (hp.2 result t' hreply) (hp'.2 result t' hreply)⟩

theorem ensures_congr {replies : Replies τ} {inv : τ → Prop} {post post' : α → τ → Prop}
    {p : Program α} {t : τ} (hpost : ∀ value t, post value t ↔ post' value t) :
    p.Ensures replies inv post t ↔ p.Ensures replies inv post' t :=
  ⟨fun hp => hp.mono (fun _ hinv => hinv) fun value t => (hpost value t).mp,
    fun hp => hp.mono (fun _ hinv => hinv) fun value t => (hpost value t).mpr⟩

/-- What a program ensures that goes on after its result: the rest must ensure it from wherever the first part
    may end. -/
@[simp]
theorem ensures_bind {replies : Replies τ} {inv : τ → Prop} {post : β → τ → Prop}
    {p : Program α} {f : α → Program β} {t : τ} :
    (p.bind f).Ensures replies inv post t ↔
      p.Ensures replies inv (fun value t => (f value).Ensures replies inv post t) t := by
  induction p generalizing t with
  | done value => rfl
  | call c guards next ih => simp only [bind, Ensures, ih]

/-- A guard adds one call at the end, whose result is ignored. -/
@[simp]
theorem ensures_guarded {replies : Replies τ} {inv : τ → Prop} {post : α → τ → Prop}
    {origin : Handle} {p : Program α} {t : τ} :
    (p.guarded origin).Ensures replies inv post t ↔
      p.Ensures (replies.under origin) inv
        (fun value t => inv t ∧ ∀ result t',
          replies (.enterNamespace origin) [] t result t' → post value t') t := by
  induction p generalizing t with
  | done value => rfl
  | call c guards next ih => simp only [guarded, Ensures, ih, Replies.under]

end Program

/-- The answers of a machine are among some replies, as far as they concern a part of its state. A
    call that kills the thread leaves that part as it is. -/
def Machine.Within (machine : Machine σ) (view : σ → τ) (replies : Replies τ) : Prop :=
  ∀ c guards s,
    match machine.answer c s with
    | (.returned result, s') => replies c guards (view s) result (view s')
    | (.crashed, s') => view s' = view s

namespace Program

variable {machine : Machine σ} {view : σ → τ} {replies : Replies τ}

/-- What is ensured against all replies holds where a run on a machine ends, if the machine answers with such
    replies. -/
theorem Ensures.run {inv : τ → Prop} {post : α → τ → Prop} {p : Program α} {s s' : σ} {value : α}
    (hmachine : machine.Within view replies) (hp : p.Ensures replies inv post (view s))
    (hrun : p.run machine s = (some value, s')) : post value (view s') := by
  induction p generalizing s with
  | done result =>
    obtain ⟨rfl, rfl⟩ : result = value ∧ s = s' := by simpa [Program.run] using hrun
    exact hp
  | call c guards next ih =>
    have hanswer := hmachine c guards s
    cases hcall : machine.answer c s with
    | mk answer after =>
      simp only [hcall] at hanswer
      cases answer with
      | returned result =>
        simp only [Program.run, hcall] at hrun
        exact ih result (hp.2 result _ hanswer) hrun
      | crashed => simp [Program.run, hcall] at hrun

/-- Taking the thread back keeps what entering a namespace keeps. -/
theorem restore_keeps {inv : τ → Prop} (hmachine : machine.Within view replies)
    (hinv : ∀ origin t result t', replies (.enterNamespace origin) [] t result t' → inv t → inv t')
    (guards : List Handle) {s : σ} (hs : inv (view s)) : inv (view (restore machine guards s)) := by
  induction guards generalizing s with
  | nil => exact hs
  | cons origin rest ih =>
    apply ih
    have hanswer := hmachine (.enterNamespace origin) [] s
    change inv (view (machine.answer (.enterNamespace origin) s).2)
    cases hcall : machine.answer (.enterNamespace origin) s with
    | mk answer after =>
      simp only [hcall] at hanswer ⊢
      cases answer with
      | returned result => exact hinv origin _ result _ hanswer hs
      | crashed =>
        have hsame : view after = view s := hanswer
        rw [hsame]
        exact hs

/-- When a call kills the thread, what held at every call still holds, if moving the thread
    cannot break it. -/
theorem Ensures.crash {inv : τ → Prop} {post : α → τ → Prop} {p : Program α} {s s' : σ}
    (hmachine : machine.Within view replies)
    (hinv : ∀ origin t result t', replies (.enterNamespace origin) [] t result t' → inv t → inv t')
    (hp : p.Ensures replies inv post (view s)) (hrun : p.run machine s = (none, s')) :
    inv (view s') := by
  induction p generalizing s with
  | done result => simp [Program.run] at hrun
  | call c guards next ih =>
    have hanswer := hmachine c guards s
    cases hcall : machine.answer c s with
    | mk answer after =>
      simp only [hcall] at hanswer
      cases answer with
      | returned result =>
        simp only [Program.run, hcall] at hrun
        exact ih result (hp.2 result _ hanswer) hrun
      | crashed =>
        simp only [Program.run, hcall, Prod.mk.injEq, true_and] at hrun
        subst hrun
        exact restore_keeps hmachine hinv guards (by simpa only [hanswer] using hp.1)

/-- The state in which a program is when it has made `count` calls, or when it is over before that. -/
def cut (machine : Machine σ) : Nat → Program α → σ → σ
  | 0, _, state | _, .done _, state => state
  | count + 1, .call c _ next, state =>
    match machine.answer c state with
    | (.returned result, state) => (next result).cut machine count state
    | (.crashed, state) => state

/-- After any number of calls, what holds at every call holds, or what holds at the end. -/
theorem Ensures.cut {inv : τ → Prop} {post : α → τ → Prop} {p : Program α} {s : σ}
    (hmachine : machine.Within view replies) (hp : p.Ensures replies inv post (view s)) (count : Nat) :
    inv (view (p.cut machine count s)) ∨ ∃ value, post value (view (p.cut machine count s)) := by
  induction p generalizing s count with
  | done value =>
    cases count with
    | zero => exact .inr ⟨value, hp⟩
    | succ count => exact .inr ⟨value, hp⟩
  | call c guards next ih =>
    cases count with
    | zero => exact .inl hp.1
    | succ count =>
      have hanswer := hmachine c guards s
      cases hcall : machine.answer c s with
      | mk answer after =>
        simp only [hcall] at hanswer
        cases answer with
        | returned result =>
          simp only [Program.cut, hcall]
          exact ih result (hp.2 result _ hanswer) count
        | crashed =>
          simp only [Program.cut, hcall]
          exact .inl (by simpa only [hanswer] using hp.1)

end Program
end SlotPool
