import SlotPool.Proofs.Primitive.Ensures
/-!
Runs in which calls may fail, but not everywhere. Some programs are marked: from the call with which one of
them begins in a run until it is over, the machine has to answer more strictly than elsewhere.
-/

namespace SlotPool.Program

variable {σ τ α β γ : Type}

/-- The machine brings a program to its end with answers among these replies. -/
def Meets (machine : Machine σ) (view : σ → τ) (replies : Replies τ) : Program α → σ → Prop
  | .done _, _ => True
  | .call c guards next, s =>
    ∃ result s', machine.answer c s = (.returned result, s') ∧
      replies c guards (view s) result (view s') ∧ (next result).Meets machine view replies s'

/-- The machine brings a program to its end with answers among `replies`, and each marked program that begins
    in it with answers among `strict`. -/
def Mild (machine : Machine σ) (view : σ → τ) (replies strict : Replies τ) (marked : Program β → Prop) :
    Program α → σ → Prop
  | .done _, _ => True
  | .call c guards next, s =>
    (∀ (part : Program β) (rest : β → Program α), marked part → .call c guards next = part.bind rest →
      part.Meets machine view strict s) ∧
    ∃ result s', machine.answer c s = (.returned result, s') ∧
      replies c guards (view s) result (view s') ∧
      (next result).Mild machine view replies strict marked s'

variable {machine : Machine σ} {view : σ → τ} {replies strict : Replies τ} {marked : Program β → Prop}
  {p : Program α} {s : σ}

/-- What a program brings about with these replies is what a run with them comes to. -/
theorem Meets.run {inv : τ → Prop} {post : α → τ → Prop} (hmeets : p.Meets machine view replies s)
    (hp : p.Ensures replies inv post (view s)) :
    ∃ value s', p.run machine s = (some value, s') ∧ post value (view s') := by
  induction p generalizing s with
  | done value => exact ⟨value, s, rfl, hp⟩
  | call c guards next ih =>
    obtain ⟨result, s', hanswer, hreply, hrest⟩ := hmeets
    obtain ⟨value, after, hrun, hpost⟩ := ih result hrest (hp.2 result _ hreply)
    refine ⟨value, after, ?_, hpost⟩
    simp only [Program.run, hanswer]
    exact hrun

/-- In a mild run every answer is one of the replies: the strict ones are among them. -/
theorem Mild.meets (hmild : p.Mild machine view replies strict marked s) :
    p.Meets machine view replies s := by
  induction p generalizing s with
  | done value => trivial
  | call c guards next ih =>
    obtain ⟨-, result, s', hanswer, hreply, hrest⟩ := hmild
    exact ⟨result, s', hanswer, hreply, ih result hrest⟩

/-- What begins with a marked program begins strictly. -/
theorem Mild.strictly {part : Program β} {rest : β → Program α} (hmarked : marked part)
    (hmild : (part.bind rest).Mild machine view replies strict marked s) :
    part.Meets machine view strict s := by
  cases part with
  | done value => trivial
  | call c guards next => exact hmild.1 _ rest hmarked rfl

/-- The first part of a mild run is mild. -/
theorem Mild.first {f : α → Program γ} (hmild : (p.bind f).Mild machine view replies strict marked s) :
    p.Mild machine view replies strict marked s := by
  induction p generalizing s with
  | done value => trivial
  | call c guards next ih =>
    obtain ⟨hparts, result, s', hanswer, hreply, hrest⟩ := hmild
    refine ⟨fun part rest hmarked heq => ?_, result, s', hanswer, hreply, ih result hrest⟩
    have hwhole : Program.call c guards (fun result => (next result).bind f) =
        part.bind fun value => (rest value).bind f :=
      (congrArg (Program.bind · f) heq).trans (Program.bind_assoc ..)
    exact hparts part _ hmarked hwhole

/-- What follows in a mild run is mild. -/
theorem Mild.next {f : α → Program γ} {value : α} {s' : σ}
    (hmild : (p.bind f).Mild machine view replies strict marked s)
    (hrun : p.run machine s = (some value, s')) :
    (f value).Mild machine view replies strict marked s' := by
  induction p generalizing s with
  | done result =>
    obtain ⟨rfl, rfl⟩ : result = value ∧ s = s' := by simpa [Program.run] using hrun
    exact hmild
  | call c guards next ih =>
    obtain ⟨-, result, after, hanswer, -, hrest⟩ := hmild
    simp only [Program.run, hanswer] at hrun
    exact ih result hrest hrun

/-- A machine that answers strictly from some state on makes every run mild. -/
theorem mild_of_strict {honest : σ → Prop} (hstrict : ∀ c guards s, honest s → ∃ result s',
      machine.answer c s = (.returned result, s') ∧ strict c guards (view s) result (view s') ∧ honest s')
    (hsub : ∀ c guards t result t', strict c guards t result t' → replies c guards t result t')
    (h : honest s) : p.Mild machine view replies strict marked s := by
  have hmeets {δ : Type} {p : Program δ} {s : σ} (h : honest s) : p.Meets machine view strict s := by
    induction p generalizing s with
    | done value => trivial
    | call c guards next ih =>
      obtain ⟨result, s', hanswer, hreply, hnext⟩ := hstrict c guards s h
      exact ⟨result, s', hanswer, hreply, ih result hnext⟩
  induction p generalizing s with
  | done value => trivial
  | call c guards next ih =>
    obtain ⟨result, s', hanswer, hreply, hnext⟩ := hstrict c guards s h
    exact ⟨fun part _ _ _ => hmeets h, result, s', hanswer, hsub _ _ _ _ _ hreply, ih result hnext⟩

end SlotPool.Program
