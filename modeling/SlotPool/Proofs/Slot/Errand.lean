import SlotPool.Proofs.Slot.Operation
/-!
What may be done for a slot: an operation, or a job that is run inside the slot's namespace and has to do with the
firewall alone.
-/

namespace SlotPool

open Sequence

/-- A job with the firewall of a slot. -/
inductive Firewall.Job
  | setUp
  | configure (policy : Internet)
  | reset
  | close

/-- The calls of a job. -/
def Firewall.Job.steps : Firewall.Job → Sequence Unit
  | .setUp => Firewall.setUp
  | .configure policy => Firewall.configure policy
  | .reset => Firewall.reset
  | .close => Firewall.close

/-- Every job of the firewall keeps what the calls of the firewall keep. What a job may change of the slot's
    memory is the firewall alone. -/
theorem Wall.job {τ : Type} {replies : Replies τ} {inv : τ → Prop} {id : SlotId} {back home : Handle → Prop}
    {outside inside made : Assertion τ} (hwall : Wall replies inv id back home outside inside made)
    (job : Firewall.Job) : Triple replies inv inside job.steps inside inside := by
  cases job with
  | setUp => exact hwall.setUp
  | configure policy => exact hwall.configure policy
  | reset => exact hwall.configure .allowed
  | close => exact hwall.close

/-- What is done for a slot from wherever the thread is. -/
inductive Errand
  | operate (operation : Operation)
  | visit (job : Firewall.Job)

namespace Errand

/-- How an errand fails. -/
abbrev Failure : Errand → Type
  | .operate operation => operation.Failure
  | .visit _ => NetworkError

/-- The calls of an errand. -/
def steps (egress : String) : (errand : Errand) → SequenceOf errand.Failure Unit
  | .operate operation => operation.steps egress
  | .visit job => Sequence.inNamespace job.steps

/-- An errand for a slot. It is over with a result and the slot as it is then. -/
def program (errand : Errand) (egress : String) (slot : Slot) : Program (Except errand.Failure Unit × Slot) :=
  (errand.steps egress).run.run slot

/-- What a frame says of single calls carries over to every errand. So a property of all that can be done for a
    slot is shown call by call, and never job by job. -/
theorem steps_around {τ : Type} {replies : Replies τ} {inv : τ → Prop} {id : SlotId} {egress : String}
    {back goal home origins : Handle → Prop} {outside inside made start rest : Assertion τ}
    (errand : Errand) (hframe : Frame replies inv id egress back goal home outside inside made)
    (hstart : Around replies inv origins outside start rest)
    (hrest : Around replies inv origins outside rest rest)
    (honStart : Clearing replies inv id egress start) (hclearing : Clearing replies inv id egress rest)
    (hgoal : ∀ {guards slot t origin t'}, start slot t →
      replies .currentNamespace guards t (.ok origin) t' → goal origin) :
    Triple replies inv start (errand.steps egress) rest rest := by
  cases errand with
  | operate operation => exact operation.steps_around hframe hstart hrest honStart hclearing hgoal
  | visit job => exact hframe.inNamespace hstart fun origin => (hframe.under origin).job job

end Errand
end SlotPool
