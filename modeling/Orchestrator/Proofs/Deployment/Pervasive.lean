import Orchestrator.Deployment
import Orchestrator.Proofs.Running

namespace Orchestrator

namespace Deployer

def booted (c : ContainerPlan) (name : String) : Act ContainerReport := do
  let report ← boot c name
  Act.tell .info c.name s!"Deployed {c.kind.text} {name} from image {c.image}"
  return report

theorem bringUp_eq (d : Deployer) (c : ContainerPlan) :
    d.bringUp c = if c.pullImage then (do
        if !(← Pull.isPresent c.image) then Pull.image c.image d.auth
        booted c (d.nameFor c.name))
      else booted c (d.nameFor c.name) := rfl

end Deployer

section Following

-- no event of a pull is logged as an error
variable {P : (α : Type) → Act α → Prop} (hP : Act.Inherited P)
  (hwrite : ∀ l : LogRecord, l.level ≠ .error → P Unit (Act.write l))
include hP hwrite

namespace Pull

theorem inherited_progress (image : String) (event detail : List (Value × Value)) :
    P Unit (progress image event detail) := by
  unfold progress
  dsimp only
  split
  · exact hwrite _ (by simp)
  · exact hwrite _ (by simp)
  · exact hP.bind (hP.ofExcept _) fun _ ↦ hP.bind (hP.ofExcept _) fun _ ↦ hwrite _ (by simp)

theorem inherited_step (image : String) (event : Value) : P Unit (step image event) := by
  unfold step
  split
  · have hprogress := inherited_progress hP hwrite image
    dsimp only
    split
    · exact hP.bind (hP.throw _) fun _ ↦ by
        split
        · exact hprogress _ _
        · exact hprogress _ _
        · exact hwrite _ (by simp)
    · split
      · exact hprogress _ _
      · exact hprogress _ _
      · exact hwrite _ (by simp)
  · exact hwrite _ (by simp)

theorem inherited_follow (image : String) (events : List Value) : P Unit (follow image events) := by
  induction events with
  | nil => exact hP.pure ()
  | cons e es ih => exact hP.bind (inherited_step hP hwrite image e) fun _ ↦ ih

end Pull

end Following

theorem TaskGroup.inherited_runAll {α β : Type} {P : (α : Type) → Act α → Prop}
    (hP : Act.Inherited P) {run : α → Act β} (hrun : ∀ a, P β (run a))
    (hcrash : ∀ name kind, P Unit (Act.record (.threadCrashed name kind)))
    (ts : List (String × α)) : P _ (TaskGroup.runAll run ts) := by
  induction ts with
  | nil => exact hP.pure _
  | cons t ts ih =>
    refine hP.bind ?_ fun _ ↦ hP.bind ih fun _ ↦ hP.pure _
    refine hP.bind (hP.observe (hrun t.2)) fun r ↦ ?_
    cases r with
    | ok b => exact hP.pure _
    | error f => exact hP.bind (hcrash _ _) fun _ ↦ hP.pure _

def Call.IsPlain : Call → Prop
  | connect | create _ => False
  | _ => True

/-- A property that the log and the plain calls to the daemon have, and so everything that is put
together from them. -/
structure Act.Pervasive (P : (α : Type) → Act α → Prop) : Prop extends Inherited P where
  write : ∀ l : LogRecord, P Unit (Act.write l)
  daemon : P Daemon Docker.daemon
  call : ∀ c : Call, c.IsPlain → P Unit (Docker.call c)

section Pervasive

variable {P : (α : Type) → Act α → Prop} (hP : Act.Pervasive P)
include hP

namespace Pull

theorem pervasive_image (name : String) {auth : Act (Option Credentials)} (hauth : P _ auth) :
    P Unit (Pull.image name auth) := by
  refine hP.bind hauth fun c ↦ hP.bind (hP.bind (hP.call _ trivial) fun _ ↦ ?_) fun _ ↦
    hP.bind (Pull.inherited_follow hP.toInherited (fun l _ ↦ hP.write l) name _) fun _ ↦ hP.write _
  exact hP.bind hP.daemon fun _ ↦ hP.pure _

theorem pervasive_isPresent (name : String) : P Bool (Pull.isPresent name) := by
  have hget : P Unit (Docker.getImage name) := by
    refine hP.bind (hP.call _ trivial) fun _ ↦ hP.bind hP.daemon fun _ ↦ ?_
    split
    · exact hP.pure ()
    · exact hP.throw _
  exact hP.onFailure (hP.bind hget fun _ ↦ hP.pure true) fun _ ↦ hP.pure false

end Pull

namespace Deployer

open Rollout (Deployable)

/-- What a call that creates has and the container that comes of it, booting a container has. -/
theorem pervasive_boot (hcreate : ∀ q, P Unit (Docker.call (.create q)))
    (hadd : ∀ q : CreateRequest, P Unit (Docker.change fun m ↦
      { m with containers := m.containers ++ [q.container] }))
    (c : ContainerPlan) (name : String) : P _ (boot c name) := by
  have hchange := hP.bind (hadd (c.request name)) fun _ ↦ hP.pure (c.request name).container
  have hmake : P _ (Docker.create (c.request name)) := by
    refine hP.bind (hcreate _) fun _ ↦ hP.bind hP.daemon fun m ↦ ?_
    split
    · exact hP.bind (hP.throw _) fun _ ↦ hchange
    · exact hchange
  exact hP.bind (hP.ofExcept _) fun _ ↦ hP.bind hmake fun _ ↦ hP.bind (hP.call _ trivial) fun _ ↦
    hP.pure _

variable {d : Deployer} (hauth : P _ d.auth)
include hauth

/-- What booting a container has, bringing it up has, too. -/
theorem pervasive_bringUp {c : ContainerPlan} (hboot : P _ (boot c (d.nameFor c.name))) :
    P _ (d.bringUp c) := by
  have hrest : P _ (booted c (d.nameFor c.name)) :=
    hP.bind hboot fun report ↦ hP.bind (hP.write _) fun _ ↦ hP.pure report
  rw [bringUp_eq]
  split
  · refine hP.bind (Pull.pervasive_isPresent hP _) fun present ↦ ?_
    split
    · exact hP.bind (Pull.pervasive_image hP _ hauth) fun _ ↦ hrest
    · exact hrest
  · exact hrest

-- threads are started and may crash
variable (hboot : ∀ c name, P _ (boot c name))
  (hstart : ∀ name, P Unit (Act.record (.threadStarted name true)))
include hboot hstart

theorem pervasive_bringUpEach (r : Rollout) (image : String) (xs : List Deployable) (p : Progress) :
    P _ (d.bringUpEach r image xs p) := by
  induction xs generalizing p with
  | nil => exact hP.pure _
  | cons x xs ih =>
    have hannounce : P _ (announceRegistry p x) := by
      unfold announceRegistry
      split
      · exact hP.write _
      · exact hP.pure ()
    have hlaunch : P _ (launchSidecar image p x) := by
      unfold launchSidecar
      split
      · exact hP.bind (hstart _) fun _ ↦ hP.pure _
      · exact hP.pure _
    have hmain := hP.observe (pervasive_bringUp hP hauth (c := d.moduleContainer r x) (hboot _ _))
    refine hP.bind hannounce fun _ ↦ hP.bind hmain fun res ↦ ?_
    cases res with
    | error f => exact hP.pure _
    | ok report => exact hP.bind hlaunch fun _ ↦ ih _

variable (hcrash : ∀ name kind, P Unit (Act.record (.threadCrashed name kind)))
  (hget : P Host get)
include hcrash hget

/-- What booting containers has, a deployment has, too. -/
theorem pervasive_rollOut (r : Rollout) (image : String) (limits : Limits) :
    P _ (d.rollOut r image limits) := by
  have htask : ∀ x, P _ (d.bringUpSidecar r image limits x) := by
    intro x
    refine hP.bind (hP.observe (pervasive_bringUp hP hauth (hboot _ _))) fun res ↦ ?_
    cases res with
    | ok report => exact hP.pure _
    | error f => exact hP.bind (hP.write _) fun _ ↦ hP.pure _
  refine hP.bind (pervasive_bringUpEach hP hauth hboot hstart r image _ _)
    fun (progress, failure) ↦ ?_
  have hfinish := hP.bind hget fun h ↦ TaskGroup.inherited_runAll hP.toInherited htask hcrash
    (h.schedule.arrange progress.sidecars.pending)
  refine hP.bind hfinish fun failed ↦ ?_
  cases failure with
  | some f => exact hP.throw f
  | none =>
    dsimp only
    split
    · exact hP.pure _
    · exact hP.throw _

end Deployer

end Pervasive

end Orchestrator
