import Orchestrator.CommandLine.Run
import Orchestrator.Proofs.Deployment.Creating
import Orchestrator.Proofs.Trace

namespace Orchestrator

namespace Removal

def callsFor (s : Settings) (c : Container) : List Call :=
  [.networkGet s.dockerNetwork, .disconnect s.dockerNetwork c.id false, .stop c.name 0,
    .remove c.name true true]

def MayCall (s : Settings) (pattern : String) (cs : List Container) (k : Call) : Prop :=
  k = .connect ∨ k = .list true pattern ∨ ∃ c ∈ cs, k ∈ callsFor s c

structure Touches (s : Settings) (pattern : String) (cs : List Container) (h h' : Host) :
    Prop where
  calls : ∃ ks, h'.calls = h.calls ++ ks ∧ ∀ k ∈ ks, MayCall s pattern cs k
  fewer : h'.daemon.containers.Sublist h.daemon.containers
  kept : ∀ x ∈ h.daemon.containers, (∀ c ∈ cs, c.name ≠ x.name) → x ∈ h'.daemon.containers
  detached : ∀ x ∈ h'.detached, x ∈ h.detached ∨ x ∈ cs

variable {s : Settings} {pattern : String} {cs : List Container}

instance touches_preorder : IsPreorder Host (Touches s pattern cs) where
  refl h := ⟨⟨[], by simp, by simp⟩, .refl _, fun _ hx _ ↦ hx, fun _ hx ↦ .inl hx⟩
  trans h g h' hg hh := by
    obtain ⟨ks, hks, hmay⟩ := hg.calls
    obtain ⟨ls, hls, hmay'⟩ := hh.calls
    refine ⟨⟨ks ++ ls, by rw [hls, hks, List.append_assoc], ?_⟩, hh.fewer.trans hg.fewer, ?_, ?_⟩
    · exact List.forall_mem_append.2 ⟨hmay, hmay'⟩
    · exact fun x hx hne ↦ hh.kept x (hg.kept x hx hne) hne
    · exact fun x hx ↦ (hh.detached x hx).elim (hg.detached x) .inr

open Act

theorem keeps_record {e : Event} (he : ∀ k, e = .call k → MayCall s pattern cs k) :
    (record e).Keeps (Touches s pattern cs) := by
  intro h
  refine ⟨⟨[e].filterMap Event.call?, ?_, fun k hk ↦ ?_⟩, .refl _, fun _ hx _ ↦ hx,
    fun _ hx ↦ .inl hx⟩
  · exact Host.calls_of_trace (by simp [Host.trace])
  · obtain ⟨e', he', hcall⟩ := List.mem_filterMap.1 hk
    obtain rfl := List.mem_singleton.1 he'
    exact he k (Event.eq_call_of_call? hcall)

theorem keeps_aside {e : Event} (he : e.call? = none) :
    (record e).Keeps (Touches s pattern cs) :=
  keeps_record fun k hk ↦ by rw [hk] at he; cases he

theorem keeps_write (l : LogRecord) : (write l).Keeps (Touches s pattern cs) :=
  (keeps_aside rfl).bind fun _ ↦ keeps_get.bind fun _ ↦ by
    split
    · exact keeps_pure _
    · split
      · exact keeps_aside rfl
      · exact keeps_pure _

theorem keeps_call {k : Call} (hk : MayCall s pattern cs k) :
    (Docker.call k).Keeps (Touches s pattern cs) := by
  refine (keeps_record fun k' hk' ↦ ?_).bind fun _ ↦ keeps_get.bind fun _ ↦ ?_
  · cases hk'
    exact hk
  · split
    · exact keeps_throw _
    · exact keeps_pure _

theorem keeps_daemon : Docker.daemon.Keeps (Touches s pattern cs) :=
  keeps_get.bind fun _ ↦ keeps_pure _

theorem mayCall_of_mem {c : Container} (hc : c ∈ cs) {k : Call} (hk : k ∈ callsFor s c) :
    MayCall s pattern cs k := .inr (.inr ⟨c, hc, hk⟩)

variable {c : Container}

theorem keeps_leaveNetwork (hc : c ∈ cs) : (leaveNetwork s c).Keeps (Touches s pattern cs) := by
  refine inherited_keeps.onFailure (Keeps.bind ?_ fun _ ↦ ?_) fun f ↦ keeps_write _
  · refine (keeps_call (mayCall_of_mem hc (by simp [callsFor]))).bind fun _ ↦
      keeps_daemon.bind fun _ ↦ ?_
    split
    · exact keeps_pure _
    · exact keeps_throw _
  · exact keeps_call (mayCall_of_mem hc (by simp [callsFor]))

theorem keeps_remove (hc : c ∈ cs) : (Docker.remove c).Keeps (Touches s pattern cs) := by
  refine (keeps_call (mayCall_of_mem hc (by simp [callsFor]))).bind fun _ h ↦ ?_
  refine ⟨⟨[], (List.append_nil _).symm, by simp⟩, List.filter_sublist, fun x hx hne ↦ ?_,
    fun _ hx ↦ .inl hx⟩
  exact List.mem_filter.2 ⟨hx, by simpa using (hne c hc).symm⟩

theorem keeps_removeNow (hc : c ∈ cs) : (removeNow c).Keeps (Touches s pattern cs) := by
  refine Keeps.bind (inherited_keeps.observe (inherited_keeps.onFailure (keeps_remove hc) fun f ↦
    keeps_write _)) fun r ↦ ?_
  cases r with
  | ok _ => exact keeps_pure _
  | error f => exact keeps_aside rfl

theorem keeps_removeLater (hc : c ∈ cs) : (removeLater c).Keeps (Touches s pattern cs) := by
  refine (keeps_aside rfl).bind fun _ h ↦ ⟨⟨[], by simp [Host.calls, Host.trace], by simp⟩,
    .refl _, fun _ hx _ ↦ hx, fun x hx ↦ ?_⟩
  obtain hx | hx := List.mem_append.1 hx
  · exact .inl hx
  · exact .inr (List.mem_singleton.1 hx ▸ hc)

theorem keeps_takeDown (later : Bool) (hc : c ∈ cs) :
    (takeDown s later c).Keeps (Touches s pattern cs) := by
  refine (keeps_leaveNetwork hc).bind fun _ ↦
    (keeps_call (mayCall_of_mem hc (by simp [callsFor]))).bind fun _ ↦ ?_
  split
  · exact (keeps_removeLater hc).bind fun _ ↦ keeps_write _
  · exact (keeps_remove hc).bind fun _ ↦ keeps_write _

theorem keeps_takeDownEach (later : Bool) {ds : List Container} (hds : ds ⊆ cs) :
    (takeDownEach s later ds).Keeps (Touches s pattern cs) := by
  induction ds with
  | nil => exact keeps_pure _
  | cons d ds ih =>
    obtain ⟨hd, hds⟩ := List.cons_subset.1 hds
    exact (keeps_takeDown later hd).bind fun _ ↦ ih hds

theorem keeps_removeEach {ds : List Container} (hds : ds ⊆ cs) :
    (removeEach ds).Keeps (Touches s pattern cs) := by
  induction ds with
  | nil => exact keeps_pure _
  | cons d ds ih =>
    obtain ⟨hd, hds⟩ := List.cons_subset.1 hds
    exact (keeps_removeNow hd).bind fun _ ↦ ih hds

def selected (pattern : String) (h : Host) : List Container :=
  h.daemon.containers.filter fun c ↦ (NamePattern.ofText pattern).isMatch c.name

theorem on_list (pattern : String) (h : Host) : (Docker.list pattern).on h =
    ((Docker.answer h (.list true pattern)).map fun _ ↦ selected pattern h,
      { h with past := .call (.list true pattern) :: h.past }) := by
  rw [Docker.list, on_bind, Docker.on_call]
  cases Docker.answer h (.list true pattern) <;> rfl

/-- An action on the containers that a listing finds. -/
theorem touches_list_bind {α : Type} {f : List Container → Act α} (h : Host)
    (hf : (f (selected pattern h)).Keeps (Touches s pattern (selected pattern h))) :
    Touches s pattern (selected pattern h) h ((Docker.list pattern >>= f).on h).2 := by
  have hmay : MayCall s pattern (selected pattern h) (.list true pattern) := .inr (.inl rfl)
  have hlist := keeps_call hmay h
  rw [Docker.on_call] at hlist
  rw [on_bind, on_list]
  cases Docker.answer h (.list true pattern) with
  | error e => exact hlist
  | ok u => exact IsTrans.trans _ _ _ hlist (hf _)

theorem touches_byPattern (later : Bool) (h : Host) :
    Touches s pattern (selected pattern h) h ((byPattern s pattern later).on h).2 := by
  refine touches_list_bind h ?_
  split
  · exact (keeps_write _).bind fun _ ↦ keeps_pure 0
  · exact (keeps_takeDownEach later (List.Subset.refl _)).bind fun _ ↦ keeps_pure _

theorem touches_matching (h : Host) :
    Touches s pattern (selected pattern h) h ((Deployer.matching pattern).on h).2 :=
  touches_list_bind h (inherited_keeps.ofExcept _)

theorem name_ofContainer {c : Container} {ref : ContainerReport}
    (h : ContainerReport.ofContainer c = .ok ref) : ref.name = c.name := by
  unfold ContainerReport.ofContainer at h
  cases hports : ContainerReport.portPairs c.attributes with
  | error f => simp [hports, bind, Except.bind] at h
  | ok ports =>
    rw [hports] at h
    cases h
    rfl

theorem names_ofContainers {cs : List Container} {refs : List ContainerReport}
    (h : cs.mapM ContainerReport.ofContainer = .ok refs) :
    refs.map (·.name) = cs.map (·.name) := by
  induction cs generalizing refs with
  | nil =>
    cases h
    rfl
  | cons c cs ih =>
    rw [List.mapM_cons] at h
    cases hc : ContainerReport.ofContainer c with
    | error f => simp [hc, bind, Except.bind] at h
    | ok ref =>
      cases hcs : cs.mapM ContainerReport.ofContainer with
      | error f => simp [hc, hcs, bind, Except.bind] at h
      | ok rest =>
        rw [hc, hcs] at h
        cases h
        rw [List.map_cons, List.map_cons, name_ofContainer hc, ih hcs]

theorem names_matching {h : Host} {refs : List ContainerReport}
    (hok : ((Deployer.matching pattern).on h).1 = .ok refs) :
    refs.map (·.name) = (selected pattern h).map (·.name) := by
  rw [Deployer.matching, on_bind, on_list] at hok
  cases hanswer : Docker.answer h (.list true pattern) with
  | error f =>
    rw [hanswer] at hok
    cases hok
  | ok u =>
    rw [hanswer] at hok
    dsimp only [Except.map] at hok
    rw [on_ofExcept] at hok
    exact names_ofContainers hok

/-- The removals that are left over from a run are of containers that it touched. -/
theorem Touches.finishDetached {h g : Host} (hd : h.detached = []) (hg : Touches s pattern cs h g) :
    Touches s pattern cs h (finishDetached.on g).2 := by
  have hleft : g.detached ⊆ cs := fun x hx ↦
    (hg.detached x hx).resolve_left (by rw [hd]; exact List.not_mem_nil)
  have hnone : Touches s pattern cs g { g with detached := [] } :=
    ⟨⟨[], (List.append_nil _).symm, by simp⟩, .refl _, fun _ hx _ ↦ hx, by simp⟩
  have heach : Touches s pattern cs { g with detached := [] } (Removal.finishDetached.on g).2 :=
    keeps_removeEach hleft { g with detached := [] }
  exact IsTrans.trans _ _ _ (IsTrans.trans _ _ _ hg hnone) heach

end Removal

namespace CommandLine

open Act Removal

def pattern? (site : Site) (run : Config.Run) : Command → Option String
  | .undeployModules | .listModules => some (ContainerName.profilePattern site.settings run.profile)
  | .undeployManagement => some (ContainerName.managementPattern site.settings)
  | .undeployAll => some (ContainerName.allPattern site.settings)
  | .undeployModule (some name) =>
    some (ContainerName.modulePattern site.settings run.profile name)
  | _ => none

variable {site : Site} {run : Config.Run} {pattern : String} {h : Host}

theorem touches_withDaemon {α : Type} {s : Settings} {x : Act α}
    (hx : ∀ g, Touches s pattern (selected pattern g) g (x.on g).2) (h : Host) :
    Touches s pattern (selected pattern h) h ((withDaemon x).on h).2 := by
  have hmay : MayCall s pattern (selected pattern h) .connect := .inl rfl
  have hconnect := keeps_call hmay h
  rw [Docker.on_call] at hconnect
  rw [withDaemon, on_bind, Docker.connect, Docker.on_call]
  cases Docker.answer h .connect with
  | error f => exact hconnect
  | ok u =>
    have hrun := hx { h with past := .call .connect :: h.past }
    have hclose : Docker.disconnect.Keeps (Touches s pattern (selected pattern h)) :=
      keeps_aside rfl
    refine IsTrans.trans _ _ _ hconnect ?_
    dsimp only
    rw [after_ensuring]
    exact IsTrans.trans _ _ _ hrun (hclose _)

theorem touches_perform {command : Command} (hc : pattern? site run command = some pattern)
    (hd : h.detached = []) : Touches site.settings pattern (selected pattern h) h
      ((ensuring (perform site run command) finishDetached).on h).2 := by
  have hundeploy : ∀ later, Touches site.settings pattern (selected pattern h) h
      ((undeploy site pattern later).on h).2 := by
    intro later
    rw [undeploy, after_bind_pure]
    exact touches_withDaemon (touches_byPattern later) h
  have hlist : Touches site.settings pattern (selected pattern h) h
      ((listModules pattern).on h).2 := by
    rw [listModules, after_bind_pure]
    exact touches_withDaemon touches_matching h
  rw [after_ensuring]
  refine Touches.finishDetached hd ?_
  cases command with
  | undeployModules | undeployManagement | undeployAll =>
    cases hc
    exact hundeploy _
  | listModules =>
    cases hc
    exact hlist
  | undeployModule name =>
    cases name with
    | none => cases hc
    | some name =>
      cases hc
      exact hundeploy _
  | deploy | freePorts => cases hc

end CommandLine

end Orchestrator
