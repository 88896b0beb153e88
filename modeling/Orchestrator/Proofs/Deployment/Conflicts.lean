import Orchestrator.Proofs.Deployment.HostPorts
import Orchestrator.Proofs.Deployment.Images
import Orchestrator.Proofs.Deployment.Reports
import Orchestrator.Proofs.Registries

namespace Orchestrator

namespace Planner

/-- A plan has a sidecar only where its module may have one. -/
theorem allowsSidecar_of_planAll {p : Planner} {modules : Table (Option Config.Module)}
    {managementOnly : Bool} {s t : Booking.State} {plans : Table ModulePlan}
    (h : (p.planAll modules managementOnly).on s = (.ok plans, t)) :
    ∀ e ∈ plans.toList, e.2.deploySidecar = true → allowsSidecar e.1 = true := by
  intro e he hside
  obtain ⟨-, -, hdrawn⟩ := hands_of_planAll h
  obtain ⟨ports, volumes, hplan⟩ := hdrawn e he
  rw [show e.2 = _ from hplan] at hside
  exact (Bool.and_eq_true_iff.1 hside).1

end Planner

theorem Descriptor.members_of_ofEntries {entries : Value} {ds : List Descriptor}
    (h : ofEntries entries = .ok ds) : ∀ x ∈ ds, ∃ members, ofMembers members = .ok x := by
  unfold ofEntries at h
  cases hentries : entriesOf entries with
  | error f => simp [hentries, bind, Except.bind] at h
  | ok vs =>
    cases hsections : vs.mapM membersOf with
    | error f => simp [hentries, hsections, bind, Except.bind] at h
    | ok sections =>
      simp only [hentries, hsections, bind, Except.bind] at h
      intro x hx
      obtain ⟨members, -, hmembers⟩ := mem_of_mapM h x hx
      exact ⟨members, hmembers⟩

theorem Rollout.extracted_of_extract {r : Rollout} {raw : Table Value} {h : Host}
    (hr : ((Registries.extract raw).on h).1 = .ok r.registries) : r.Extracted := by
  intro e he
  rw [Registries.extract] at hr
  obtain ⟨es, hes, hall⟩ := Act.ok_bind_iff.1 hr
  have hsame : Table.ofList es = r.registries := Except.ok.inj hall
  rw [← hsame] at he
  exact Descriptor.members_of_ofEntries
    ((Registries.extractEach_ok_iff.1 hes).2 e (Table.mem_of_mem_ofList he))

namespace Deployer

open Act
open Rollout (Deployable)
open Attempt (Chain)

variable {d : Deployer} {r : Rollout} {image : String} {limits : Limits}

/-- Two containers of one deployment would have one name: a module is listed twice, a module has the
name of another's sidecar, or the profile is `mgr` and the sidecar of a module `mgr` is named as the
container of a module `sc`. -/
inductive Clash (profile : String) (r : Rollout) (image : String) : Prop
  | listedTwice : ¬ (r.deployables.map (·.descriptor.name)).Nodup → Clash profile r image
  | sidecar {x y : Deployable} : x ∈ r.deployables → y ∈ r.deployables →
      wantsSidecar image y = true → x.descriptor.name = y.descriptor.name ++ "-sc" →
      Clash profile r image
  | management {x y : Deployable} : profile = "mgr" → x ∈ r.deployables → x.descriptor.name = "sc" →
      y ∈ r.deployables → y.descriptor.name = "mgr" → wantsSidecar image y = true →
      Clash profile r image

theorem nameFor_inj (d : Deployer) {a b : String}
    (hmode : ModuleName.isManagement a = ModuleName.isManagement b)
    (h : d.nameFor a = d.nameFor b) : a = b := by
  have hplace := ContainerName.ofName_eq_iff.1 h
  unfold ContainerName.place at hplace
  rw [hmode] at hplace
  split at hplace
  · exact String.toList_inj.1 hplace
  · exact String.toList_inj.1 (List.cons_inj_right _ |>.1 (List.append_cancel_left hplace))

section Names

variable (hr : r.Extracted)
  (hplans : ∀ e ∈ r.plans.toList, e.2.deploySidecar = true → Planner.allowsSidecar e.1 = true)
include hr hplans

theorem nameFor_eq_sidecar_iff {x y : Deployable} (hx : x ∈ r.deployables) (hy : y ∈ r.deployables)
    (hwants : wantsSidecar image y = true) :
    d.nameFor x.descriptor.name = d.sidecarIn y ↔
      x.descriptor.name = y.descriptor.name ++ "-sc" ∨
        d.profile = "mgr" ∧ x.descriptor.name = "sc" ∧ y.descriptor.name = "mgr" := by
  obtain ⟨-, hxmode, -, -⟩ := Rollout.mem_deployables hx
  obtain ⟨-, hymode, hplan, -⟩ := Rollout.mem_deployables hy
  have hallows := hplans _ hplan (Bool.and_eq_true_iff.1 hwants).1
  obtain ⟨hmanagement, hedge⟩ := Bool.and_eq_true_iff.1 hallows
  simp only [Bool.not_eq_true'] at hmanagement hedge
  have hside : ModuleName.sidecar y.descriptor.name = y.descriptor.name ++ "-sc" := by
    simp [ModuleName.sidecar, hedge]
  have hxplain : ModuleName.isManagement x.descriptor.name = false := by
    rw [hxmode, ← hymode, hmanagement]
  rw [sidecarIn, hr.sidecarName hy, nameFor, nameFor, ContainerName.ofName_eq_iff,
    ContainerName.place, ContainerName.place, if_neg (by rw [hxplain]; exact Bool.false_ne_true)]
  by_cases hmgr : y.descriptor.name = "mgr"
  · have hletters : (ModuleName.sidecar "mgr").toList = ['m', 'g', 'r'] ++ '-' :: ['s', 'c'] := by
      decide
    rw [if_pos ((ModuleName.isManagement_sidecar _).2 (.inr hmgr)), hmgr, hletters]
    constructor
    · intro h
      obtain ⟨hprofile, -, hname⟩ :=
        (List.append_cons_inj_of_notMem (by decide) (by decide)).1 h.symm
      exact .inr ⟨String.toList_inj.1 hprofile.symm, String.toList_inj.1 hname.symm, rfl⟩
    · rintro (hname | ⟨hprofile, hname, -⟩)
      · rw [hname] at hxplain
        exact absurd hxplain (by decide)
      · rw [hprofile, hname]
        decide
  · have hplain : ¬ ModuleName.isManagement (ModuleName.sidecar y.descriptor.name) = true :=
      fun h ↦ ((ModuleName.isManagement_sidecar _).1 h).elim
        (fun h ↦ by rw [hmanagement] at h; cases h) hmgr
    rw [if_neg hplain, List.append_cancel_left_eq, List.cons_inj_right, String.toList_inj, hside]
    simp [hmgr]

theorem nodup_names_iff :
    ((d.requests r image limits).map (·.name)).Nodup ↔ ¬ Clash d.profile r image := by
  have hnames : (d.requests r image limits).map (·.name) =
      (r.deployables.map (·.descriptor.name)).map d.nameFor ++
        (r.deployables.filter (wantsSidecar image)).map d.sidecarIn := by
    rw [requests, List.map_append, List.map_map, List.map_map, List.map_map]
    rfl
  have hsame {x y : Deployable} (hx : x ∈ r.deployables) (hy : y ∈ r.deployables)
      (hw : wantsSidecar image y = true) := nameFor_eq_sidecar_iff (d := d) hr hplans hx hy hw
  rw [hnames, List.nodup_append]
  constructor
  · rintro ⟨hmodules, -, hdisjoint⟩ hclash
    have hapart : ∀ {x y : Deployable}, x ∈ r.deployables → y ∈ r.deployables →
        wantsSidecar image y = true → d.nameFor x.descriptor.name ≠ d.sidecarIn y := fun hx hy hw ↦
      hdisjoint _ (List.mem_map_of_mem (List.mem_map_of_mem hx)) _
        (List.mem_map_of_mem (List.mem_filter.2 ⟨hy, hw⟩))
    cases hclash with
    | listedTwice htwice => exact htwice (List.Nodup.of_map _ hmodules)
    | sidecar hx hy hw hname => exact hapart hx hy hw ((hsame hx hy hw).2 (.inl hname))
    | management hprofile hx hxname hy hyname hw =>
      exact hapart hx hy hw ((hsame hx hy hw).2 (.inr ⟨hprofile, hxname, hyname⟩))
  · intro hclash
    have honce : (r.deployables.map (·.descriptor.name)).Nodup :=
      Classical.not_not.1 fun h ↦ hclash (.listedTwice h)
    refine ⟨List.Nodup.map_on (fun a ha b hb hab ↦ ?_) honce,
      nodup_sidecars hr (List.filter_subset_self _) (honce.sublist (List.filter_sublist.map _)),
      fun a ha b hb hab ↦ ?_⟩
    · obtain ⟨x, hx, rfl⟩ := List.mem_map.1 ha
      obtain ⟨y, hy, rfl⟩ := List.mem_map.1 hb
      exact d.nameFor_inj (((Rollout.mem_deployables hx).2.1).trans
        (Rollout.mem_deployables hy).2.1.symm) hab
    · obtain ⟨_, hname, rfl⟩ := List.mem_map.1 ha
      obtain ⟨x, hx, rfl⟩ := List.mem_map.1 hname
      obtain ⟨y, hy, rfl⟩ := List.mem_map.1 hb
      obtain ⟨hy, hw⟩ := List.mem_filter.1 hy
      obtain hname | ⟨hprofile, hxname, hyname⟩ := (hsame hx hy hw).1 hab
      · exact hclash (.sidecar hx hy hw hname)
      · exact hclash (.management hprofile hx hxname hy hyname hw)

end Names

theorem Course.nodup_names {h h' : Host} {res : Except Failure (Table Int)}
    {done beside : List Attempt} {failed : Option Attempt}
    (hcourse : Course d r image limits h h' res done failed beside)
    (hnames : ((d.requests r image limits).map (·.name)).Nodup) :
    ((done ++ failed.toList ++ beside).map fun a ↦ (a.request d).name).Nodup := by
  obtain ⟨qs, hperm, hsub⟩ := hcourse.requests_subperm
  have hqs := (hnames.sublist (hsub.map (·.name)))
  rw [(hperm.map (·.name)).nodup_iff, List.map_map] at hqs
  exact hqs

/-- An attempt of a row in which the names are distinct finds its name taken only by a container
that was there before the row. -/
theorem Attempt.Chain.untaken (hauth : d.auth.Spares) {h h' : Host} {as : List Attempt}
    (hc : Chain d h as h') (hnames : (as.map fun a ↦ (a.request d).name).Nodup) :
    ∀ a ∈ as, ∀ c ∈ a.before.daemon.containers, c.name = (a.request d).name →
      c ∈ h.daemon.containers := by
  intro a ha c hin hname
  obtain ⟨front, back, rfl⟩ := List.append_of_mem ha
  obtain ⟨made, hmade, hbefore⟩ := hc.before hauth
  rw [hbefore] at hin
  refine (List.mem_append.1 hin).resolve_right fun hnew ↦ ?_
  obtain ⟨b, hb, rfl⟩ := List.mem_map.1 hnew
  rw [List.map_append, List.map_cons] at hnames
  exact (List.nodup_append.1 hnames).2.2 _ (List.mem_map_of_mem (hmade.subset hb)) _
    List.mem_cons_self hname

def conflict (name : String) : Failure :=
  .daemon .refused s!"Conflict: container name {name} is in use"

/-- Nothing stands in the way of a deployment but its own containers: there are none on the daemon
yet, no call to it fails, credentials and images are to be had, and the names are valid. -/
structure Unhindered (d : Deployer) (r : Rollout) (image : String) (limits : Limits) (h : Host) :
    Prop where
  empty : h.daemon.containers = []
  fault : ∀ c, h.daemon.fault c = none
  credentials : ∃ c, ∀ g, d.auth.on g = (.ok c, g)
  pulls : ∀ name c, ∀ e ∈ h.daemon.eventsOf (Pull.callFor name c), Pull.ending name e = .ok ()
  valid : ∀ q ∈ d.requests r image limits, ContainerName.isValid q.name = true

theorem result_booted (c : ContainerPlan) (name : String) (h : Host) :
    ((booted c name).on h).1 = ((boot c name).on h).1 := by
  rw [booted, on_bind]
  rcases (boot c name).on h with ⟨f | report, g⟩
  · rfl
  · simp only [on_bind, Act.tell, on_write, on_pure]

theorem Attempt.outcome_eq_boot (hauth : d.auth.Spares) {a : Attempt} (himage : ¬ ∃ f, Lacks d a f) :
    ∃ g, g.daemon = a.before.daemon ∧
      a.outcome d = ((boot a.container (d.nameFor a.container.name)).on g).1 := by
  cases hpull : a.container.pullImage with
  | false => exact ⟨a.before, rfl, outcome_bringUp hpull a.before⟩
  | true =>
    have hrun := on_bringUp (d := d) hpull
    rw [outcome, hrun]
    cases hanswer : Pull.imageAnswer a.before.daemon a.container.image with
    | ok u => exact ⟨a.lookedUp, rfl, result_booted _ _ _⟩
    | error g =>
      cases hmissing : g.isMissingImage with
      | false => exact absurd ⟨g, .lookup hanswer hmissing⟩ himage
      | true =>
        cases hend : ((Pull.image a.container.image d.auth).on a.lookedUp).1 with
        | error f =>
          exact absurd ⟨f, .pull hanswer hmissing ((Pull.image_error_iff hauth).1 hend)⟩ himage
        | ok u =>
          refine ⟨_, Pull.spares_image a.container.image hauth a.lookedUp, ?_⟩
          dsimp only
          rw [if_pos hmissing, on_bind_of_ok hend]
          exact result_booted _ _ _

/-- Where nothing else stands in the way, an attempt fails exactly if its name is taken. -/
theorem Unhindered.outcome {h : Host} (hfree : d.Unhindered r image limits h) {a : Attempt}
    {cs : List Container} (hbefore : a.before.daemon = { h.daemon with containers := cs })
    (ha : a.request d ∈ d.requests r image limits) :
    if cs.any (·.name == (a.request d).name) then a.outcome d = .error (conflict (a.request d).name)
    else a.Succeeded d := by
  obtain ⟨c, hc⟩ := hfree.credentials
  have hreply : ∀ k, Docker.reply a.before.daemon k = .ok () := fun k ↦ by
    rw [Docker.reply_eq_ok, hbefore, hfree.fault]
  -- no lookup and no pull stands in the way, so only booting can fail, and only by the name
  have himage : ¬ ∃ f, a.Lacks d f := by
    rintro ⟨f, ⟨hanswer, hmissing⟩ | ⟨-, -, hbreaks⟩⟩
    · rw [Pull.imageAnswer, hreply] at hanswer
      dsimp only [Except.bind] at hanswer
      split at hanswer
      · cases hanswer
      · cases hanswer
        cases hmissing
    · rw [Pull.breaks_iff (c := c) (by rw [hc])] at hbreaks
      obtain hfault | ⟨-, before, e, after, hevents, -, hends⟩ := hbreaks
      · cases (Docker.reply_eq_ok.1 (hreply _)).symm.trans hfault
      · have he : e ∈ h.daemon.eventsOf (Pull.callFor a.container.image c) := by
          have hin : e ∈ a.lookedUp.daemon.eventsOf (Pull.callFor a.container.image c) := by
            simp [hevents]
          rwa [Attempt.lookedUp, hbefore] at hin
        cases (hfree.pulls _ c e he).symm.trans hends
  obtain ⟨g, hg, hout⟩ := Attempt.outcome_eq_boot (fun g ↦ by rw [hc]) himage
  have hanswer : ∀ k, Docker.answer g k = .ok () := fun k ↦ by
    rw [Docker.answer, hg, hbefore, hfree.fault]
  have hcheck : ContainerName.check (d.nameFor a.container.name) = .ok () :=
    if_pos (hfree.valid _ ha)
  have htaken : taken g (d.nameFor a.container.name) = cs.any (·.name == (a.request d).name) := by
    rw [taken, hg, hbefore]
    rfl
  rw [outcome_boot, hcheck, hanswer, htaken, hanswer] at hout
  cases hany : cs.any (·.name == (a.request d).name) with
  | true =>
    rw [hany] at hout
    exact hout
  | false =>
    rw [hany] at hout
    exact ⟨_, hout⟩

theorem Attempt.Chain.nodup_names (hauth : d.auth.Spares) {h h' : Host} {as : List Attempt}
    (hc : Chain d h as h') (hall : ∀ a ∈ as, a.Succeeded d) :
    (as.map fun a ↦ (a.request d).name).Nodup := by
  obtain ⟨made, hmade, -, hdone, -⟩ := hc.creates hauth
  have hup : as.filter (fun a ↦ (a.outcome d).isOk) = as := List.filter_eq_self.2 fun a ha ↦ by
    obtain ⟨report, hr⟩ := hall a ha
    rw [hr]
    rfl
  rw [hup] at hdone
  have hnodup := hmade.nodup_names
  rw [List.map_map] at hnodup
  exact hnodup.sublist (hdone.map _)

/-- Where nothing else stands in the way, an attempt is refused its name exactly if two containers
of the deployment are to have one name. -/
theorem Course.refused_iff (hauth : d.auth.Spares) {h h' : Host}
    {res : Except Failure (Table Int)} {done beside : List Attempt} {failed : Option Attempt}
    (hcourse : Course d r image limits h h' res done failed beside)
    (hfree : d.Unhindered r image limits h) :
    (∃ a ∈ done ++ failed.toList ++ beside, a.outcome d = .error (conflict (a.request d).name)) ↔
      ¬ ((d.requests r image limits).map (·.name)).Nodup := by
  -- the daemon before an attempt differs from the first one only by what the row has made
  have hends : ∀ a ∈ done ++ failed.toList ++ beside,
      if a.before.daemon.containers.any (·.name == (a.request d).name) then
        a.outcome d = .error (conflict (a.request d).name)
      else a.Succeeded d := fun a ha ↦ by
    obtain ⟨front, back, hall⟩ := List.append_of_mem ha
    have hchain := hcourse.chain
    rw [hall] at hchain
    obtain ⟨made, -, hbefore⟩ := hchain.before hauth
    have hend := hfree.outcome hbefore (hcourse.requests_subperm.subset (List.mem_map_of_mem ha))
    rwa [hbefore]
  constructor
  · rintro ⟨a, ha, hdown⟩ hnames
    have hend := hends a ha
    split at hend
    · next htaken =>
      obtain ⟨c, hc, hname⟩ := List.any_eq_true.1 htaken
      have hin := hcourse.chain.untaken hauth (hcourse.nodup_names hnames) a ha c hc
        (beq_iff_eq.1 hname)
      rw [hfree.empty] at hin
      cases hin
    · obtain ⟨report, hup⟩ := hend
      cases hdown.symm.trans hup
  · -- were nothing refused, all would be up, and no two containers have one name
    intro hnames
    by_contra hnone
    have hall : ∀ a ∈ done ++ failed.toList ++ beside, a.Succeeded d := fun a ha ↦ by
      have hend := hends a ha
      split at hend
      · exact absurd ⟨a, ha, hend⟩ hnone
      · exact hend
    have hlast : failed = none := by
      cases failed with
      | none => rfl
      | some a =>
        obtain ⟨f, hf⟩ := hcourse.modules.down a rfl
        obtain ⟨report, hup⟩ := hall a (by simp)
        cases hf.symm.trans hup
    subst hlast
    have hnodup := hcourse.chain.nodup_names hauth hall
    have hperm := hcourse.requests_perm.map (·.name)
    rw [List.map_map] at hperm
    rw [Option.toList_none, List.append_nil] at hnodup
    exact hnames (hperm.nodup_iff.1 hnodup)

/-- A run asks for no container but those that it is to create, and for each at most once. -/
theorem creations_subperm (hauth : d.auth.Keeps (Host.Lapse Event.IsLocal)) {h h' : Host}
    {res : Except Failure (Table Int)} {done beside : List Attempt} {failed : Option Attempt}
    (hcourse : Course d r image limits h h' res done failed beside) :
    ∃ made, h'.creations = h.creations ++ made ∧ made.Subperm (d.requests r image limits) := by
  have hone : ∀ a : Attempt, ((a.calls d).filterMap Call.create?).Sublist [a.request d] := fun a ↦ by
    obtain ⟨asked, cs, hcalls, hasked, hcs⟩ := Attempt.calls_shape hauth a
    have hnone : asked.filterMap Call.create? = [] :=
      List.filterMap_eq_nil_iff.2 fun c hc ↦ Call.create?_eq_none fun q hq ↦ hasked q (hq ▸ hc)
    rw [hcalls, List.filterMap_append, hnone, List.nil_append]
    exact hcs.sublist.filterMap Call.create?
  have hall : ∀ as : List Attempt, ((as.flatMap (Attempt.calls d)).filterMap Call.create?).Sublist
      (as.map (Attempt.request d)) := by
    intro as
    induction as with
    | nil => exact .slnil
    | cons a as ih =>
      rw [List.flatMap_cons, List.filterMap_append]
      exact (hone a).append ih
  refine ⟨_, ?_, (hall _).subperm.trans hcourse.requests_subperm⟩
  rw [Host.creations_eq, Host.creations_eq, hcourse.chain.calls_of (Attempt.calls_after hauth),
    List.filterMap_append]

/-- Where no names clash, a deployment never asks for one name twice and, where there were no
containers, never finds a name taken. Where nothing else stands in the way, names that clash are the
only reason for which one is refused, and then one is. -/
theorem conflicts_iff_clash {p : Planner} {modules : Table (Option Config.Module)}
    {s t : Booking.State} (hplans : (p.planAll modules false).on s = (.ok r.plans, t))
    {raw : Table Value} {k : Host}
    (hregistries : ((Registries.extract raw).on k).1 = .ok r.registries)
    (hauth : d.auth.Keeps (Host.Lapse Event.IsLocal)) (image : String) (limits : Limits) (h : Host) :
    let run := (d.rollOut r image limits).on h
    ∃ done failed beside, Course d r image limits h run.2 run.1 done failed beside ∧
      (¬ Clash d.profile r image →
        (∃ made, run.2.creations = h.creations ++ made ∧ (made.map (·.name)).Nodup) ∧
        ∀ a ∈ done ++ failed.toList ++ beside, ∀ c ∈ a.before.daemon.containers,
          c.name = (a.request d).name → c ∈ h.daemon.containers) ∧
      (d.Unhindered r image limits h → ((∃ a ∈ done ++ failed.toList ++ beside,
        a.outcome d = .error (conflict (a.request d).name)) ↔ Clash d.profile r image)) := by
  intro run
  have hnames : ((d.requests r image limits).map (·.name)).Nodup ↔ ¬ Clash d.profile r image :=
    nodup_names_iff (Rollout.extracted_of_extract hregistries)
      (Planner.allowsSidecar_of_planAll hplans)
  obtain ⟨done, failed, beside, hcourse⟩ := exists_course hauth.spares r image limits h
  refine ⟨done, failed, beside, hcourse, fun hclash ↦ ⟨?_, ?_⟩, fun hfree ↦ ?_⟩
  · obtain ⟨made, hmade, qs, hperm, hsub⟩ := creations_subperm hauth hcourse
    refine ⟨made, hmade, ((hperm.map (·.name)).nodup_iff).1 ?_⟩
    exact (hnames.2 hclash).sublist (hsub.map _)
  · exact hcourse.chain.untaken hauth.spares (hcourse.nodup_names (hnames.2 hclash))
  · rw [hcourse.refused_iff hauth.spares hfree, hnames, not_not]

def listedEach (es : List (String × Descriptor)) : Table Value :=
  .ofList (es.map fun e ↦ (e.1, .list [.map [(.text "id", .text e.2.id)]]))

theorem extract_listedEach (es : List (String × Descriptor)) (hnames : (es.map Prod.fst).Nodup)
    (hordered : Registries.ordered (es.map Prod.fst) = es.map Prod.fst)
    (hread : ∀ e ∈ es, e.2.id ≠ "okapi" ∧
      Descriptor.ofMembers [(.text "id", .text e.2.id)] = .ok e.2) (h : Host) :
    ((Registries.extract (listedEach es)).on h).1 =
      .ok (.ofList (es.map fun e ↦ (e.1, [e.2]))) := by
  have hlist : (listedEach es).toList =
      es.map fun e ↦ (e.1, .list [.map [(.text "id", .text e.2.id)]]) :=
    Table.toList_ofList (by simpa [Function.comp_def] using hnames)
  have hkeys : (listedEach es).keys = es.map Prod.fst := by
    rw [Table.keys, ← Table.toList, hlist, List.map_map]
    rfl
  rw [Registries.extract, hkeys, hordered]
  refine ok_bind_iff.2 ⟨_, Registries.extractEach_ok_iff.2 ⟨?_, fun e he ↦ ?_⟩, rfl⟩
  · rw [List.map_map]
    rfl
  · obtain ⟨x, hx, rfl⟩ := List.mem_map.1 he
    have hget : (listedEach es).get? x.1 =
        some (.list [.map [(.text "id", .text x.2.id)]]) := by
      rw [Table.get?_eq_some_iff, hlist]
      exact List.mem_map.2 ⟨x, hx, rfl⟩
    obtain ⟨hplatform, hdescriptor⟩ := hread x hx
    have hmodule : Descriptor.isPlatform [(.text "id", .text x.2.id)] = false :=
      beq_false_of_ne hplatform
    rw [hget]
    simp only [Option.getD_some, Descriptor.ofEntries, Descriptor.entriesOf, Descriptor.membersOf,
      List.mapM_cons, List.mapM_nil, bind, Except.bind, pure, Except.pure,
      List.mergeSort_singleton, List.filter_cons, List.filter_nil, hmodule, Bool.not_false, if_true,
      hdescriptor]

def listedIn (names : List String) : Table Value :=
  .ofList (names.map fun name ↦ (name, .list [.map [(.text "id", .text "mod-a-1.0.0")]]))

theorem extract_listedIn {names : List String} (hnames : names.Nodup)
    (hordered : Registries.ordered names = names) (h : Host) :
    ((Registries.extract (listedIn names)).on h).1 = .ok (.ofList (names.map fun name ↦
      (name, [⟨"mod-a-1.0.0", "mod-a", "1.0.0", "mod-a-sc", "enable"⟩]))) := by
  have hid : "mod-a-1.0.0" ≠ "okapi" := by decide
  have hread : Descriptor.ofMembers [(.text "id", .text "mod-a-1.0.0")] =
      .ok ⟨"mod-a-1.0.0", "mod-a", "1.0.0", "mod-a-sc", "enable"⟩ := rfl
  have hall := extract_listedEach
    (names.map (·, ⟨"mod-a-1.0.0", "mod-a", "1.0.0", "mod-a-sc", "enable"⟩))
    (by simpa [Function.comp_def] using hnames) (by simpa [Function.comp_def] using hordered)
    (List.forall_mem_map.2 fun _ _ ↦ ⟨hid, hread⟩) h
  rw [listedEach, List.map_map, List.map_map] at hall
  exact hall

theorem ordered_leading : Registries.ordered ["folio"] = ["folio"] ∧
    Registries.ordered ["folio", "eureka"] = ["folio", "eureka"] := by
  simp [Registries.ordered, Registries.leading]

theorem creations_oneListed : ∃ plans s,
    (planServingOn 8081).on ⟨tenPorts, .quiet⟩ = (.ok plans, s) ∧
    let names := ["eureka-combined-mod-a", "eureka-combined-mod-a-sc"]
    (withoutCredentials.requests (oneListed plans) "sc" .forSidecars).map (·.name) = names ∧
    ((withoutCredentials.rollOut (oneListed plans) "sc" .forSidecars).on .quiet).2.creations.map
      (·.name) = names := by
  rw [planServingOn, Planner.planAll, selected_servingOn]
  exact ⟨_, _, rfl, by decide +kernel, by decide +kernel⟩

theorem conflicts_iff_clash_once : ∃ plans s,
    (planServingOn 8081).on ⟨tenPorts, .quiet⟩ = (.ok plans, s) ∧
    let r := oneListed plans
    let run := (withoutCredentials.rollOut r "sc" .forSidecars).on .quiet
    ((Registries.extract (listedIn ["folio"])).on .quiet).1 = .ok r.registries ∧
    withoutCredentials.auth.Keeps (Host.Lapse Event.IsLocal) ∧
    ¬ Clash "combined" r "sc" ∧ withoutCredentials.Unhindered r "sc" .forSidecars .quiet ∧
    run.2.creations.map (·.name) = ["eureka-combined-mod-a", "eureka-combined-mod-a-sc"] ∧
    ∃ done failed beside,
      Course withoutCredentials r "sc" .forSidecars .quiet run.2 run.1 done failed beside ∧
      ∀ a ∈ done ++ failed.toList ++ beside,
        (∀ c ∈ a.before.daemon.containers, c.name ≠ (a.request withoutCredentials).name) ∧
        a.outcome withoutCredentials ≠ .error (conflict (a.request withoutCredentials).name) := by
  obtain ⟨plans, s, hplans, hnames, hcreations⟩ := creations_oneListed
  have hauth : withoutCredentials.auth.Keeps (Host.Lapse Event.IsLocal) := keeps_pure none
  have hregistries : ((Registries.extract (listedIn ["folio"])).on .quiet).1 =
      .ok (oneListed plans).registries := extract_listedIn (by decide) ordered_leading.1 .quiet
  have hiff : ((withoutCredentials.requests (oneListed plans) "sc" .forSidecars).map
      (·.name)).Nodup ↔ ¬ Clash "combined" (oneListed plans) "sc" := nodup_names_iff
    (Rollout.extracted_of_extract hregistries) (Planner.allowsSidecar_of_planAll hplans)
  have hclash : ¬ Clash "combined" (oneListed plans) "sc" := by
    rw [← hiff, hnames]
    decide
  have hfree : withoutCredentials.Unhindered (oneListed plans) "sc" .forSidecars .quiet := by
    refine ⟨rfl, fun _ ↦ rfl, ⟨none, fun _ ↦ rfl⟩, fun _ _ e he ↦ (by cases he), ?_⟩
    have hvalid : ∀ name ∈ (withoutCredentials.requests (oneListed plans) "sc" .forSidecars).map
        (·.name), ContainerName.isValid name = true := by
      rw [hnames]
      decide
    exact fun q hq ↦ hvalid _ (List.mem_map_of_mem hq)
  obtain ⟨done, failed, beside, hcourse, hsafe, hrefused⟩ := conflicts_iff_clash
    (d := withoutCredentials) (r := oneListed plans) hplans hregistries hauth "sc" .forSidecars
    .quiet
  refine ⟨plans, s, hplans, hregistries, hauth, hclash, hfree, hcreations, done, failed, beside,
    hcourse, fun a ha ↦ ⟨fun c hc hname ↦ ?_, fun hend ↦ hclash ((hrefused hfree).1 ⟨a, ha, hend⟩)⟩⟩
  cases (hsafe hclash).2 a ha c hc hname

/-- A module that two registries list conflicts with itself: on a machine where nothing fails its
container is asked for twice, and the second time is the end of the deployment. -/
theorem listed_twice_conflicts : ∃ registries plans s,
    Config.Run.check (servingOn 8081) = .good (runServingOn 8081) ∧
    (planServingOn 8081).on ⟨tenPorts, .quiet⟩ = (.ok plans, s) ∧
    ((Registries.extract (listedIn ["folio", "eureka"])).on .quiet).1 = .ok registries ∧
    Host.quiet.daemon.containers.length = 0 ∧ (∀ c, (Host.quiet.daemon.fault c).isNone) ∧
    let run := (withoutCredentials.rollOut (.ordinary registries plans ∅ ∅ "") "" .forSidecars).on
      .quiet
    run.2.creations.map (·.name) = ["eureka-combined-mod-a", "eureka-combined-mod-a"] ∧
      (match run.1 with
        | .error f => f.message
        | .ok _ => "") = (conflict "eureka-combined-mod-a").message := by
  rw [planServingOn, Planner.planAll, selected_servingOn]
  refine ⟨_, _, _, rfl, rfl, extract_listedIn (by decide) ordered_leading.2 .quiet, rfl,
    fun _ ↦ rfl, ?_⟩
  decide +kernel

end Deployer

end Orchestrator
