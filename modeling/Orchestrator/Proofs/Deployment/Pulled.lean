import Orchestrator.Proofs.Deployment.Images
import Orchestrator.Proofs.ImageNames

namespace Orchestrator

namespace Pull

open Act

variable {name : String} {auth : Act (Option Credentials)}

/-- Whatever becomes of a pull, at most one call is made, which asks for the image. -/
theorem asks_image (hauth : auth.Keeps (Host.Lapse Event.IsLocal)) (name : String) (h : Host) :
    ∃ es, ((Pull.image name auth).on h).2.trace = h.trace ++ es ∧
      (es.filterMap Event.call? = [] ∨ ∃ c, es.filterMap Event.call? = [callFor name c]) := by
  obtain ⟨asked, hasked, hlocal⟩ := (hauth h).trace
  have hnone : asked.filterMap Event.call? = [] :=
    List.filterMap_eq_nil_iff.2 fun e he ↦ (hlocal e he).call?_eq_none
  rw [on_image]
  rcases ha : auth.on h with ⟨f | c, g⟩ <;> rw [ha] at hasked <;> dsimp only at hasked ⊢
  · exact ⟨asked, hasked, .inl hnone⟩
  · have hcalled : Host.trace { g with past := .call (callFor name c) :: g.past } =
        h.trace ++ (asked ++ [.call (callFor name c)]) := by
      rw [← List.append_assoc, ← hasked]
      simp [Host.trace]
    cases Docker.reply g.daemon (callFor name c) with
    | error f =>
      refine ⟨_, hcalled, .inr ⟨c, ?_⟩⟩
      rw [List.filterMap_append, hnone]
      rfl
    | ok u =>
      dsimp only
      obtain ⟨told, htold, hsaid⟩ :=
        (said_followed name (g.daemon.eventsOf (callFor name c)) _).trace
      have hquiet : told.filterMap Event.call? = [] :=
        List.filterMap_eq_nil_iff.2 fun e he ↦ (hsaid e he).call?_eq_none
      refine ⟨_, by rw [htold, hcalled, List.append_assoc], .inr ⟨c, ?_⟩⟩
      rw [List.filterMap_append, List.filterMap_append, hnone, hquiet]
      rfl

theorem callFor_of_split {repository tag : String} (h : Image.split name = (repository, some tag))
    (htag : tag ≠ "") (c : Option Credentials) : callFor name c = .pull repository tag c := by
  have hkept : (some tag).filter (· != "") = some tag := by simpa using htag
  rw [callFor, h, hkept]
  rfl

end Pull

namespace Deployer

open Act

variable {d : Deployer} {a : Attempt}

/-- The calls of an attempt that looks its image up: the lookup, at most one pull, and what boots
the container. -/
theorem Attempt.asks_in_order (hauth : d.auth.Keeps (Host.Lapse Event.IsLocal))
    (hpull : a.container.pullImage = true) : ∃ asked booted,
    a.calls d = .imageGet a.container.image :: (asked ++ booted) ∧
      (asked = [] ∨ ∃ c, asked = [Pull.callFor a.container.image c]) ∧
      booted <+: bootCalls a.container (d.nameFor a.container.name) := by
  have hstart : a.lookedUp.trace = a.before.trace ++ [.call (.imageGet a.container.image)] := by
    simp [lookedUp, Host.trace]
  have hrun := on_bringUp (d := d) hpull
  rw [calls_eq hauth]
  obtain ⟨got, rest, hgot, hevents, hboots⟩ | ⟨f, hlacks⟩ := obtains_or_lacks hauth hpull
  · refine ⟨_, _, ?_, hgot.calls hauth, hboots.calls.1⟩
    rw [hevents, List.filterMap_cons, List.filterMap_append]
    rfl
  · cases hlacks with
    | lookup himage hmissing =>
      simp only [himage, hmissing, Bool.false_eq_true, if_false] at hrun
      have hafter : (a.after d).trace = a.lookedUp.trace := by rw [after, hrun]
      exact ⟨[], [], by rw [events_of (hafter.trans hstart)]; rfl, .inl rfl, List.nil_prefix⟩
    | pull himage hmissing hbreaks =>
      simp only [himage, hmissing, if_true] at hrun
      have hend := (Pull.image_error_iff hauth.spares).2 hbreaks
      obtain ⟨es, hes, hcalls⟩ := Pull.asks_image hauth a.container.image a.lookedUp
      have hafter : (a.after d).trace =
          a.before.trace ++ (.call (.imageGet a.container.image) :: es) := by
        rw [after, hrun, on_bind_of_error hend, hes, hstart, List.append_assoc]
        rfl
      refine ⟨es.filterMap Event.call?, [], ?_, hcalls, List.nil_prefix⟩
      rw [events_of hafter, List.filterMap_cons, List.append_nil]
      rfl

/-- Where a module from a registry's entry is deployed in the version that the entry gives, its
image is in the namespace of that version, whatever colons and slashes the namespace has: the text
that was looked up is pulled in the repository and under the tag it is put together from, and it is
what the container is created with. -/
theorem pulled_as_created (hauth : d.auth.Keeps (Host.Lapse Event.IsLocal)) (r : Rollout)
    (image : String) (limits : Limits) (h : Host) :
    let run := (d.rollOut r image limits).on h
    ∃ done failed beside, Course d r image limits h run.2 run.1 done failed beside ∧
      run.2.calls = h.calls ++ (done ++ failed.toList ++ beside).flatMap (Attempt.calls d) ∧
      ∀ a ∈ done ++ failed.toList, ∀ members ns,
        Descriptor.ofMembers members = .ok a.module.descriptor →
        a.module.version = a.module.descriptor.version →
        Image.InNameSpace d.site a.module.version ns → '@' ∉ ns.toList →
        let repository := ns ++ "/" ++ a.module.descriptor.name
        let tag := a.module.descriptor.version
        Image.Splits (repository ++ ":" ++ tag) repository (some tag) ∧
        (a.request d).image = repository ++ ":" ++ tag ∧
        ∃ asked booted, a.calls d = .imageGet (repository ++ ":" ++ tag) :: (asked ++ booted) ∧
          (asked = [] ∨ ∃ c, asked = [.pull repository tag c]) ∧
          booted <+: [.create (a.request d), .start (a.request d).name] := by
  intro run
  obtain ⟨done, failed, beside, hcourse⟩ := exists_course hauth.spares r image limits h
  refine ⟨done, failed, beside, hcourse, hcourse.chain.calls_of (Attempt.calls_after hauth), ?_⟩
  intro a ha members ns hentry hversion hns hat repository tag
  have hspace : Image.nameSpace d.site a.module.descriptor.version = ns := by
    rw [← hversion]
    exact Image.nameSpace_eq_iff.2 hns
  have himage : a.container.image = repository ++ ":" ++ tag := by
    have hof : a.container.image = Image.ofModule d.site a.module.descriptor a.module.version := by
      rw [hcourse.modules.own a ha]
      rfl
    rw [hof, hversion, Image.ofModule, hspace]
  have hread := Descriptor.isVersion_of_ofMembers hentry
  have hsplit : Image.split (repository ++ ":" ++ tag) = (repository, some tag) := by
    have hsite : '@' ∉ (Image.nameSpace d.site tag).toList := by rwa [hspace]
    have h := Image.split_ofModule hsite (Descriptor.isName_of_ofMembers hentry) hread
    rwa [Image.ofModule, hspace] at h
  obtain ⟨asked, booted, hcalls, hasked, hbooted⟩ :=
    Attempt.asks_in_order hauth (hcourse.of_module ha).2.2
  rw [himage] at hcalls hasked
  refine ⟨Image.split_eq_iff.1 hsplit, himage, asked, booted, hcalls, ?_, hbooted⟩
  refine hasked.imp_right fun ⟨c, hc⟩ ↦ ⟨c, ?_⟩
  rw [hc, Pull.callFor_of_split hsplit hread.ne_empty]

theorem of_listing {names : List String} (hnames : names.Nodup) {x : Rollout.Deployable}
    (hx : x ∈ (Rollout.listing names).deployables) : ∃ name ∈ names,
      x.descriptor = ⟨name ++ "-1.0.0", name, "1.0.0", ModuleName.sidecar name, "enable"⟩ ∧
        x.version = "1.0.0" := by
  obtain ⟨⟨e, he, hlisted⟩, -, hplan, -⟩ := Rollout.mem_deployables hx
  have hplans : (Rollout.listing names).plans.toList =
      names.map fun name ↦ (name, ModulePlan.standard name) :=
    Table.toList_ofList (by simpa [Function.comp_def] using hnames)
  obtain rfl := List.mem_singleton.1 he
  obtain ⟨name, hname, hdescriptor⟩ := List.mem_map.1 hlisted
  rw [hplans] at hplan
  obtain ⟨planned, -, hplan⟩ := List.mem_map.1 hplan
  refine ⟨name, hname, hdescriptor.symm, ?_⟩
  rw [Rollout.Deployable.version, ← (Prod.mk.inj hplan).2, ← hdescriptor]
  rfl

def hosted : Deployer :=
  { asking with site := { Site.unset with
      env := .ofList [(Site.unset.settings.privateNamespaceVariable, "host:5000/x")] } }

theorem pulled_as_created_hosted :
    let run := (hosted.rollOut (.listing ["mod-a"]) "" .forSidecars).on .quiet
    (run.2.calls.filterMap fun | .pull repository tag _ => some (repository, tag) | _ => none) =
      [("host:5000/x/mod-a", "1.0.0")] ∧
    ∃ a : Attempt, (a.request hosted).image = "host:5000/x/mod-a:1.0.0" ∧ ∃ asked booted,
      a.calls hosted = .imageGet "host:5000/x/mod-a:1.0.0" :: (asked ++ booted) ∧
      (asked = [] ∨ ∃ c, asked = [.pull "host:5000/x/mod-a" "1.0.0" c]) ∧
      booted <+: [.create (a.request hosted), .start (a.request hosted).name] := by
  intro run
  refine ⟨by decide +kernel, ?_⟩
  obtain ⟨done, failed, beside, hcourse, -, hall⟩ := pulled_as_created (d := hosted)
    ((lapse_record (e := .noted []) trivial).bind fun _ ↦ keeps_pure none)
    (.listing ["mod-a"]) "" .forSidecars .quiet
  obtain ⟨a, ha⟩ : ∃ a, a ∈ done ++ failed.toList := by
    cases failed with
    | some a => exact ⟨a, by simp⟩
    | none =>
      have hlength := congrArg List.length (hcourse.modules.all rfl)
      obtain ⟨a, rest, hdone⟩ := List.exists_cons_of_length_pos (l := done)
        (by rw [← List.length_map Attempt.module, hlength]; decide)
      exact ⟨a, by simp [hdone]⟩
  have hmodule : a.module ∈ (Rollout.listing ["mod-a"]).deployables :=
    hcourse.modules.order.subset (List.mem_map_of_mem ha)
  obtain ⟨name, hname, hdescriptor, hversion⟩ := of_listing (by simp) hmodule
  obtain rfl := List.mem_singleton.1 hname
  obtain ⟨-, hcreated⟩ := hall a ha [(.text "id", .text "mod-a-1.0.0")] "host:5000/x"
    (by rw [hdescriptor]; rfl) (by rw [hversion, hdescriptor]) (.own rfl (by decide)) (by decide)
  rw [hdescriptor] at hcreated
  exact ⟨a, hcreated⟩

end Deployer

end Orchestrator
