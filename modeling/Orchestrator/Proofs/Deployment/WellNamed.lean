import Orchestrator.Proofs.Deployment.Conflicts
import Orchestrator.Proofs.Identifiers

namespace Orchestrator

theorem Descriptor.name_of_ofMembers {members : List (Value × Value)} {x : Descriptor}
    (h : ofMembers members = .ok x) :
    x.name.toList ≠ [] ∧ ∀ c ∈ x.name.toList, ModuleId.isNameChar c = true := by
  obtain ⟨c, r, hname, hc, hr⟩ := (ModuleId.parse_ok_iff.1 (ofMembers_ok_iff.1 h).parsed).1.name
  rw [hname]
  refine ⟨List.cons_ne_nil _ _, List.forall_mem_cons.2 ⟨?_, fun d hd ↦ ?_⟩⟩
  · exact (ModuleId.isNameChar_iff c).2 (.inl hc)
  · exact (ModuleId.isNameChar_iff d).2 (hr d hd)

namespace ContainerName

/-- 1 to 128 characters, an ASCII letter or digit first and, behind it, these and `_`, `.`, `-`. -/
def WellFormed (name : String) : Prop :=
  ∃ c cs, name.toList = c :: cs ∧ name.length ≤ 128 ∧ c.isAlphanum = true ∧
    ∀ x ∈ cs, x.isAlphanum = true ∨ x ∈ ['_', '.', '-']

theorem isAlphanumeric_eq (c : Char) : isAlphanumeric c = c.isAlphanum := by
  have hlower : c.isLower = (decide ('a' ≤ c) && decide (c ≤ 'z')) := rfl
  rw [ModuleId.isAlphanum_eq, ModuleId.isUpper_eq, hlower, isAlphanumeric,
    Bool.or_comm (decide ('a' ≤ c) && _)]
  rfl

theorem isInner_iff (c : Char) :
    isInner c = true ↔ c.isAlphanum = true ∨ c ∈ ['_', '.', '-'] := by
  simp [isInner, isAlphanumeric_eq, or_assoc]

/-- Without a line feed at the end, the check tells the well-formed names from the others. -/
theorem isValid_iff {name : String} (hend : name.toList.getLast? ≠ some '\n') :
    isValid name = true ↔ WellFormed name := by
  unfold isValid WellFormed
  dsimp only
  rw [if_neg hend, ← String.length_toList]
  cases name.toList with
  | nil => simp
  | cons c cs =>
    simp only [Bool.and_eq_true, List.all_eq_true, isAlphanumeric_eq, isInner_iff,
      decide_eq_true_eq, List.length_cons]
    constructor
    · rintro ⟨⟨hfirst, hrest⟩, hlength⟩
      exact ⟨c, cs, rfl, by omega, hfirst, hrest⟩
    · rintro ⟨_, _, heq, hlength, hfirst, hrest⟩
      cases heq
      exact ⟨⟨hfirst, hrest⟩, by omega⟩

theorem getLast?_ofName (s : Settings) (profile : String) {name : String}
    (hname : name.toList ≠ []) :
    (ofName s profile name).toList.getLast? = name.toList.getLast? := by
  have hsuffix : ∃ front, (ofName s profile name).toList = front ++ name.toList := by
    rw [toList_ofName]
    unfold place
    split
    · exact ⟨s.containerPrefix.toList ++ ['-'], by simp⟩
    · exact ⟨s.containerPrefix.toList ++ '-' :: (profile.toList ++ ['-']), by simp⟩
  obtain ⟨front, hfront⟩ := hsuffix
  rw [hfront, List.getLast?_append_of_ne_nil _ hname]

end ContainerName

namespace Deployer

open Act ContainerName
open Rollout (Deployable)
open Attempt (Chain)

variable {d : Deployer} {r : Rollout} {image : String} {limits : Limits}

/-- Of the names of modules and sidecars, those pass the check whose containers are well named. -/
theorem isValid_nameFor_iff (d : Deployer) {x : Descriptor}
    (hx : ∃ members, Descriptor.ofMembers members = .ok x) {name : String}
    (hname : name = x.name ∨ name = x.sidecarName) :
    isValid (d.nameFor name) = true ↔ WellFormed (d.nameFor name) := by
  obtain ⟨members, hx⟩ := hx
  obtain ⟨hne, hchars⟩ := Descriptor.name_of_ofMembers hx
  have hlast : x.name.toList.getLast? ≠ some '\n' := fun h ↦
    absurd (hchars _ (List.mem_of_getLast? h)) (by decide)
  -- a line feed at the end, which the check lets pass, is in no name that was read from an id
  have hend : name.toList ≠ [] ∧ name.toList.getLast? ≠ some '\n' := by
    obtain rfl | rfl := hname
    · exact ⟨hne, hlast⟩
    · rw [(Descriptor.ofMembers_ok_iff.1 hx).sidecarName, ModuleName.toList_sidecar]
      split
      · exact ⟨hne, hlast⟩
      · refine ⟨by simp, ?_⟩
        rw [List.getLast?_append_of_ne_nil _ (by simp)]
        decide
  refine isValid_iff ?_
  rw [nameFor, getLast?_ofName _ _ hend.1]
  exact hend.2

theorem boot_of_invalid {name : String} (h : isValid name = false) (c : ContainerPlan) :
    boot c name = throw (.badContainerName name) := by
  rw [boot, ContainerName.check, if_neg (by simp [h])]
  rfl

namespace Attempt

variable {a : Attempt}

theorem no_create_of_invalid (hauth : d.auth.Keeps (Host.Lapse Event.IsLocal))
    (h : isValid (a.request d).name = false) (q : CreateRequest) : Call.create q ∉ a.calls d := by
  -- booting fails before its first call, so all calls of the attempt are those for its image
  have hboot : (boot a.container (d.nameFor a.container.name)).Keeps
      (Host.Lapse Event.IsEarly) := by
    have hfails := boot_of_invalid h a.container
    rw [Attempt.request] at hfails
    exact hfails ▸ keeps_throw _
  obtain ⟨es, hes, hearly⟩ :=
    (pervasive_bringUp Docker.pervasive_early hauth.early hboot a.before).trace
  intro hq
  rw [calls_eq hauth, events_of hes] at hq
  obtain ⟨e, he, hcall⟩ := List.mem_filterMap.1 hq
  obtain rfl := Event.eq_call_of_call? hcall
  exact hearly _ he

theorem outcome_of_invalid (hauth : d.auth.Spares) (h : isValid (a.request d).name = false)
    (himage : a.container.pullImage = true → ¬ ∃ f, a.Lacks d f) :
    a.outcome d = .error (.badContainerName (a.request d).name) := by
  have hboot := boot_of_invalid h a.container
  cases hpull : a.container.pullImage with
  | false =>
    have hout : a.outcome d = ((boot a.container (a.request d).name).on a.before).1 :=
      outcome_bringUp hpull a.before
    rw [hout, hboot]
    rfl
  | true =>
    obtain ⟨g, -, hout⟩ := outcome_eq_boot hauth (himage hpull)
    have hout : a.outcome d = ((boot a.container (a.request d).name).on g).1 := hout
    rw [hout, hboot]
    rfl

end Attempt

namespace Course

variable {h h' : Host} {res : Except Failure (Table Int)} {done beside : List Attempt}
  {failed : Option Attempt} {a : Attempt} {f : Failure}

theorem isValid_iff (hr : r.Extracted)
    (hcourse : Course d r image limits h h' res done failed beside)
    (ha : a ∈ done ++ failed.toList ++ beside) :
    isValid (a.request d).name = true ↔ WellFormed (a.request d).name := by
  have hlisted : ∀ x ∈ r.deployables, ∃ members, Descriptor.ofMembers members = .ok x.descriptor := by
    intro x hx
    obtain ⟨e, he, hmem⟩ := (Rollout.mem_deployables hx).1
    exact hr e he _ hmem
  have hmain : ∀ b ∈ done ++ failed.toList, b.module ∈ r.deployables := fun b hb ↦
    hcourse.modules.order.subset (List.mem_map_of_mem hb)
  rcases List.mem_append.1 ha with ha | ha
  · rw [(hcourse.of_module ha).1]
    exact isValid_nameFor_iff d (hlisted _ (hmain a ha)) (.inl rfl)
  · obtain ⟨b, hb, hsame⟩ :=
      List.mem_map.1 (List.mem_of_mem_filter (hcourse.once.subset (List.mem_map_of_mem ha)))
    rw [(hcourse.of_sidecar ha).1]
    exact isValid_nameFor_iff d (hlisted _ (hsame ▸ hmain b (List.mem_append_left _ hb))) (.inr rfl)

theorem creations_of (hauth : d.auth.Keeps (Host.Lapse Event.IsLocal))
    (hcourse : Course d r image limits h h' res done failed beside) :
    ∃ made, h'.creations = h.creations ++ made ∧ ∀ q ∈ made,
      ∃ a ∈ done ++ failed.toList ++ beside, a.request d = q ∧ Call.create q ∈ a.calls d := by
  refine ⟨((done ++ failed.toList ++ beside).flatMap (Attempt.calls d)).filterMap Call.create?, ?_,
    fun q hq ↦ ?_⟩
  · rw [Host.creations_eq, Host.creations_eq, hcourse.chain.calls_of (Attempt.calls_after hauth),
      List.filterMap_append]
  · obtain ⟨c, hc, hcreate⟩ := List.mem_filterMap.1 hq
    obtain ⟨a, ha, hca⟩ := List.mem_flatMap.1 hc
    obtain rfl : c = .create q := by
      cases c <;> cases hcreate
      rfl
    exact ⟨a, ha, Attempt.request_of_create hauth hca, hca⟩

theorem error_of_module (hcourse : Course d r image limits h h' res done failed beside)
    (ha : a ∈ done ++ failed.toList) (hdown : a.outcome d = .error f) :
    failed = some a ∧ res = .error f := by
  rcases List.mem_append.1 ha with ha | ha
  · obtain ⟨report, hup⟩ := hcourse.modules.up a ha
    cases hdown.symm.trans hup
  · have hlast : failed = some a := Option.mem_toList.1 ha
    obtain ⟨g, hg, hres⟩ := hcourse.failure a hlast
    obtain rfl := Except.error.inj (hdown.symm.trans hg)
    exact ⟨hlast, hres⟩

theorem error_of_sidecar (hcourse : Course d r image limits h h' res done failed beside)
    (hn : failed = none) (ha : a ∈ beside) {name : String} (hreport : a.report? d = some (name, f)) :
    ∃ failures deployed, res = .error (.deployment failures deployed) ∧ f ∈ failures := by
  obtain ⟨deployed, -, hres⟩ := hcourse.success hn
  have hmem : (name, f) ∈ beside.filterMap (Attempt.report? d) :=
    List.mem_filterMap.2 ⟨a, ha, hreport⟩
  have hsome : (FailureReports.mk (beside.filterMap (Attempt.report? d))).isEmpty = false :=
    List.isEmpty_eq_false_iff_exists_mem.2 ⟨_, hmem⟩
  rw [verdict, hsome] at hres
  refine ⟨_, deployed, hres, List.mem_map.2 ⟨(name, f), ?_, rfl⟩⟩
  exact (FailureReports.sorted_perm _).mem_iff.2 hmem

end Course

/-- Whatever the profile, the prefix, the plans and the faults are: all names that the daemon is asked
to create a container under are well formed. A container whose name is not is never created: once its
turn comes the check fails, for a module as the failure of the deployment, and for a sidecar as one of
the failures that are reported. -/
theorem well_named {raw : Table Value} {k : Host}
    (hregistries : ((Registries.extract raw).on k).1 = .ok r.registries)
    (hauth : d.auth.Keeps (Host.Lapse Event.IsLocal)) (image : String) (limits : Limits) (h : Host) :
    let run := (d.rollOut r image limits).on h
    ∃ done failed beside, Course d r image limits h run.2 run.1 done failed beside ∧
      (∃ made, run.2.creations = h.creations ++ made ∧ ∀ q ∈ made, WellFormed q.name) ∧
      ∀ a ∈ done ++ failed.toList ++ beside, ¬ WellFormed (a.request d).name →
        (∀ q, .create q ∉ a.calls d) ∧
        (a ∈ done ++ failed.toList → failed = some a ∧
          ((∃ f, a.Lacks d f ∧ run.1 = .error f) ∨
            run.1 = .error (.badContainerName (a.request d).name))) ∧
        (a ∈ beside → ∃ f, f = .sidecar a.module.descriptor.sidecarName
            (.badContainerName (a.request d).name) ∧
          a.report? d = some (a.module.descriptor.sidecarName, f) ∧
          (failed = none → ∃ failures deployed,
            run.1 = .error (.deployment failures deployed) ∧ f ∈ failures)) := by
  intro run
  obtain ⟨done, failed, beside, hcourse⟩ := exists_course hauth.spares r image limits h
  have hinvalid : ∀ a ∈ done ++ failed.toList ++ beside, ¬ WellFormed (a.request d).name →
      isValid (a.request d).name = false := by
    intro a ha hname
    rw [← hcourse.isValid_iff (Rollout.extracted_of_extract hregistries) ha] at hname
    exact Bool.eq_false_iff.2 hname
  refine ⟨done, failed, beside, hcourse, ?_, fun a ha hname ↦
    ⟨Attempt.no_create_of_invalid hauth (hinvalid a ha hname), fun hmain ↦ ?_, fun hside ↦ ?_⟩⟩
  · obtain ⟨made, hmade, hall⟩ := hcourse.creations_of hauth
    refine ⟨made, hmade, fun q hq ↦ ?_⟩
    obtain ⟨a, ha, rfl, hcreate⟩ := hall q hq
    by_contra hname
    exact Attempt.no_create_of_invalid hauth (hinvalid a ha hname) _ hcreate
  · by_cases himage : ∃ f, a.Lacks d f
    · obtain ⟨f, hlacks⟩ := himage
      have hdown := (Attempt.outcome_of_lacks hauth (hcourse.of_module hmain).2.2 hlacks).1
      obtain ⟨hlast, hres⟩ := hcourse.error_of_module hmain hdown
      exact ⟨hlast, .inl ⟨f, hlacks, hres⟩⟩
    · have hdown := Attempt.outcome_of_invalid hauth.spares (hinvalid a ha hname) fun _ ↦ himage
      obtain ⟨hlast, hres⟩ := hcourse.error_of_module hmain hdown
      exact ⟨hlast, .inr hres⟩
  · have hdown := Attempt.outcome_of_invalid hauth.spares (hinvalid a ha hname) fun hpull ↦ by
      rw [(hcourse.of_sidecar hside).2.2] at hpull
      cases hpull
    have hkind : a.container.kind = .sidecar := by
      rw [hcourse.own a hside]
      rfl
    have hreport : a.report? d = some (a.module.descriptor.sidecarName,
        .sidecar a.module.descriptor.sidecarName (.badContainerName (a.request d).name)) := by
      rw [Attempt.report?, hkind, hdown]
    exact ⟨_, rfl, hreport, fun hn ↦ hcourse.error_of_sidecar hn hside hreport⟩

def crowded : Deployer := { asking with profile := .ofList (List.replicate 115 'x') }

def crowdedRollout : Rollout := oneListed (.ofList [("mod-a", .standard "mod-a")])

theorem well_named_crowded :
    let run := (crowded.rollOut crowdedRollout "sc" .forSidecars).on .quiet
    ((Registries.extract (listedIn ["folio"])).on .quiet).1 = .ok crowdedRollout.registries ∧
    crowded.auth.Keeps (Host.Lapse Event.IsLocal) ∧
    (run.2.creations.length, run.1.toOption.isNone) = (1, true) ∧
    ∃ done failed beside,
      Course crowded crowdedRollout "sc" .forSidecars .quiet run.2 run.1 done failed beside ∧
      (∃ made, run.2.creations = Host.quiet.creations ++ made ∧ ∀ q ∈ made, WellFormed q.name) ∧
      ∀ a ∈ beside, ¬ WellFormed (a.request crowded).name → ∀ q, .create q ∉ a.calls crowded := by
  have hauth : crowded.auth.Keeps (Host.Lapse Event.IsLocal) :=
    (lapse_record (e := .noted []) trivial).bind fun _ ↦ keeps_pure none
  have hregistries : ((Registries.extract (listedIn ["folio"])).on .quiet).1 =
      .ok crowdedRollout.registries := extract_listedIn (by decide) ordered_leading.1 .quiet
  obtain ⟨done, failed, beside, hcourse, hmade, hnever⟩ :=
    well_named (d := crowded) hregistries hauth "sc" .forSidecars .quiet
  exact ⟨hregistries, hauth, by decide +kernel, done, failed, beside, hcourse, hmade,
    fun a ha hname ↦ (hnever a (List.mem_append_right _ ha) hname).1⟩

end Deployer

end Orchestrator
