import Orchestrator.Proofs.Deployment.Conflicts

namespace Orchestrator

namespace Planner

variable {modules : Table (Option Config.Module)} {managementOnly : Bool}
  {plans own other : Table ModulePlan} {n : String}

def PlansFor (modules : Table (Option Config.Module)) (managementOnly : Bool)
    (plans : Table ModulePlan) : Prop :=
  ∃ p s t, (planAll p modules managementOnly).on s = (.ok plans, t)

def Admits (modules : Table (Option Config.Module)) (n : String) : Prop :=
  ∃ given, modules.get? n = some given ∧ (given.getD .standard).deployModule = true

theorem PlansFor.mem_keys_iff (h : PlansFor modules managementOnly plans) :
    n ∈ plans.keys ↔ n ∈ modules.keys ∧ ModuleName.isManagement n = managementOnly := by
  obtain ⟨p, s, t, h⟩ := h
  obtain ⟨-, hkeys, -⟩ := hands_of_planAll h
  rw [hkeys]
  exact mem_selected

theorem PlansFor.deployed_iff (h : PlansFor modules managementOnly plans)
    (hn : ModuleName.isManagement n = managementOnly) :
    (∃ m, plans.get? n = some m ∧ m.deployModule = true) ↔ Admits modules n := by
  have hkeys : n ∈ plans.keys ↔ n ∈ modules.keys := by
    rw [h.mem_keys_iff]
    exact and_iff_left hn
  obtain ⟨p, s, t, h⟩ := h
  obtain ⟨-, -, hdrawn⟩ := hands_of_planAll h
  have hsame : ∀ m given, plans.get? n = some m → modules.get? n = some given →
      m.deployModule = (given.getD .standard).deployModule := by
    intro m given hm hgiven
    obtain ⟨ports, volumes, hplan⟩ := hdrawn (n, m) (Table.get?_eq_some_iff.1 hm)
    have hplan : m = _ := hplan
    rw [hplan, drawUp, handed, hgiven]
    rfl
  rw [Table.mem_keys_iff, Table.mem_keys_iff] at hkeys
  constructor
  · rintro ⟨m, hm, hd⟩
    obtain ⟨given, hgiven⟩ := hkeys.1 ⟨m, hm⟩
    exact ⟨given, hgiven, hsame m given hm hgiven ▸ hd⟩
  · rintro ⟨given, hgiven, hd⟩
    obtain ⟨m, hm⟩ := hkeys.2 ⟨given, hgiven⟩
    exact ⟨m, hm, hsame m given hm hgiven ▸ hd⟩

/-- What a deployment in one mode may be given: the plans of its mode, or those of both modes, which
of them are set first not counting. -/
inductive Given (modules : Table (Option Config.Module)) (managementOnly : Bool) :
    Table ModulePlan → Prop
  | own {own : Table ModulePlan} : PlansFor modules managementOnly own →
      Given modules managementOnly own
  | before {own other : Table ModulePlan} : PlansFor modules managementOnly own →
      PlansFor modules (!managementOnly) other → Given modules managementOnly (own.merge other)
  | behind {own other : Table ModulePlan} : PlansFor modules managementOnly own →
      PlansFor modules (!managementOnly) other → Given modules managementOnly (other.merge own)

theorem Given.get?_eq (h : Given modules managementOnly plans)
    (hn : ModuleName.isManagement n = managementOnly) :
    ∃ own, PlansFor modules managementOnly own ∧ plans.get? n = own.get? n := by
  -- plans of the other mode have no entry for a name of this one, on whichever side they stand
  have hnone : ∀ other, PlansFor modules (!managementOnly) other → other.get? n = none := by
    intro other hother
    refine Option.eq_none_iff_forall_ne_some.2 fun m hm ↦ ?_
    have hmode := (hother.mem_keys_iff.1 (Table.mem_keys_iff.2 ⟨m, hm⟩)).2
    rw [hn] at hmode
    exact (Bool.eq_not_self _).1 hmode
  cases h with
  | own hown => exact ⟨_, hown, rfl⟩
  | before hown hother => exact ⟨_, hown, by rw [Table.get?_merge, hnone _ hother, Option.none_or]⟩
  | behind hown hother => exact ⟨_, hown, by rw [Table.get?_merge, hnone _ hother, Option.or_none]⟩

end Planner

namespace ContainerName

def start (s : Settings) (profile : String) : String :=
  s.containerPrefix ++ "-" ++ profile ++ "-"

theorem begins_start_iff {s : Settings} {profile name : String} :
    Text.begins (start s profile) (ofName s profile name) = true ↔
      profile.toList ++ ['-'] <+: place profile name := by
  have hstart : (start s profile).toList =
      s.containerPrefix.toList ++ '-' :: (profile.toList ++ ['-']) := by simp [start]
  rw [Text.begins_iff, hstart, toList_ofName, List.prefix_append_right_inj,
    List.prefix_cons_inj]

/-- Of the management containers only those of a profile `mgr` may pass for its own. -/
theorem begins_sidecar_mgr {profile : String} :
    profile.toList ++ ['-'] <+: (ModuleName.sidecar "mgr").toList ↔ profile = "mgr" := by
  have hletters : (ModuleName.sidecar "mgr").toList = ['m', 'g', 'r', '-', 's', 'c'] := by decide
  rw [hletters]
  constructor
  · intro h
    have hle : (profile.toList ++ ['-']).length ≤ 6 := h.length_le
    have htake := List.prefix_iff_eq_take.1 h
    have hlast : (['m', 'g', 'r', '-', 's', 'c'].take (profile.toList ++ ['-']).length).getLast? =
        some '-' := by
      rw [← htake, List.getLast?_concat]
    have hfour := (by decide : ∀ n < 7,
      (['m', 'g', 'r', '-', 's', 'c'].take n).getLast? = some '-' → n = 4) _ (by omega) hlast
    rw [hfour] at htake
    exact String.toList_inj.1 (List.append_cancel_right htake)
  · rintro rfl
    exact ⟨['s', 'c'], rfl⟩

end ContainerName

def Registries.Lists (registries : Registries) (n : String) : Prop :=
  ∃ e ∈ registries.toList, ∃ x ∈ e.2, x.name = n

namespace Rollout

variable {modules : Table (Option Config.Module)} {registries : Registries} {managementOnly : Bool}
  {r : Rollout} {n : String}

structure Of (modules : Table (Option Config.Module)) (registries : Registries)
    (managementOnly : Bool) (r : Rollout) : Prop where
  registries : r.registries = registries
  mode : r.managementOnly = managementOnly
  plans : Planner.Given modules managementOnly r.plans

namespace Of

theorem mem_names_iff (h : r.Of modules registries managementOnly) :
    n ∈ r.deployables.map (·.descriptor.name) ↔ registries.Lists n ∧ Planner.Admits modules n ∧
      ModuleName.isManagement n = managementOnly := by
  constructor
  · intro hn
    obtain ⟨x, hx, rfl⟩ := List.mem_map.1 hn
    obtain ⟨⟨e, he, -, hlisted⟩, hmode, hplan, hd⟩ := mem_deployables_iff.1 hx
    rw [h.registries] at he
    rw [h.mode] at hmode
    obtain ⟨own, hown, hsame⟩ := h.plans.get?_eq hmode
    rw [hsame] at hplan
    exact ⟨⟨e, he, _, hlisted, rfl⟩, (hown.deployed_iff hmode).1 ⟨_, hplan, hd⟩, hmode⟩
  · rintro ⟨⟨e, he, x, hx, rfl⟩, hadmitted, hmode⟩
    obtain ⟨own, hown, hsame⟩ := h.plans.get?_eq hmode
    obtain ⟨m, hm, hd⟩ := (hown.deployed_iff hmode).2 hadmitted
    rw [← hsame] at hm
    rw [← h.registries] at he
    rw [← h.mode] at hmode
    exact List.mem_map.2 ⟨⟨e.1, x, m⟩, mem_deployables_iff.2 ⟨⟨e, he, rfl, hx⟩, hmode, hm, hd⟩, rfl⟩

theorem allowsSidecar (h : r.Of modules registries managementOnly) {x : Deployable}
    (hx : x ∈ r.deployables) (hside : x.plan.deploySidecar = true) :
    Planner.allowsSidecar x.descriptor.name = true := by
  obtain ⟨-, hmode, hplan, -⟩ := mem_deployables_iff.1 hx
  rw [h.mode] at hmode
  obtain ⟨own, ⟨p, s, t, hown⟩, hsame⟩ := h.plans.get?_eq hmode
  rw [hsame, Table.get?_eq_some_iff] at hplan
  exact Planner.allowsSidecar_of_planAll hown _ hplan hside

end Of

end Rollout

namespace Deployer

open ContainerName
open Rollout (Deployable)

variable {modules : Table (Option Config.Module)} {registries : Registries}
  {d d' : Deployer} {r : Rollout} {image : String} {limits : Limits}

theorem keys_of_ok (hauth : d.auth.Spares) {h : Host} {deployed : Table Int}
    (hok : ((d.rollOut r image limits).on h).1 = .ok deployed) :
    deployed.keys = r.deployables.map (·.descriptor.name) := by
  obtain ⟨done, failed, beside, hcourse⟩ := exists_course hauth r image limits h
  rw [hok] at hcourse
  obtain ⟨-, -, hports⟩ := hcourse.of_ok
  rw [Table.keys, ← Table.toList, hports, deployedPorts, List.map_map]
  rfl

theorem requests_management (d : Deployer) (image : String) (limits : Limits)
    (hr : r.Of modules registries true) :
    d.requests r image limits = r.deployables.map (d.moduleRequest r) ∧
      ∀ x ∈ r.deployables, (d.moduleRequest r x).name =
        d.site.settings.containerPrefix ++ "-" ++ x.descriptor.name := by
  have hmode : ∀ x ∈ r.deployables, ModuleName.isManagement x.descriptor.name = true :=
    fun x hx ↦ (Rollout.mem_deployables hx).2.1.trans hr.mode
  have hnone : r.deployables.filter (wantsSidecar image) = [] := by
    rw [List.filter_eq_nil_iff]
    intro x hx hwants
    have hallows := hr.allowsSidecar hx (Bool.and_eq_true_iff.1 hwants).1
    rw [Planner.allowsSidecar, hmode x hx] at hallows
    cases hallows
  refine ⟨by rw [requests, hnone, List.map_nil, List.append_nil], fun x hx ↦ ?_⟩
  exact if_pos (hmode x hx)

/-- In ordinary mode all names that are created begin with the prefix and the profile, but for the
name of the sidecar of a module `mgr`, which does so in a profile of this name only. -/
theorem begins_ordinary (hextracted : r.Extracted) (hr : r.Of modules registries false)
    {q : CreateRequest} (hq : q ∈ d.requests r image limits) :
    Text.begins (start d.site.settings d.profile) q.name = true ↔
      ¬ (d.profile ≠ "mgr" ∧ ∃ x ∈ r.deployables, x.descriptor.name = "mgr" ∧
        q = d.sidecarRequest r image limits x) := by
  have hplain : ∀ name, ¬ ModuleName.isManagement name = true →
      Text.begins (start d.site.settings d.profile) (d.nameFor name) = true := by
    intro name hname
    refine begins_start_iff.2 ?_
    rw [place, if_neg hname]
    exact ⟨name.toList, by simp⟩
  have hmgr : Text.begins (start d.site.settings d.profile)
      (d.nameFor (ModuleName.sidecar "mgr")) = true ↔ d.profile = "mgr" := by
    refine begins_start_iff.trans ?_
    rw [place, if_pos (by decide)]
    exact begins_sidecar_mgr
  constructor
  · rintro hbegins ⟨hprofile, x, hx, hname, rfl⟩
    have hside : (d.sidecarRequest r image limits x).name = d.nameFor (ModuleName.sidecar "mgr") := by
      rw [← hname, ← hextracted.sidecarName hx]
      rfl
    rw [hside] at hbegins
    exact hprofile (hmgr.1 hbegins)
  · intro hnone
    obtain hq | hq := List.mem_append.1 hq
    · obtain ⟨x, hx, rfl⟩ := List.mem_map.1 hq
      refine hplain x.descriptor.name ?_
      rw [(Rollout.mem_deployables hx).2.1, hr.mode]
      exact Bool.false_ne_true
    · obtain ⟨x, hx, rfl⟩ := List.mem_map.1 hq
      have hx := List.mem_of_mem_filter hx
      have hside : (d.sidecarRequest r image limits x).name =
          d.nameFor (ModuleName.sidecar x.descriptor.name) := by
        rw [← hextracted.sidecarName hx]
        rfl
      rw [hside]
      by_cases hname : ModuleName.isManagement (ModuleName.sidecar x.descriptor.name) = true
      · obtain hm | hm := (ModuleName.isManagement_sidecar _).1 hname
        · rw [(Rollout.mem_deployables hx).2.1, hr.mode] at hm
          cases hm
        · rw [hm]
          refine hmgr.2 (by_contra fun hprofile ↦ hnone ⟨hprofile, x, hx, hm, rfl⟩)
      · exact hplain _ hname

theorem created_management (hauth : d.auth.Spares) (hr : r.Of modules registries true) {h : Host}
    {deployed : Table Int} (hok : ((d.rollOut r image limits).on h).1 = .ok deployed) :
    ∃ made : List CreateRequest,
      ((d.rollOut r image limits).on h).2.daemon.containers =
        h.daemon.containers ++ made.map CreateRequest.container ∧
      (made.map (·.name)).Perm (r.deployables.map fun x ↦
        d.site.settings.containerPrefix ++ "-" ++ x.descriptor.name) ∧
      ∀ q ∈ made, q.labels.get? "mdo.kind" = some ContainerKind.module.text := by
  obtain ⟨made, hperm, hmade⟩ := created_of_ok hauth hok
  obtain ⟨hrequests, hnames⟩ := requests_management d image limits hr
  rw [hrequests] at hperm
  refine ⟨made, hmade, ?_, fun q hq ↦ ?_⟩
  · have hsame := hperm.map (·.name)
    rw [List.map_map] at hsame
    exact hsame.trans (.of_eq (List.map_congr_left hnames))
  · obtain ⟨x, -, rfl⟩ := List.mem_map.1 (hperm.subset hq)
    rfl

/-- The modules that are deployed in the two modes are different ones and, together, those that a
registry lists and the configuration lets be deployed, whether a mode is given its own plans or those
of both. In management mode the names of the containers are the same in all profiles, and none is of
a sidecar. In ordinary mode they begin with the prefix and the profile, but for the sidecar of a
module `mgr` in another profile. -/
theorem modes_partition {raw : Table Value} {k : Host}
    (hregistries : ((Registries.extract raw).on k).1 = .ok registries) {m : Rollout}
    (hr : r.Of modules registries false) (hm : m.Of modules registries true)
    (hauth : d.auth.Spares) (hauth' : d'.auth.Spares) {image' : String} {limits' : Limits}
    {h h' : Host} {deployed deployed' : Table Int}
    (hok : ((d.rollOut r image limits).on h).1 = .ok deployed)
    (hok' : ((d'.rollOut m image' limits').on h').1 = .ok deployed') :
    (∀ n ∈ deployed.keys, n ∉ deployed'.keys) ∧
    (∀ n, n ∈ deployed.keys ∨ n ∈ deployed'.keys ↔ registries.Lists n ∧ Planner.Admits modules n) ∧
    (∀ profile image limits g t,
      (({ d' with profile := profile }.rollOut m image limits).on g).1 = .ok t →
      ∃ made : List CreateRequest,
        (({ d' with profile := profile }.rollOut m image limits).on g).2.daemon.containers =
          g.daemon.containers ++ made.map CreateRequest.container ∧
        (made.map (·.name)).Perm
          (deployed'.keys.map fun n ↦ d'.site.settings.containerPrefix ++ "-" ++ n) ∧
        ∀ q ∈ made, q.labels.get? "mdo.kind" = some ContainerKind.module.text) ∧
    ∃ made : List CreateRequest,
      ((d.rollOut r image limits).on h).2.daemon.containers =
        h.daemon.containers ++ made.map CreateRequest.container ∧
      ∀ q ∈ made, Text.begins (start d.site.settings d.profile) q.name = true ↔
        ¬ (d.profile ≠ "mgr" ∧ ∃ x ∈ r.deployables, x.descriptor.name = "mgr" ∧
          q = d.sidecarRequest r image limits x) := by
  have hkeys := keys_of_ok hauth hok
  have hkeys' := keys_of_ok hauth' hok'
  refine ⟨fun n hn hn' ↦ ?_, fun n ↦ ?_, fun profile image limits g t hrun ↦ ?_, ?_⟩
  · rw [hkeys, hr.mem_names_iff] at hn
    rw [hkeys', hm.mem_names_iff] at hn'
    have hmode := hn.2.2
    rw [hn'.2.2] at hmode
    cases hmode
  · rw [hkeys, hkeys', hr.mem_names_iff, hm.mem_names_iff]
    cases ModuleName.isManagement n <;> simp
  · rw [hkeys', List.map_map]
    exact created_management (d := { d' with profile := profile }) hauth' hm hrun
  · obtain ⟨made, hperm, hmade⟩ := created_of_ok hauth hok
    have hextracted : r.Extracted :=
      Rollout.extracted_of_extract (hr.registries ▸ hregistries)
    exact ⟨made, hmade, fun q hq ↦ begins_ordinary hextracted hr (hperm.subset hq)⟩

def bothModes : Table (Option Config.Module) := .ofList [("mgr", none), ("mgr-tenants", none)]

def bothListed : List (String × Descriptor) :=
  [("folio", ⟨"mgr-1.0.0", "mgr", "1.0.0", "mgr-sc", "enable"⟩),
    ("eureka", ⟨"mgr-tenants-1.0.0", "mgr-tenants", "1.0.0", "mgr-tenants-sc", "enable"⟩)]

def readyPlanner : Planner := ⟨.unset, fun _ ↦ pure true, fun _ ↦ pure true⟩

theorem extract_bothListed : ((Registries.extract (listedEach bothListed)).on .quiet).1 =
    .ok (.ofList (bothListed.map fun e ↦ (e.1, [e.2]))) := by
  have hread : ∀ e ∈ bothListed, e.2.id ≠ "okapi" ∧
      Descriptor.ofMembers [(.text "id", .text e.2.id)] = .ok e.2 := by
    simp only [bothListed, List.forall_mem_cons]
    exact ⟨⟨by decide, rfl⟩, ⟨by decide, rfl⟩, by simp⟩
  exact extract_listedEach bothListed (by decide) ordered_leading.2 hread .quiet

theorem selected_bothModes : Planner.selected bothModes false = ["mgr"] ∧
    Planner.selected bothModes true = ["mgr-tenants"] := by
  have hkeys : bothModes.keys = ["mgr", "mgr-tenants"] := rfl
  constructor
  all_goals
    refine Planner.selected_eq (List.pairwise_singleton _ _) ?_
    rw [hkeys]
    decide +kernel

theorem exists_ok_of_map {α β : Type} {x : Except Failure α} {f : α → β} {b : β}
    (h : x.toOption.map f = some b) : ∃ a, x = .ok a ∧ f a = b := by
  cases x with
  | error _ => cases h
  | ok a => exact ⟨a, rfl, Option.some.inj h⟩

theorem rollOut_bothModes : ∃ plans plans' s t,
    (readyPlanner.planAll bothModes false).on ⟨tenPorts, .quiet⟩ = (.ok plans, s) ∧
    (readyPlanner.planAll bothModes true).on ⟨tenPorts, .quiet⟩ = (.ok plans', t) ∧
    let registries : Registries := .ofList (bothListed.map fun e ↦ (e.1, [e.2]))
    let run := (withoutCredentials.rollOut (.ordinary registries plans ∅ ∅ "") "sc"
      .forSidecars).on .quiet
    let run' := (withoutCredentials.rollOut (.management registries plans' ∅ "") "sc"
      .forSidecars).on .quiet
    (∃ deployed, run.1 = .ok deployed ∧ deployed.keys = ["mgr"]) ∧
    (∃ deployed, run'.1 = .ok deployed ∧ deployed.keys = ["mgr-tenants"]) ∧
    run.2.daemon.containers.map (·.name) = ["eureka-combined-mgr", "eureka-mgr-sc"] := by
  rw [Planner.planAll, Planner.planAll, selected_bothModes.1, selected_bothModes.2]
  exact ⟨_, _, _, _, rfl, rfl, exists_ok_of_map (by decide +kernel),
    exists_ok_of_map (by decide +kernel), by decide +kernel⟩

theorem modes_partition_both : ∃ registries plans plans' deployed deployed',
    ((Registries.extract (listedEach bothListed)).on .quiet).1 = .ok registries ∧
    Planner.PlansFor bothModes false plans ∧ Planner.PlansFor bothModes true plans' ∧
    withoutCredentials.auth.Spares ∧
    ((withoutCredentials.rollOut (.ordinary registries plans ∅ ∅ "") "sc" .forSidecars).on
      .quiet).1 = .ok deployed ∧
    ((withoutCredentials.rollOut (.management registries plans' ∅ "") "sc" .forSidecars).on
      .quiet).1 = .ok deployed' ∧
    (deployed.keys, deployed'.keys) = (["mgr"], ["mgr-tenants"]) ∧
    ∀ n, n ∈ deployed.keys ∨ n ∈ deployed'.keys ↔
      registries.Lists n ∧ Planner.Admits bothModes n := by
  obtain ⟨plans, plans', s, t, hplans, hplans', ⟨deployed, hok, hkeys⟩, ⟨deployed', hok', hkeys'⟩,
    -⟩ := rollOut_bothModes
  have hauth : withoutCredentials.auth.Spares := Act.spares_pure none
  have hown : Planner.PlansFor bothModes false plans := ⟨_, _, _, hplans⟩
  have hown' : Planner.PlansFor bothModes true plans' := ⟨_, _, _, hplans'⟩
  obtain ⟨-, hall, -⟩ := modes_partition extract_bothListed
    (r := .ordinary _ plans ∅ ∅ "") ⟨rfl, rfl, .own hown⟩
    (m := .management _ plans' ∅ "") ⟨rfl, rfl, .own hown'⟩ hauth hauth hok hok'
  exact ⟨_, plans, plans', deployed, deployed', extract_bothListed, hown, hown', hauth, hok, hok',
    by rw [hkeys, hkeys'], hall⟩

/-- Both modes succeed, and yet the ordinary one creates a container whose name does not begin as
those of its profile do. -/
theorem mgr_sidecar_elsewhere : ∃ registries plans plans',
    ((Registries.extract (listedEach bothListed)).on .quiet).1 = .ok registries ∧
    Planner.PlansFor bothModes false plans ∧ Planner.PlansFor bothModes true plans' ∧
    let run := (withoutCredentials.rollOut (.ordinary registries plans ∅ ∅ "") "sc"
      .forSidecars).on .quiet
    let run' := (withoutCredentials.rollOut (.management registries plans' ∅ "") "sc"
      .forSidecars).on .quiet
    (∃ deployed, run.1 = .ok deployed) ∧ (∃ deployed, run'.1 = .ok deployed) ∧
    Host.quiet.daemon.containers = [] ∧ ∃ c ∈ run.2.daemon.containers,
      Text.begins (start withoutCredentials.site.settings withoutCredentials.profile) c.name =
        false := by
  obtain ⟨plans, plans', s, t, hplans, hplans', ⟨deployed, hok, -⟩, ⟨deployed', hok', -⟩, hnames⟩ :=
    rollOut_bothModes
  refine ⟨_, plans, plans', extract_bothListed, ⟨_, _, _, hplans⟩, ⟨_, _, _, hplans'⟩,
    ⟨deployed, hok⟩, ⟨deployed', hok'⟩, rfl, ?_⟩
  have hmem : "eureka-mgr-sc" ∈ ["eureka-combined-mgr", "eureka-mgr-sc"] := by simp
  rw [← hnames] at hmem
  obtain ⟨c, hc, hname⟩ := List.mem_map.1 hmem
  exact ⟨c, hc, by rw [hname]; decide⟩

end Deployer

end Orchestrator
