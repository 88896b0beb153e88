import Orchestrator.Proofs.Cutting
import Orchestrator.Proofs.Identifiers
import Orchestrator.Proofs.Paths
import Orchestrator.Proofs.Planner.Resolved

namespace Orchestrator

open Act

/-- Surroundings in which no colon gets into a path: neither a home directory nor the directory of
work has one, nor has the placeholder, and the directory of work is given in full. -/
structure Site.Plain (site : Site) : Prop where
  placeholder : ':' ∉ site.settings.volumePlaceholder.toList
  homeDir : ':' ∉ site.settings.homeDir.toList
  homes : ∀ user home, site.homeOf user = some home → ':' ∉ home.toList
  workingDir : ':' ∉ site.workingDir.toList
  rooted : Path.isAbsolute site.workingDir.toList = true

namespace Volume

variable {site : Site} {pathExists : String → Act Bool} {module volume : String}
variable {host rest : List Char} {h g : Host} {f : Failure}

def filled (s : Settings) (part : String) : List Char :=
  Text.replaceAll s.volumePlaceholder.toList s.homeDir.toList part.toList

/-- One letter before a colon with a slash or a backslash behind it is the letter of a drive. -/
def IsDrive (host rest : List Char) : Prop :=
  ∃ c s r, host = [c] ∧ c.isAlpha = true ∧ rest = s :: r ∧ (s = '/' ∨ s = '\\')

theorem hasDrive_iff (h : ':' ∉ host) :
    hasDrive (host ++ ':' :: rest) = true ↔ IsDrive host rest := by
  have hletter : ∀ c : Char, (('a' ≤ c && c ≤ 'z') || ('A' ≤ c && c ≤ 'Z')) = c.isAlpha := by
    intro c
    have hlower : (decide ('a' ≤ c) && decide (c ≤ 'z')) = c.isLower := rfl
    rw [hlower, ← ModuleId.isUpper_eq, Bool.or_comm]
    rfl
  have hmark : ∀ s : Char, (s == '\\' || s == '/') = true ↔ s = '/' ∨ s = '\\' := by
    intro s
    rw [Bool.or_eq_true, beq_iff_eq, beq_iff_eq, or_comm]
  constructor
  · intro hdrive
    unfold hasDrive at hdrive
    split at hdrive
    · next c s r heq =>
      rw [Bool.and_eq_true, hletter, hmark] at hdrive
      cases host with
      | nil =>
        obtain ⟨rfl, -⟩ := List.cons.inj heq
        exact absurd hdrive.1 (by decide)
      | cons d host =>
        obtain ⟨rfl, htail⟩ := List.cons.inj heq
        cases host with
        | nil => exact ⟨d, s, r, rfl, hdrive.1, (List.cons.inj htail).2, hdrive.2⟩
        | cons e host =>
          obtain ⟨rfl, -⟩ := List.cons.inj htail
          simp at h
    · cases hdrive
  · rintro ⟨c, s, r, rfl, hc, rfl, hs⟩
    change ((('a' ≤ c && c ≤ 'z') || ('A' ≤ c && c ≤ 'Z')) && (s == '\\' || s == '/')) = true
    rw [hletter, hc, Bool.true_and]
    exact (hmark s).2 hs

theorem split_append (h : ':' ∉ host) (hdrive : ¬ IsDrive host rest) :
    split (host ++ ':' :: rest) = (host, ':' :: rest) := by
  rw [split, if_neg fun hd ↦ hdrive ((hasDrive_iff h).1 hd), Text.cutAt_append h]

/-- The colon of a drive separates nothing, so such a volume is cut at the next one. -/
theorem split_drive (hdrive : IsDrive host rest) : split (host ++ ':' :: rest) =
    (host ++ ':' :: (Text.cutAt ':' rest).1, (Text.cutAt ':' rest).2) := by
  obtain ⟨c, s, r, rfl, hc, rfl, hs⟩ := hdrive
  have hcolon : ':' ∉ [c] := by
    rw [List.mem_singleton]
    rintro rfl
    exact absurd hc (by decide)
  rw [split, if_pos ((hasDrive_iff hcolon).2 ⟨c, s, r, rfl, hc, rfl, hs⟩)]
  rfl

section Plain

variable (hsite : site.Plain)
include hsite

theorem fill_append (host rest : String) : fill site.settings (host ++ ":" ++ rest) =
    filled site.settings host ++ ':' :: filled site.settings rest := by
  have htext : (host ++ ":" ++ rest).toList = host.toList ++ ':' :: rest.toList := by simp
  rw [fill, htext, Text.replaceAll_cut hsite.placeholder]
  rfl

theorem colon_not_mem_filled {part : String} (h : ':' ∉ part.toList) :
    ':' ∉ filled site.settings part := Text.not_mem_replaceAll hsite.homeDir h

theorem colon_not_mem_hostPath (h : ':' ∉ host) : ':' ∉ hostPath site host := by
  apply Path.not_mem_normalize (by decide) (by decide)
  apply Path.not_mem_join (by decide) hsite.workingDir
  exact Path.not_mem_expandHome (by decide) hsite.homes h

end Plain

inductive Finds (pathExists : String → Act Bool) : Host → List String → Host → Prop
  | nil (h : Host) : Finds pathExists h [] h
  | cons {h k g : Host} {path : String} {paths : List String} :
      (pathExists path).on h = (.ok true, k) → Finds pathExists k paths g →
      Finds pathExists h (path :: paths) g

/-- A path is looked for in vain: it is not there, which the module is told, or the look fails. -/
inductive Misses (pathExists : String → Act Bool) (module path : String) :
    Host → Failure → Host → Prop
  | absent {h g : Host} : (pathExists path).on h = (.ok false, g) →
      Misses pathExists module path h (.missingVolume module path) g
  | failed {h g : Host} {f : Failure} : (pathExists path).on h = (.error f, g) →
      Misses pathExists module path h f g

theorem on_resolve (module volume : String) (h : Host) :
    (resolve site pathExists module volume).on h =
      match (pathExists (place site volume)).on h with
        | (.ok true, g) => (.ok (resolved site volume), g)
        | (.ok false, g) => (.error (.missingVolume module (place site volume)), g)
        | (.error f, g) => (.error f, g) := by
  have hact : resolve site pathExists module volume = (do
      if ← pathExists (place site volume) then return resolved site volume
      throw (.missingVolume module (place site volume))) := rfl
  rw [hact, on_bind]
  rcases (pathExists (place site volume)).on h with ⟨e | found, g⟩
  · rfl
  · cases found <;> rfl

theorem on_resolveAll_cons (module volume : String) (volumes : List String) (h : Host) :
    (resolveAll site pathExists module (volume :: volumes)).on h =
      match (pathExists (place site volume)).on h with
        | (.ok true, g) => match (resolveAll site pathExists module volumes).on g with
          | (.ok rs, k) => (.ok (resolved site volume :: rs), k)
          | (.error f, k) => (.error f, k)
        | (.ok false, g) => (.error (.missingVolume module (place site volume)), g)
        | (.error f, g) => (.error f, g) := by
  rw [resolveAll, on_bind, on_resolve]
  rcases (pathExists (place site volume)).on h with ⟨e | found, g⟩
  · rfl
  · cases found with
    | false => rfl
    | true =>
      dsimp only
      rw [on_bind]
      rcases (resolveAll site pathExists module volumes).on g with ⟨e | rs, k⟩ <;> rfl

theorem resolveAll_ok_iff {volumes rs : List String} :
    (resolveAll site pathExists module volumes).on h = (.ok rs, g) ↔
      Finds pathExists h (volumes.map (place site)) g ∧ rs = volumes.map (resolved site) := by
  induction volumes generalizing h rs with
  | nil =>
    constructor
    · intro hrun
      cases hrun
      exact ⟨.nil _, rfl⟩
    · rintro ⟨hfinds, rfl⟩
      cases hfinds
      rfl
  | cons v vs ih =>
    rw [on_resolveAll_cons]
    constructor
    · intro hrun
      split at hrun
      · next k hlook =>
        split at hrun
        · next rest g' hrest =>
          cases hrun
          obtain ⟨hfinds, rfl⟩ := ih.1 hrest
          exact ⟨.cons hlook hfinds, rfl⟩
        · cases hrun
      · cases hrun
      · cases hrun
    · rintro ⟨hfinds, rfl⟩
      cases hfinds with
      | cons hlook hfinds =>
        rw [hlook]
        dsimp only
        rw [ih.2 ⟨hfinds, rfl⟩]
        rfl

theorem resolveAll_error_iff {volumes : List String} :
    (resolveAll site pathExists module volumes).on h = (.error f, g) ↔
      ∃ before v after k, volumes = before ++ v :: after ∧
        Finds pathExists h (before.map (place site)) k ∧
        Misses pathExists module (place site v) k f g := by
  induction volumes generalizing h with
  | nil =>
    constructor
    · intro hrun
      cases hrun
    · rintro ⟨before, v, after, k, hsplit, -⟩
      simp at hsplit
  | cons v vs ih =>
    rw [on_resolveAll_cons]
    constructor
    · intro hrun
      split at hrun
      · next k hlook =>
        split at hrun
        · cases hrun
        · next e k' hrest =>
          cases hrun
          obtain ⟨before, w, after, k₁, rfl, hfinds, hmiss⟩ := ih.1 hrest
          exact ⟨v :: before, w, after, k₁, rfl, .cons hlook hfinds, hmiss⟩
      · next k hlook =>
        cases hrun
        exact ⟨[], v, vs, _, rfl, .nil _, .absent hlook⟩
      · next e k hlook =>
        cases hrun
        exact ⟨[], v, vs, _, rfl, .nil _, .failed hlook⟩
    · rintro ⟨before, w, after, k, hsplit, hfinds, hmiss⟩
      cases before with
      | nil =>
        obtain ⟨rfl, rfl⟩ := List.cons.inj hsplit
        cases hfinds
        cases hmiss with
        | absent hlook => rw [hlook]
        | failed hlook => rw [hlook]
      | cons u before =>
        obtain ⟨rfl, rfl⟩ := List.cons.inj hsplit
        cases hfinds with
        | cons hlook hfinds =>
          rw [hlook]
          dsimp only
          rw [ih.2 ⟨before, w, after, k, rfl, hfinds, hmiss⟩]

/-- The places on the host are looked for in order, each must be there, and the first that is not
ends it. What the daemon gets of a volume that names a place without a colon, and no drive, is the
path that was looked for and, from the first colon on, the rest of the volume: the path is given in
full, no part of it leads back, and the daemon cuts it off as it is. Behind the letter of a drive
the place goes on to the next colon. -/
theorem mounted_as_checked (hsite : site.Plain) (pathExists : String → Act Bool)
    (module : String) (volumes : List String) (h : Host) :
    (∀ rs g, (resolveAll site pathExists module volumes).on h = (.ok rs, g) ↔
      Finds pathExists h (volumes.map (place site)) g ∧ rs = volumes.map (resolved site)) ∧
    (∀ f g, (resolveAll site pathExists module volumes).on h = (.error f, g) ↔
      ∃ before v after k, volumes = before ++ v :: after ∧
        Finds pathExists h (before.map (place site)) k ∧
        Misses pathExists module (place site v) k f g) ∧
    (∀ host rest : String, ':' ∉ host.toList →
      ¬ IsDrive (filled site.settings host) (filled site.settings rest) →
      let volume := host ++ ":" ++ rest
      let path := hostPath site (filled site.settings host)
      place site volume = .ofList path ∧ Path.IsNormal path ∧ ':' ∉ path ∧
        (resolved site volume).toList = path ++ ':' :: filled site.settings rest ∧
        Text.cutAt ':' (resolved site volume).toList = (path, ':' :: filled site.settings rest)) ∧
    ∀ host rest : String, IsDrive (filled site.settings host) (filled site.settings rest) →
      let volume := host ++ ":" ++ rest
      let next := Text.cutAt ':' (filled site.settings rest)
      let path := hostPath site (filled site.settings host ++ ':' :: next.1)
      place site volume = .ofList path ∧ (resolved site volume).toList = path ++ next.2 := by
  refine ⟨fun _ _ ↦ resolveAll_ok_iff, fun _ _ ↦ resolveAll_error_iff, ?_, ?_⟩
  · intro host rest hhost hdrive volume path
    have hfilled := colon_not_mem_filled hsite hhost
    have hsplit : split (fill site.settings volume) =
        (filled site.settings host, ':' :: filled site.settings rest) := by
      rw [fill_append hsite, split_append hfilled hdrive]
    have hcolon : ':' ∉ path := colon_not_mem_hostPath hsite hfilled
    have hresolved : (resolved site volume).toList = path ++ ':' :: filled site.settings rest := by
      rw [resolved, hsplit, String.toList_ofList]
    refine ⟨?_, Path.isNormal_absolute hsite.rooted _, hcolon, hresolved, ?_⟩
    · rw [place, hsplit]
    · rw [hresolved, Text.cutAt_append hcolon]
  · intro host rest hdrive volume next path
    have hsplit : split (fill site.settings volume) =
        (filled site.settings host ++ ':' :: next.1, next.2) := by
      rw [fill_append hsite, split_drive hdrive]
    refine ⟨?_, ?_⟩
    · rw [place, hsplit]
    · rw [resolved, hsplit, String.toList_ofList]

def housed : Site :=
  { Site.unset with
    homeOf := fun user ↦ if user = "" then some "/home/t" else none
    workingDir := "/work/dir" }

theorem plain_housed : housed.Plain where
  placeholder := by decide
  homeDir := by decide +kernel
  homes := by
    intro user home hhome
    have hhome : (if user = "" then some "/home/t" else none) = some home := hhome
    split at hhome
    · obtain rfl := Option.some.inj hhome
      decide
    · cases hhome
  workingDir := by decide
  rooted := by decide

theorem mounted_as_checked_housed :
    housed.Plain ∧
    ((resolveAll housed lookFor "mod-a" ["../x/./data:/opt:ro", "~/y:/z", "w:v"]).on
      { Host.quiet with isPresent := (· != "/home/t/y") }).1 =
        .error (.missingVolume "mod-a" "/home/t/y") ∧
    (':' ∉ "../x/./data".toList ∧
      ¬ IsDrive (filled housed.settings "../x/./data") (filled housed.settings "/opt:ro")) ∧
    (resolved housed ("../x/./data" ++ ":" ++ "/opt:ro")).toList =
      "/work/x/data".toList ++ ':' :: "/opt:ro".toList := by
  have hdrive : ¬ IsDrive (filled housed.settings "../x/./data")
      (filled housed.settings "/opt:ro") := by
    rintro ⟨c, s, r, hletter, -⟩
    have hlong : (filled housed.settings "../x/./data").length ≠ 1 := by decide +kernel
    exact hlong (congrArg List.length hletter)
  obtain ⟨-, herror, hform, -⟩ := mounted_as_checked plain_housed lookFor "mod-a"
    ["../x/./data:/opt:ro", "~/y:/z", "w:v"]
    { Host.quiet with isPresent := (· != "/home/t/y") }
  have hrun := (herror (.missingVolume "mod-a" "/home/t/y") _).2
    ⟨["../x/./data:/opt:ro"], "~/y:/z", ["w:v"], _, rfl, .cons rfl (.nil _), .absent rfl⟩
  obtain ⟨-, -, -, hresolved, -⟩ := hform "../x/./data" "/opt:ro" (by decide) hdrive
  exact ⟨plain_housed, congrArg Prod.fst hrun, ⟨by decide, hdrive⟩, hresolved⟩

/-- A place of one letter is there, but with a slash behind its colon it is taken for a drive, and
another path is looked for. -/
theorem letter_taken_for_drive :
    let h : Host := { Host.quiet with isPresent := (· == "/work/dir/a") }
    housed.Plain ∧ ':' ∉ "a".toList ∧
    (.ofList (hostPath housed (filled housed.settings "a")) = "/work/dir/a" ∧
      h.isPresent "/work/dir/a" = true) ∧
    ((resolveAll housed lookFor "mod-a" ["a" ++ ":" ++ "/data"]).on h).1 =
      .error (.missingVolume "mod-a" "/work/dir/a:/data") := by
  refine ⟨plain_housed, by decide, ⟨by decide +kernel, by decide⟩, ?_⟩
  rfl

end Volume

end Orchestrator
