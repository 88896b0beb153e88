import Orchestrator.Image
import Orchestrator.Proofs.Cutting
import Orchestrator.Proofs.Naming
import Orchestrator.Proofs.Identifiers

namespace Orchestrator

namespace ModuleId

def marks : List Char := ['@', ':', '/']

theorem IsName.unmarked {name : String} (h : IsName name) : ∀ c ∈ marks, c ∉ name.toList := by
  obtain ⟨d, r, hname, hd, hr⟩ := h
  have hfirst : ∀ c ∈ marks, c.isLower = false := List.forall_iff_forall_mem.1 (by decide)
  have hinner : ∀ c ∈ marks, c.isDigit = false ∧ c ∉ ['_', '-'] :=
    List.forall_iff_forall_mem.1 (by decide)
  intro c hc hmem
  rw [hname] at hmem
  rcases List.mem_cons.1 hmem with rfl | hmem
  · simp [hfirst c hc] at hd
  · rcases hr c hmem with hlower | hdigit | hsign
    · simp [hfirst c hc] at hlower
    · simp [(hinner c hc).1] at hdigit
    · exact (hinner c hc).2 hsign

theorem IsVersion.unmarked {version : String} (h : IsVersion version) :
    ∀ c ∈ marks, c ∉ version.toList := by
  obtain ⟨d, r, hversion, hd, hr⟩ := h
  have hfirst : ∀ c ∈ marks, Text.isDecimalDigit c = false :=
    List.forall_iff_forall_mem.1 (by decide)
  have hinner : ∀ c ∈ marks, c.isAlphanum = false ∧ c ∉ ['_', '-', '.', '+'] :=
    List.forall_iff_forall_mem.1 (by decide)
  intro c hc hmem
  rw [hversion] at hmem
  rcases List.mem_cons.1 hmem with rfl | hmem
  · simp [hfirst c hc] at hd
  · rcases hr c hmem with halphanum | hsign
    · simp [(hinner c hc).1] at halphanum
    · exact (hinner c hc).2 hsign

theorem IsVersion.ne_empty {version : String} (h : IsVersion version) : version ≠ "" := by
  rintro rfl
  obtain ⟨d, r, hversion, -⟩ := h
  cases hversion

end ModuleId

namespace Descriptor

open ModuleId

variable {members : List (Value × Value)} {x : Descriptor}

theorem Describes.reads (h : Describes members x) :
    Reads (Text.trim x.id) ⟨x.name, x.version⟩ := (parse_ok_iff.1 h.parsed).1

theorem isName_of_ofMembers (h : ofMembers members = .ok x) : IsName x.name :=
  (ofMembers_ok_iff.1 h).reads.name

theorem isVersion_of_ofMembers (h : ofMembers members = .ok x) : IsVersion x.version :=
  (ofMembers_ok_iff.1 h).reads.version

end Descriptor

namespace Image

open Text ModuleId

variable {image repository ns version : String} {tag : Option String}

/-- How the daemon takes the name of an image apart, into the repository and, where there is one,
the tag: at the last at-sign, else at the last colon, unless that one ends a registry's host. -/
inductive Splits : String → String → Option String → Prop
  | digest {repository digest : String} : '@' ∉ digest.toList →
      Splits (repository ++ "@" ++ digest) repository (some digest)
  | tag {repository tag : String} : '@' ∉ (repository ++ ":" ++ tag).toList → ':' ∉ tag.toList →
      '/' ∉ tag.toList → Splits (repository ++ ":" ++ tag) repository (some tag)
  | port {repository rest : String} : '@' ∉ (repository ++ ":" ++ rest).toList → ':' ∉ rest.toList →
      '/' ∈ rest.toList → Splits (repository ++ ":" ++ rest) (repository ++ ":" ++ rest) none
  | bare {image : String} : '@' ∉ image.toList → ':' ∉ image.toList → Splits image image none

theorem toList_at (a b : String) : (a ++ "@" ++ b).toList = a.toList ++ '@' :: b.toList := by
  simp

theorem toList_colon (a b : String) : (a ++ ":" ++ b).toList = a.toList ++ ':' :: b.toList := by
  simp

theorem joined_of_toList {a b : List Char} :
    (image.toList = a ++ '@' :: b → image = .ofList a ++ "@" ++ .ofList b) ∧
      (image.toList = a ++ ':' :: b → image = .ofList a ++ ":" ++ .ofList b) := by
  constructor <;> intro h <;> rw [← String.toList_inj, h]
  · rw [toList_at, String.toList_ofList, String.toList_ofList]
  · rw [toList_colon, String.toList_ofList, String.toList_ofList]

theorem split_of_splits (h : Splits image repository tag) : split image = (repository, tag) := by
  unfold split
  cases h with
  | digest hdigest =>
    rw [toList_at, cutLast?_append hdigest]
    simp
  | tag hat hcolon hslash =>
    rw [cutLast?_eq_none_iff.2 hat, toList_colon, cutLast?_append hcolon]
    simp [hslash]
  | port hat hcolon hslash =>
    rw [cutLast?_eq_none_iff.2 hat, toList_colon, cutLast?_append hcolon]
    simp [hslash]
  | bare hat hcolon => rw [cutLast?_eq_none_iff.2 hat, cutLast?_eq_none_iff.2 hcolon]

theorem splits_split (image : String) : Splits image (split image).1 (split image).2 := by
  unfold split
  split
  · next a b hat =>
    obtain ⟨himage, hb⟩ := joined_of_cutLast? hat
    rw [joined_of_toList.1 himage]
    exact .digest (by simpa using hb)
  · next hat =>
    rw [cutLast?_eq_none_iff] at hat
    split
    · next a b hcolon =>
      obtain ⟨himage, hb⟩ := joined_of_cutLast? hcolon
      have himage := joined_of_toList.2 himage
      rw [himage] at hat ⊢
      by_cases hslash : '/' ∈ b
      · simp only [List.contains_eq_mem, hslash, decide_true, if_true]
        exact .port hat (by simpa using hb) (by simpa using hslash)
      · simp only [List.contains_eq_mem, hslash, decide_false, Bool.false_eq_true, if_false]
        exact .tag hat (by simpa using hb) (by simpa using hslash)
    · next hcolon => exact .bare hat (cutLast?_eq_none_iff.1 hcolon)

/-- A name is taken apart in one way only. -/
theorem split_eq_iff : split image = (repository, tag) ↔ Splits image repository tag := by
  constructor
  · intro h
    have hsplits := splits_split image
    rwa [h] at hsplits
  · exact split_of_splits

inductive InNameSpace (site : Site) (version : String) : String → Prop
  | own {ns : String} : site.env.get? site.settings.privateNamespaceVariable = some ns → ns ≠ "" →
      InNameSpace site version ns
  | snapshot : (∀ ns, site.env.get? site.settings.privateNamespaceVariable = some ns → ns = "") →
      "SNAPSHOT".toList <:+: version.toList →
      InNameSpace site version site.settings.snapshotNamespace
  | release : (∀ ns, site.env.get? site.settings.privateNamespaceVariable = some ns → ns = "") →
      ¬ "SNAPSHOT".toList <:+: version.toList →
      InNameSpace site version site.settings.releaseNamespace

theorem inNameSpace_nameSpace (site : Site) (version : String) :
    InNameSpace site version (nameSpace site version) := by
  unfold nameSpace
  cases hown : site.privateNamespace with
  | some ns =>
    obtain ⟨hns, hset⟩ := Option.filter_eq_some_iff.1 hown
    exact .own hns (by simpa using hset)
  | none =>
    have hnone : ∀ ns,
        site.env.get? site.settings.privateNamespaceVariable = some ns → ns = "" := by
      intro ns hns
      simpa [Site.privateNamespace, hns] using hown
    by_cases h : "SNAPSHOT".toList <:+: version.toList
    · simp only [occursIn_iff.2 h, if_true]
      exact .snapshot hnone h
    · have hoccurs : occursIn "SNAPSHOT".toList version.toList = false := by
        rwa [← Bool.not_eq_true, occursIn_iff]
      simp only [hoccurs, Bool.false_eq_true, if_false]
      exact .release hnone h

theorem InNameSpace.unique {site : Site} {ns' : String} (h : InNameSpace site version ns)
    (h' : InNameSpace site version ns') : ns = ns' := by
  cases h with
  | own hns hset =>
    cases h' with
    | own hns' => exact Option.some.inj (hns.symm.trans hns')
    | snapshot hnone | release hnone => exact absurd (hnone _ hns) hset
  | snapshot hnone hin =>
    cases h' with
    | own hns' hset' => exact absurd (hnone _ hns') hset'
    | snapshot => rfl
    | release _ hnot => exact absurd hin hnot
  | release hnone hnot =>
    cases h' with
    | own hns' hset' => exact absurd (hnone _ hns') hset'
    | snapshot _ hin => exact absurd hin hnot
    | release => rfl

theorem nameSpace_eq_iff {site : Site} :
    nameSpace site version = ns ↔ InNameSpace site version ns := by
  constructor
  · rintro rfl
    exact inNameSpace_nameSpace site version
  · exact (inNameSpace_nameSpace site version).unique

/-- What a module's image is put together from is what the daemon takes it apart into. -/
theorem split_ofModule {site : Site} {x : Descriptor} (hns : '@' ∉ (nameSpace site version).toList)
    (hname : IsName x.name) (hversion : IsVersion version) :
    split (ofModule site x version) = (nameSpace site version ++ "/" ++ x.name, some version) := by
  apply split_of_splits
  apply Splits.tag
  · have hinner := hname.unmarked '@' (by decide)
    have htail := hversion.unmarked '@' (by decide)
    simp [hns, hinner, htail]
  · exact hversion.unmarked ':' (by decide)
  · exact hversion.unmarked '/' (by decide)

end Image

end Orchestrator
