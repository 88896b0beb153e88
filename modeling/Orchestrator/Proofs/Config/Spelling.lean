import Orchestrator.Config.File
import Orchestrator.Proofs.Config.Respelling

namespace Orchestrator.Config

open Respelling

def Resources.fields : Fields where
  all := [("cpu-count", same), ("memory", same), ("memory-reservation", same),
    ("memory-swap", same), ("oom-kill-disable", same)]
  distinct := by decide

def Module.fields : Fields where
  all := [("deploy-module", same), ("deploy-sidecar", same), ("version", same), ("port", same),
    ("port-server", same), ("use-vault", same), ("use-okapi-url", same),
    ("disable-system-user", same), ("local-descriptor-path", same), ("environment", same),
    ("resources", ofSection Resources.fields), ("volumes", same)]
  distinct := by decide

def Sidecar.fields : Fields where
  all := [("image", same), ("version", same), ("local-image", same), ("environment", same),
    ("resources", ofSection Resources.fields)]
  distinct := by decide

def Run.fields : Fields where
  all := [("profile", same), ("port-start", same), ("port-end", same), ("install", same),
    ("environment", same), ("sidecar-module", ofSection Sidecar.fields),
    ("backend-modules", ofTable (ofSection Module.fields))]
  distinct := by decide

theorem Resources.fits_check : (ofSection Resources.fields).Fits Resources.check :=
  fits_sectionOf fun h ↦
    (h.alike_same (by simp [fields]) _ _).map _
      |>.seq (h.alike_same (by simp [fields]) _ _)
      |>.seq (h.alike_same (by simp [fields]) _ _)
      |>.seq (h.alike_same (by simp [fields]) _ _)
      |>.seq (h.alike_same (by simp [fields]) _ _)

theorem Module.fits_check : (ofSection Module.fields).Fits Module.check :=
  fits_sectionOf fun h ↦
    (h.alike_same (by simp [fields]) _ _).map _
      |>.seq (h.alike_same (by simp [fields]) _ _)
      |>.seq (h.alike_same (by simp [fields]) _ _)
      |>.seq (h.alike_same (by simp [fields]) _ _)
      |>.seq (h.alike_same (by simp [fields]) _ _)
      |>.seq (h.alike_same (by simp [fields]) _ _)
      |>.seq (h.alike_same (by simp [fields]) _ _)
      |>.seq (h.alike_same (by simp [fields]) _ _)
      |>.seq (h.alike_same (by simp [fields]) _ _)
      |>.seq (h.alike_same (by simp [fields]) _ _)
      |>.seq (h.alike_field (by simp [fields]) Resources.fits_check.optional _)
      |>.seq (h.alike_same (by simp [fields]) _ _)

theorem Sidecar.fits_check : (ofSection Sidecar.fields).Fits Sidecar.check :=
  fits_sectionOf fun h ↦
    (h.alike_same (by simp [fields]) _ _).map _
      |>.seq (h.alike_same (by simp [fields]) _ _)
      |>.seq (h.alike_same (by simp [fields]) _ _)
      |>.seq (h.alike_same (by simp [fields]) _ _)
      |>.seq (h.alike_field (by simp [fields]) Resources.fits_check.optional _)

theorem fits_modules : (ofTable (ofSection Module.fields)).Fits modules := by
  refine Module.fits_check.optional.table.of_ne_null (a := ∅) rfl fun v hv ↦ ?_
  unfold modules
  split
  · exact absurd rfl hv
  · rfl

theorem Run.alike_read {ms ms' : Members} (h : Run.fields.Respelled ms ms') :
    (read ms).Alike (SamePlace Run.fields.inside ms ms') (read ms') :=
  (h.alike_same (by simp [fields]) _ _).map _
    |>.seq (h.alike_same (by simp [fields]) _ _)
    |>.seq (h.alike_same (by simp [fields]) _ _)
    |>.seq (h.alike_same (by simp [fields]) _ _)
    |>.seq (h.alike_same (by simp [fields]) _ _)
    |>.seq (h.alike_field (by simp [fields]) Sidecar.fits_check _)
    |>.seq (h.alike_field (by simp [fields]) fits_modules _)

theorem Run.fits_check : (ofSection Run.fields).Fits Run.check :=
  fits_sectionOf fun h ↦ (Run.alike_read h).andThen fun r ↦ by
    unfold checkOrder
    split
    · exact .fail _ .here
    · exact .good r

def withProfile (profile : Option String) (ms : Members) : Members :=
  match profile.filter (· != "") with
  | some p => Value.putEntry (.text "profile") (.text p) ms
  | none => ms

theorem ofData_map (ms : Members) (profile : Option String) :
    ofData (.map ms) profile = match Run.check (.map (withProfile profile ms)) with
      | .good r => .ok r
      | .bad issues => .error (.config (.invalid issues)) := by
  have hmembers : membersOf (.map ms) = .ok ms := by cases ms <;> rfl
  rw [ofData, hmembers]
  rfl

theorem respelled_withProfile {ms ms' : Members} (h : Run.fields.Respelled ms ms')
    (profile : Option String) :
    Run.fields.Respelled (withProfile profile ms) (withProfile profile ms') := by
  unfold withProfile
  split
  · exact h.putEntry (by simp [Run.fields]) (by decide) _
  · exact h

/-- Data in which fields are respelled, on any level of it, makes the same configuration; and where
it makes none, the same is wrong with it, in the same order, at the same places but for the keys
that are respelled. -/
theorem ofData_respelled {ms ms' : Members} (h : Run.fields.Respelled ms ms')
    (profile : Option String) :
    (∃ r, ofData (.map ms) profile = .ok r ∧ ofData (.map ms') profile = .ok r) ∨
    ∃ is js, ofData (.map ms) profile = .error (.config (.invalid is)) ∧
      ofData (.map ms') profile = .error (.config (.invalid js)) ∧
      List.Forall₂ (Issue.Alike (SamePlace Run.fields.inside (withProfile profile ms)
        (withProfile profile ms'))) is js := by
  have hms := respelled_withProfile h profile
  have hchecks := Run.fits_check (.map (withProfile profile ms)) (.map (withProfile profile ms'))
    (.inr ⟨_, _, rfl, rfl, hms⟩)
  rw [ofData_map, ofData_map]
  generalize Run.check (.map (withProfile profile ms)) = x at hchecks
  generalize Run.check (.map (withProfile profile ms')) = y at hchecks
  cases hchecks with
  | good r => exact .inl ⟨r, rfl, rfl⟩
  | bad hissues => exact .inr ⟨_, _, rfl, rfl, hissues⟩

def faultyMembers : Members :=
  [(.text "port-start", .int 0), (.text "sidecar_module", .map [(.text "local-image", .bool true),
      (.text "resources", .map [(.text "cpu-count", .int (-1))])]),
    (.text "backend-modules", .map [(.text "mod-a", .map [(.text "use-vault", .text "maybe"),
      (.text "resources", .map [(.text "memory_swap", .int (-2))])])])]

def faultyRespelled : Members :=
  [(.text "port_start", .int 0), (.text "sidecar-module", .map [(.text "local_image", .bool true),
      (.text "resources", .map [(.text "cpu_count", .int (-1))])]),
    (.text "backend_modules", .map [(.text "mod-a", .map [(.text "use-vault", .text "maybe"),
      (.text "resources", .map [(.text "memory-swap", .int (-2))])])])]

theorem respelled_faulty : Run.fields.Respelled faultyMembers faultyRespelled := by
  have hcpu : Resources.fields.Respelled [(.text "cpu-count", .int (-1))]
      [(.text "cpu_count", .int (-1))] := by
    refine ⟨by decide, .cons (.field (f := ("cpu-count", same)) ?_ ?_ ?_ rfl) .nil⟩
    · simp [Resources.fields]
    · decide
    · decide
  have hswap : Resources.fields.Respelled [(.text "memory_swap", .int (-2))]
      [(.text "memory-swap", .int (-2))] := by
    refine ⟨by decide, .cons (.field (f := ("memory-swap", same)) ?_ ?_ ?_ rfl) .nil⟩
    · simp [Resources.fields]
    · decide
    · decide
  have hsidecar : Sidecar.fields.Respelled
      [(.text "local-image", .bool true),
        (.text "resources", .map [(.text "cpu-count", .int (-1))])]
      [(.text "local_image", .bool true),
        (.text "resources", .map [(.text "cpu_count", .int (-1))])] := by
    refine ⟨by decide, .cons (.field (f := ("local-image", same)) ?_ ?_ ?_ rfl)
      (.cons (.field (f := ("resources", ofSection Resources.fields)) ?_ ?_ ?_
        (.inr ⟨_, _, rfl, rfl, hcpu⟩)) .nil)⟩
    all_goals first | decide | simp [Sidecar.fields]
  have hmodule : Module.fields.Respelled
      [(.text "use-vault", .text "maybe"),
        (.text "resources", .map [(.text "memory_swap", .int (-2))])]
      [(.text "use-vault", .text "maybe"),
        (.text "resources", .map [(.text "memory-swap", .int (-2))])] := by
    refine ⟨by decide, .cons (.field (f := ("use-vault", same)) ?_ ?_ ?_ rfl)
      (.cons (.field (f := ("resources", ofSection Resources.fields)) ?_ ?_ ?_
        (.inr ⟨_, _, rfl, rfl, hswap⟩)) .nil)⟩
    all_goals first | decide | simp [Module.fields]
  refine ⟨by decide, .cons (.field (f := ("port-start", same)) ?_ ?_ ?_ rfl)
    (.cons (.field (f := ("sidecar-module", ofSection Sidecar.fields)) ?_ ?_ ?_
      (.inr ⟨_, _, rfl, rfl, hsidecar⟩))
    (.cons (.field (f := ("backend-modules", ofTable (ofSection Module.fields))) ?_ ?_ ?_
      (.inr ⟨_, _, rfl, rfl, .cons ⟨rfl, .inr ⟨_, _, rfl, rfl, hmodule⟩⟩ .nil⟩)) .nil))⟩
  all_goals first | decide | simp [Run.fields]

theorem ofData_respelled_faulty :
    Run.fields.Respelled faultyMembers faultyRespelled ∧ ∃ is js,
      ofData (.map faultyMembers) (some "dev") = .error (.config (.invalid is)) ∧
      ofData (.map faultyRespelled) (some "dev") = .error (.config (.invalid js)) ∧
      is = [⟨[.key "port-start"], .tooSmall⟩,
        ⟨[.key "sidecar_module", .key "local-image"], .notText⟩,
        ⟨[.key "sidecar_module", .key "resources", .key "cpu-count"], .tooSmall⟩,
        ⟨[.key "backend-modules", .key "mod-a", .key "use-vault"], .notTruthText⟩,
        ⟨[.key "backend-modules", .key "mod-a", .key "resources", .key "memory_swap"], .tooSmall⟩] ∧
      js = [⟨[.key "port_start"], .tooSmall⟩,
        ⟨[.key "sidecar-module", .key "local_image"], .notText⟩,
        ⟨[.key "sidecar-module", .key "resources", .key "cpu_count"], .tooSmall⟩,
        ⟨[.key "backend_modules", .key "mod-a", .key "use-vault"], .notTruthText⟩,
        ⟨[.key "backend_modules", .key "mod-a", .key "resources", .key "memory-swap"], .tooSmall⟩] ∧
      List.Forall₂ (Issue.Alike (SamePlace Run.fields.inside
        (withProfile (some "dev") faultyMembers)
        (withProfile (some "dev") faultyRespelled))) is js := by
  have hfaulty : ofData (.map faultyMembers) (some "dev") = .error _ := rfl
  have hrespelled : ofData (.map faultyRespelled) (some "dev") = .error _ := rfl
  obtain ⟨r, hr, -⟩ | ⟨is, js, his, hjs, hissues⟩ :=
    ofData_respelled respelled_faulty (some "dev")
  · cases hfaulty.symm.trans hr
  · refine ⟨respelled_faulty, is, js, his, hjs, ?_, ?_, hissues⟩
    · cases hfaulty.symm.trans his
      rfl
    · cases hrespelled.symm.trans hjs
      rfl

end Orchestrator.Config
