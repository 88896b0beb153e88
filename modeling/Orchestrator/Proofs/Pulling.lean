import Mathlib.Data.List.Forall2
import Orchestrator.Proofs.Deeds
import Orchestrator.Proofs.Prerequisites

namespace Orchestrator

/-- The numbers; truth values count as such. -/
def Value.IsNumber : Value → Prop
  | int _ | bool _ | real _ => True
  | _ => False

namespace Pull

open Act

def under (key : String) (event : List (Value × Value)) : Value :=
  (Value.lookupText? key event).getD .null

structure Amounts (detail : List (Value × Value)) (current total : Value) : Prop where
  current_eq : under "current" detail = current
  total_eq : under "total" detail = total
  given : current ≠ .null
  counts : total.truthy = true

def Counts (event : List (Value × Value)) (current total : Value) : Prop :=
  ∃ detail, under "progressDetail" event = .map detail ∧ Amounts detail current total

inductive Stops (image : String) : Value → Failure → Prop
  | error {event : List (Value × Value)} : (under "error" event).truthy = true →
      Stops image (.map event) (.imagePull image (under "error" event).plain)
  | uncounted {event : List (Value × Value)} {current total : Value} :
      (under "error" event).truthy = false → Counts event current total →
      ¬ (current.IsNumber ∧ total.IsNumber) → Stops image (.map event) (.misread .wrongType)

/-- An event that a pull goes on after, and what is logged of it. -/
inductive Says (image : String) : Value → Event → Prop
  | foreign {v : Value} : (∀ event, v ≠ .map event) →
      Says image v (.log .warning s!"Unexpected pull event for {image}: {v.literal}")
  | malformed {event : List (Value × Value)} {v : Value} : (under "error" event).truthy = false →
      under "progressDetail" event = v → v.truthy = true → (∀ detail, v ≠ .map detail) →
      Says image (.map event) (.log .warning s!"Malformed pull progress for {image}: {v.literal}")
  | plain {event : List (Value × Value)} : (under "error" event).truthy = false →
      ((under "progressDetail" event).truthy = true →
        ∃ detail, under "progressDetail" event = .map detail) →
      (∀ current total, ¬ Counts event current total) →
      Says image (.map event) (.log .debug s!"Pulling {image}: {statusText event}")
  | counted {event : List (Value × Value)} {current total : Value} {done all : String} :
      (under "error" event).truthy = false → Counts event current total →
      mibText current = .ok done → mibText total = .ok all →
      Says image (.map event)
        (.log .debug s!"Pulling {image}: {statusText event} {done}/{all} MiB")

variable {image : String} {event detail : List (Value × Value)} {current total : Value}

theorem mibText_cases (v : Value) : (v.IsNumber ∧ ∃ text, mibText v = .ok text) ∨
    (¬ v.IsNumber ∧ mibText v = .error (.misread .wrongType)) := by
  cases v with
  | int _ | bool _ | real _ => exact .inl ⟨trivial, _, rfl⟩
  | _ => exact .inr ⟨id, rfl⟩

theorem progress_plain (hnot : ∀ current total, ¬ Amounts detail current total) :
    progress image event detail = Act.debug s!"Pulling {image}: {statusText event}" := by
  rw [progress]
  split
  · rfl
  · rfl
  · next htotal hcurrent => exact absurd ⟨rfl, rfl, hcurrent, htotal⟩ (hnot _ _)

theorem progress_counted (hamounts : Amounts detail current total) :
    progress image event detail = (do
    let done ← Act.ofExcept (mibText current)
    let all ← Act.ofExcept (mibText total)
    Act.debug s!"Pulling {image}: {statusText event} {done}/{all} MiB") := by
  obtain ⟨rfl, rfl, hgiven, hcounts⟩ := hamounts
  rw [progress]
  split
  · next hcurrent => exact absurd hcurrent hgiven
  · next htotal _ => cases hcounts.symm.trans htotal
  · rfl

theorem Amounts.truthy (hamounts : Amounts detail current total) :
    (Value.map detail).truthy = true := by
  cases detail with
  | nil => exact absurd hamounts.current_eq.symm hamounts.given
  | cons e es => rfl

def Taken (image : String) (e : Value) (x : Act Unit) (h : Host) : Prop :=
  (∃ d, Says image e d ∧ (x.on h).1 = .ok () ∧ h.Does [d] (x.on h).2) ∨
    ∃ f, Stops image e f ∧ x.on h = (.error f, h)

theorem taken_write {e : Value} {l : LogRecord} (hl : Says image e (.log l.level l.text))
    (h : Host) : Taken image e (Act.write l) h := by
  refine .inl ⟨_, hl, ?_⟩
  rw [on_write]
  exact ⟨rfl, Host.does_logged l h⟩

theorem taken_counted (hnone : (under "error" event).truthy = false)
    (hcounts : Counts event current total) (hamounts : Amounts detail current total) (h : Host) :
    Taken image (.map event) (progress image event detail) h := by
  rw [progress_counted hamounts]
  obtain ⟨hcurrent, done, hdone⟩ | ⟨hcurrent, hfail⟩ := mibText_cases current
  · obtain ⟨-, all, hall⟩ | ⟨htotal, hfail⟩ := mibText_cases total
    · rw [hdone, hall]
      exact taken_write (.counted hnone hcounts hdone hall) h
    · rw [hdone, hfail]
      exact .inr ⟨_, .uncounted hnone hcounts fun hboth ↦ htotal hboth.2, rfl⟩
  · rw [hfail]
    exact .inr ⟨_, .uncounted hnone hcounts fun hboth ↦ hcurrent hboth.1, rfl⟩

theorem taken_progress (hnone : (under "error" event).truthy = false)
    (hdetail : under "progressDetail" event = .map detail ∨
      (under "progressDetail" event).truthy = false ∧ detail = []) (h : Host) :
    Taken image (.map event) (progress image event detail) h := by
  by_cases hamounts : ∃ current total, Amounts detail current total
  · obtain ⟨current, total, hamounts⟩ := hamounts
    obtain hdetail | ⟨-, rfl⟩ := hdetail
    · exact taken_counted hnone ⟨detail, hdetail, hamounts⟩ hamounts h
    · cases hamounts.truthy
  · rw [progress_plain fun current total hc ↦ hamounts ⟨current, total, hc⟩]
    refine taken_write (.plain hnone (fun htruthy ↦ ?_) ?_) h
    · obtain hdetail | ⟨hfalse, -⟩ := hdetail
      · exact ⟨detail, hdetail⟩
      · cases htruthy.symm.trans hfalse
    · rintro current total ⟨detail', hdetail', hc⟩
      obtain hdetail | ⟨hfalse, -⟩ := hdetail
      · obtain rfl := Value.map.inj (hdetail.symm.trans hdetail')
        exact hamounts ⟨current, total, hc⟩
      · rw [hdetail', hc.truthy] at hfalse
        cases hfalse

/-- A key of which only what counts as present is looked at. -/
theorem filter_truthy (key : String) (event : List (Value × Value)) :
    (Value.lookupText? key event).filter Value.truthy =
      if (under key event).truthy then some (under key event) else none := by
  rw [under]
  cases Value.lookupText? key event with
  | none => rfl
  | some v => rfl

theorem taken_step (image : String) (e : Value) (h : Host) : Taken image e (step image e) h := by
  unfold step
  split
  · next event =>
    rw [filter_truthy]
    dsimp only
    split
    · next herror => exact .inr ⟨_, .error herror, rfl⟩
    · next herror =>
      have hnone : (under "error" event).truthy = false := Bool.eq_false_iff.2 herror
      cases hthere : (under "progressDetail" event).truthy with
      | false => exact taken_progress hnone (.inr ⟨hthere, rfl⟩) h
      | true =>
        rw [if_pos rfl]
        split
        · next hno => cases hno
        · next detail hdetail => exact taken_progress hnone (.inl (Option.some.inj hdetail)) h
        · next v hother hv =>
          obtain rfl := Option.some.inj hv
          refine taken_write (.malformed hnone rfl hthere fun detail hdetail ↦ ?_) h
          exact hother detail hdetail
  · next v hforeign => exact taken_write (.foreign fun event he ↦ hforeign event he) h

theorem progressEnding_uncounted (hamounts : Amounts detail current total)
    (hnumbers : ¬ (current.IsNumber ∧ total.IsNumber)) :
    progressEnding detail = .error (.misread .wrongType) := by
  have hmib : (mibText current).bind (fun _ ↦ (mibText total).bind fun _ ↦ .ok ()) =
      .error (.misread .wrongType) := by
    obtain ⟨hcurrent, done, hdone⟩ | ⟨-, hfail⟩ := mibText_cases current
    · obtain ⟨htotal, -⟩ | ⟨-, hfail⟩ := mibText_cases total
      · exact absurd ⟨hcurrent, htotal⟩ hnumbers
      · rw [hdone, hfail]
        rfl
    · rw [hfail]
      rfl
  obtain ⟨rfl, rfl, hgiven, hcounts⟩ := hamounts
  rw [progressEnding]
  split
  · next hcurrent => exact absurd hcurrent hgiven
  · next htotal _ => cases hcounts.symm.trans htotal
  · exact hmib

theorem ending_of_stops {e : Value} {f : Failure} (he : Stops image e f) :
    ending image e = .error f := by
  cases he with
  | error herror => exact if_pos herror
  | uncounted hnone hcounts hnumbers =>
    obtain ⟨detail, hdetail, hamounts⟩ := hcounts
    refine (if_neg (Bool.eq_false_iff.1 hnone)).trans ?_
    rw [filter_truthy, hdetail, if_pos hamounts.truthy]
    exact progressEnding_uncounted hamounts hnumbers

theorem on_step_of_stops {e : Value} {f : Failure} (he : Stops image e f) (h : Host) :
    (step image e).on h = (.error f, h) := by
  have hend : ((step image e).on h).1 = .error f := by rw [result_step, ending_of_stops he]
  obtain ⟨d, -, hok, -⟩ | ⟨g, -, hstep⟩ := taken_step image e h
  · cases hok.symm.trans hend
  · rw [hstep] at hend ⊢
    cases hend
    rfl

/-- As long as no event stops the pull, each leaves its record. -/
theorem on_follow_append {before : List Value} (hbefore : ∀ b ∈ before, ∀ f, ¬ Stops image b f)
    (rest : List Value) (h : Host) : ∃ ds g, List.Forall₂ (Says image) before ds ∧ h.Does ds g ∧
      (follow image (before ++ rest)).on h = (follow image rest).on g := by
  induction before generalizing h with
  | nil => exact ⟨[], h, .nil, .refl h, rfl⟩
  | cons b before ih =>
    obtain ⟨hb, hbefore⟩ := List.forall_mem_cons.1 hbefore
    obtain ⟨d, hd, hok, hdoes⟩ | ⟨f, hf, -⟩ := taken_step image b h
    · obtain ⟨ds, g, hds, hg, hrest⟩ := ih hbefore ((step image b).on h).2
      refine ⟨d :: ds, g, .cons hd hds, hdoes.trans hg, ?_⟩
      rw [List.cons_append, follow, on_bind_of_ok hok, hrest]
    · exact absurd hf (hb f)

/-- What comes of a pull that is started. The first event that stops it ends it with the failure of
that event, whatever comes after; if none does, it goes well. Every event up to there leaves one
record, and beside these there is only the one that says that the image was pulled. -/
theorem image_course (name : String) {auth : Act (Option Credentials)} {h k : Host}
    {c : Option Credentials} (hauth : auth.on h = (.ok c, k))
    (hcall : k.daemon.fault (callFor name c) = none) :
    let run := (Pull.image name auth).on h
    (∀ before e after f, k.daemon.eventsOf (callFor name c) = before ++ e :: after →
      (∀ b ∈ before, ∀ g, ¬ Stops name b g) → Stops name e f →
      run.1 = .error f ∧ ∃ ds, List.Forall₂ (Says name) before ds ∧
        k.Does (.call (callFor name c) :: ds) run.2) ∧
    ((∀ e ∈ k.daemon.eventsOf (callFor name c), ∀ f, ¬ Stops name e f) →
      run.1 = .ok () ∧ ∃ ds, List.Forall₂ (Says name) (k.daemon.eventsOf (callFor name c)) ds ∧
        k.Does (.call (callFor name c) :: (ds ++ [.log .info s!"Pulled image {name}"])) run.2) := by
  intro run
  let started : Host := { k with past := .call (callFor name c) :: k.past }
  have hstarted : k.Does [.call (callFor name c)] started := Host.does_event rfl k
  have hrun : run = (followed name (k.daemon.eventsOf (callFor name c))).on started := by
    dsimp only [run]
    rw [on_image, hauth]
    dsimp only
    rw [Docker.reply_eq_ok.2 hcall]
  refine ⟨fun before e after f hevents hbefore he ↦ ?_, fun hall ↦ ?_⟩
  · obtain ⟨ds, g, hds, hdoes, hrest⟩ := on_follow_append hbefore (e :: after) started
    have hstop : (follow name (e :: after)).on g = (.error f, g) := by
      rw [follow, on_bind, on_step_of_stops he]
    have hend : run = (.error f, g) := by
      rw [hrun, hevents, followed, on_bind, hrest, hstop]
    rw [hend]
    exact ⟨rfl, ds, hds, hstarted.trans hdoes⟩
  · obtain ⟨ds, g, hds, hdoes, hrest⟩ := on_follow_append hall [] started
    rw [List.append_nil] at hrest
    let pulled : LogRecord := ⟨.info, s!"Pulled image {name}", none, none⟩
    have hend : run = (.ok (), logged pulled g) := by
      rw [hrun, followed, on_bind, hrest, follow, on_pure]
      exact on_write pulled g
    rw [hend]
    exact ⟨rfl, ds, hds, hstarted.trans (hdoes.trans (Host.does_logged pulled g))⟩

def reporting (events : List Value) : Host :=
  { Host.quiet with daemon := { Host.quiet.daemon with pullEvents := events } }

def unknownManifest : List Value :=
  [.text "garbage",
    .map [(.text "progressDetail",
      .map [(.text "current", .int 3145728), (.text "total", .int 9437184)])],
    .map [(.text "error", .text "manifest unknown")],
    .map [(.text "progressDetail", .text "oops")]]

theorem image_course_unknownManifest :
    (pure none : Act (Option Credentials)).on (reporting unknownManifest) =
      (.ok none, reporting unknownManifest) ∧
    (reporting unknownManifest).daemon.fault (callFor "mod-a:1.0.0" none) = none ∧
    ∃ ds, ds.length = 2 ∧
      ((Pull.image "mod-a:1.0.0" (pure none)).on (reporting unknownManifest)).1 =
        .error (.imagePull "mod-a:1.0.0" "manifest unknown") ∧
      (reporting unknownManifest).Does (.call (callFor "mod-a:1.0.0" none) :: ds)
        ((Pull.image "mod-a:1.0.0" (pure none)).on (reporting unknownManifest)).2 := by
  have hgarbage : ∀ f, ¬ Stops "mod-a:1.0.0" (.text "garbage") f := fun f hf ↦ by cases hf
  have hlayer : ∀ f, ¬ Stops "mod-a:1.0.0" (.map [(.text "progressDetail",
      .map [(.text "current", .int 3145728), (.text "total", .int 9437184)])]) f := by
    intro f hf
    cases hf with
    | error herror => cases herror
    | uncounted _ hcounts hnumbers =>
      obtain ⟨detail, hdetail, rfl, rfl, -, -⟩ := hcounts
      cases hdetail
      exact hnumbers ⟨trivial, trivial⟩
  have hauth : (pure none : Act (Option Credentials)).on (reporting unknownManifest) =
      (.ok none, reporting unknownManifest) := rfl
  obtain ⟨hstopped, -⟩ := image_course "mod-a:1.0.0" hauth rfl
  obtain ⟨herror, ds, hds, hdoes⟩ := hstopped (unknownManifest.take 2) _ _ _ rfl
    (List.forall_mem_cons.2 ⟨hgarbage, List.forall_mem_singleton.2 hlayer⟩) (.error rfl)
  exact ⟨rfl, rfl, ds, hds.length_eq.symm, herror, hdoes⟩

def wordyProgress : List Value :=
  [.map [(.text "progressDetail", .map [(.text "current", .text "half"), (.text "total", .int 8)])]]

/-- No event of that pull is an error, and still it ends in a failure, and none of a pull. -/
theorem progress_in_words_stops :
    (∀ event, .map event ∈ wordyProgress → (under "error" event).truthy = false) ∧
    ((Pull.image "mod-a:1.0.0" (pure none)).on (reporting wordyProgress)).1 =
      .error (.misread .wrongType) := by
  refine ⟨fun event hevent ↦ ?_, ?_⟩
  · cases List.mem_singleton.1 hevent
    rfl
  · rw [on_image, on_pure]
    dsimp only
    rw [Docker.reply_eq_ok.2 rfl]
    rfl

end Pull

end Orchestrator
