import Mathlib.Data.List.Nodup
import Orchestrator.Proofs.TakingDown

namespace Orchestrator

def Call.IsAbout (x : Container) : Call → Prop
  | disconnect _ container _ => container = x.id
  | create r => r.name = x.name
  | start name | stop name _ | remove name _ _ | containerGet name | logs name _ _ => name = x.name
  | _ => False

namespace Removal

open Act

variable {s : Settings} {pattern : String} {d : Daemon} {c x : Container} {h : Host}

theorem not_isAbout {k : Call} (hk : k ∈ callsFor s c) (hid : c.id ≠ x.id)
    (hname : c.name ≠ x.name) : ¬ k.IsAbout x := by
  simp only [callsFor, List.mem_cons, List.not_mem_nil, or_false] at hk
  obtain rfl | rfl | rfl | rfl := hk
  · exact id
  · exact hid
  · exact hname
  · exact hname

theorem mem_callsFor_of_leaving {k : Call} (hk : .call k ∈ leaving s d c) : k ∈ callsFor s c := by
  obtain rfl | rfl := call_of_leaving hk <;> simp [callsFor]

theorem mem_callsFor_of_departure {k : Call} (hk : .call k ∈ departure s false d c) :
    k ∈ callsFor s c := by
  obtain hk | hk := List.mem_append.1 hk
  · exact mem_callsFor_of_leaving hk
  · have hk : k = .stop c.name 0 ∨ k = .remove c.name true true := by simpa [parting] using hk
    obtain rfl | rfl := hk <;> simp [callsFor]

structure Cleared (s : Settings) (pattern : String) (h : Host) (run : Except Failure Nat × Host) :
    Prop where
  result : run.1 = .ok (selected pattern h).length
  done : (h.without false (selected pattern h)).Does (.call (.list true pattern) ::
    (unmatched pattern (selected pattern h) ++
      (selected pattern h).flatMap (departure s false h.daemon))) run.2
  remaining : ∀ x, x ∈ run.2.daemon.containers ↔
    x ∈ h.daemon.containers ∧ x ∉ selected pattern h
  /-- Once more, the teardown finds nothing. -/
  again : ∃ g, (byPattern s pattern false).on run.2 = (.ok 0, g) ∧
    run.2.Does (.call (.list true pattern) :: unmatched pattern []) g

/-- A teardown that ends at a container that cannot be stopped or removed, with what is done to that
one after it has left the network. -/
structure BrokenOff (s : Settings) (pattern : String) (h : Host) (before : List Container)
    (c : Container) (after : List Container) (ds : List Event) (f : Failure)
    (run : Except Failure Nat × Host) : Prop where
  result : run.1 = .error f
  done : (h.without false before).Does (.call (.list true pattern) ::
    (before.flatMap (departure s false h.daemon) ++ (leaving s h.daemon c ++ ds))) run.2
  remaining : ∀ x, x ∈ run.2.daemon.containers ↔ x ∈ h.daemon.containers ∧ x ∉ before
  there : c ∈ run.2.daemon.containers
  untouched : ∀ x ∈ after, ∃ ks, run.2.calls = h.calls ++ ks ∧ ∀ k ∈ ks, ¬ k.IsAbout x

theorem mem_without {gone : List Container} (hnames : (h.daemon.containers.map (·.name)).Nodup)
    (hgone : gone ⊆ h.daemon.containers) : x ∈ (h.without false gone).daemon.containers ↔
      x ∈ h.daemon.containers ∧ x ∉ gone := by
  have hkept : x ∈ (h.without false gone).daemon.containers ↔
      x ∈ h.daemon.containers ∧ ∀ c ∈ gone, x.name ≠ c.name := by
    simp [Host.without, Daemon.keeping]
  rw [hkept]
  refine and_congr_right fun hx ↦ ⟨fun hne hgone ↦ hne x hgone rfl, fun hnot c hc hname ↦ ?_⟩
  exact hnot (List.inj_on_of_nodup_map hnames hx (hgone hc) hname ▸ hc)

theorem selected_subset (pattern : String) (h : Host) : selected pattern h ⊆ h.daemon.containers :=
  List.filter_sublist.subset

theorem cleared (hnames : (h.daemon.containers.map (·.name)).Nodup)
    (hlist : h.daemon.fault (.list true pattern) = none)
    (hall : ∀ c ∈ selected pattern h, Departs s false h.daemon c) :
    Cleared s pattern h ((byPattern s pattern false).on h) := by
  obtain ⟨g, hon, hdoes⟩ := on_byPattern hlist (.through hall)
  rw [hon]
  have hremaining : ∀ x, x ∈ g.daemon.containers ↔
      x ∈ h.daemon.containers ∧ x ∉ selected pattern h := by
    intro x
    rw [hdoes.daemon]
    exact mem_without hnames (selected_subset pattern h)
  -- the containers that match are those that were listed, and these are gone
  have hnone : selected pattern g = [] := by
    refine List.filter_eq_nil_iff.2 fun x hx hmatch ↦ ?_
    obtain ⟨hx, hnot⟩ := (hremaining x).1 hx
    exact hnot (List.mem_filter.2 ⟨hx, hmatch⟩)
  have hlist' : g.daemon.fault (.list true pattern) = none := by
    rw [hdoes.daemon]
    exact hlist
  have hcourse : Course s false g.daemon (selected pattern g) [] [] (.ok ()) := by
    rw [hnone]
    exact .through (by simp)
  obtain ⟨k, hagain, hnothing⟩ := on_byPattern hlist' hcourse
  rw [hnone, Host.without_nil, List.append_nil] at hnothing
  rw [hnone] at hagain
  exact ⟨rfl, hdoes, hremaining, k, hagain, hnothing⟩

theorem ne_of_listed {α : Type} {f : Container → α} {xs ys : List Container} {b : Container}
    (hf : (h.daemon.containers.map f).Nodup) (hcs : selected pattern h = xs ++ ys) (hb : b ∈ xs)
    (hx : x ∈ ys) : f b ≠ f x := by
  have hnodup : ((selected pattern h).map f).Nodup := hf.sublist (List.filter_sublist.map f)
  rw [hcs, List.map_append] at hnodup
  intro heq
  refine List.disjoint_of_nodup_append hnodup (List.mem_map_of_mem hb) ?_
  rw [heq]
  exact List.mem_map_of_mem hx

theorem brokenOff {before after : List Container} {ds : List Event} {f : Failure}
    (hnames : (h.daemon.containers.map (·.name)).Nodup)
    (hids : (h.daemon.containers.map (·.id)).Nodup)
    (hlist : h.daemon.fault (.list true pattern) = none)
    (hcs : selected pattern h = before ++ c :: after)
    (hbefore : ∀ b ∈ before, Departs s false h.daemon b)
    (hstays : Stays s false h.daemon c (leaving s h.daemon c ++ ds) f)
    (hds : ∀ k, .call k ∈ ds → k ∈ callsFor s c) :
    BrokenOff s pattern h before c after ds f ((byPattern s pattern false).on h) := by
  have hcourse : Course s false h.daemon (selected pattern h) before
      (before.flatMap (departure s false h.daemon) ++ (leaving s h.daemon c ++ ds)) (.error f) := by
    rw [hcs]
    exact .heldUp hbefore hstays
  obtain ⟨g, hon, hdoes⟩ := on_byPattern hlist hcourse
  have hfound : unmatched pattern (selected pattern h) = [] := by simp [unmatched, hcs]
  rw [hfound, List.nil_append] at hdoes
  have hcs' : selected pattern h = (before ++ [c]) ++ after := by simp [hcs]
  have hlisted : before ++ [c] ⊆ h.daemon.containers :=
    fun x hx ↦ selected_subset pattern h (hcs' ▸ List.mem_append_left after hx)
  have hremaining : ∀ x, x ∈ g.daemon.containers ↔ x ∈ h.daemon.containers ∧ x ∉ before := by
    intro x
    rw [hdoes.daemon]
    exact mem_without hnames fun b hb ↦ hlisted (List.mem_append_left _ hb)
  rw [hon]
  refine ⟨rfl, hdoes, hremaining, (hremaining c).2 ⟨hlisted (by simp), fun hc ↦ ?_⟩,
    fun x hx ↦ ⟨_, hdoes.calls, fun k hk ↦ ?_⟩⟩
  · exact ne_of_listed hnames hcs hc List.mem_cons_self rfl
  · -- each call is the listing, or it is for a container up to the one that stays
    have hfor : k = .list true pattern ∨ ∃ b ∈ before ++ [c], k ∈ callsFor s b := by
      obtain ⟨e, he, hcall⟩ := List.mem_filterMap.1 hk
      obtain rfl := Event.eq_call_of_call? hcall
      obtain he | he := List.mem_cons.1 he
      · cases he
        exact .inl rfl
      obtain he | he := List.mem_append.1 he
      · obtain ⟨b, hb, he⟩ := List.mem_flatMap.1 he
        exact .inr ⟨b, List.mem_append_left _ hb, mem_callsFor_of_departure he⟩
      · refine .inr ⟨c, by simp, ?_⟩
        exact (List.mem_append.1 he).elim mem_callsFor_of_leaving (hds k)
    obtain rfl | ⟨b, hb, hk⟩ := hfor
    · exact id
    · exact not_isAbout hk (ne_of_listed hids hcs' hb hx) (ne_of_listed hnames hcs' hb hx)

/-- How a teardown by a pattern that waits for the removals goes, if the containers can be listed
and nothing but the daemon refuses to take one off the network. If each that is listed can be stopped
and removed, all are taken down in the order of the list. Otherwise the first that cannot ends the
teardown with its failure: those before it are gone, it is still there, and nothing was done to
those after it. -/
theorem teardown_course (s : Settings) (pattern : String) (h : Host)
    (hnames : (h.daemon.containers.map (·.name)).Nodup)
    (hids : (h.daemon.containers.map (·.id)).Nodup)
    (hlist : h.daemon.fault (.list true pattern) = none)
    (hleave : ∀ c ∈ selected pattern h, CanLeave s h.daemon c) :
    let run := (byPattern s pattern false).on h
    let stopped := fun c : Container ↦ h.daemon.fault (.stop c.name 0)
    let removed := fun c : Container ↦ h.daemon.fault (.remove c.name true true)
    ((∀ c ∈ selected pattern h, stopped c = none ∧ removed c = none) → Cleared s pattern h run) ∧
    ∀ before c after, selected pattern h = before ++ c :: after →
      (∀ b ∈ before, stopped b = none ∧ removed b = none) →
      (∀ f, stopped c = some f →
        BrokenOff s pattern h before c after [.call (.stop c.name 0)] f run) ∧
      (∀ f, stopped c = none → removed c = some f → BrokenOff s pattern h before c after
        [.call (.stop c.name 0), .call (.remove c.name true true)] f run) := by
  intro run stopped removed
  refine ⟨fun hall ↦ ?_, fun before c after hcs hbefore ↦ ?_⟩
  · exact cleared hnames hlist fun c hc ↦ ⟨hleave c hc, (hall c hc).1, fun _ ↦ (hall c hc).2⟩
  have hmem : ∀ x ∈ before ++ c :: after, CanLeave s h.daemon x := hcs ▸ hleave
  have hdepart : ∀ b ∈ before, Departs s false h.daemon b := fun b hb ↦
    ⟨hmem b (List.mem_append_left _ hb), (hbefore b hb).1, fun _ ↦ (hbefore b hb).2⟩
  have hc : CanLeave s h.daemon c := hmem c (by simp)
  refine ⟨fun f hstop ↦ ?_, fun f hstop hremove ↦ ?_⟩
  · exact brokenOff hnames hids hlist hcs hdepart (.running hc hstop) (by simp [callsFor])
  · exact brokenOff hnames hids hlist hcs hdepart (.kept hc hstop rfl hremove) (by simp [callsFor])

theorem teardown_course_keepsRunning :
    let s := Site.unset.settings
    let h := threeModules keepsRunning
    (h.daemon.containers.map (·.name)).Nodup ∧ (h.daemon.containers.map (·.id)).Nodup ∧
    h.daemon.fault (.list true "eureka") = none ∧
    BrokenOff s "eureka" h [silent "eureka-a"] (silent "eureka-b") [silent "eureka-c"]
      [.call (.stop "eureka-b" 0)] (.daemon .refused "busy")
      ((byPattern s "eureka" false).on h) := by
  intro s h
  have hnames : (h.daemon.containers.map (·.name)).Nodup := by decide
  have hids : (h.daemon.containers.map (·.id)).Nodup := by decide
  obtain ⟨-, hbroken⟩ := teardown_course s "eureka" h hnames hids rfl fun c _ ↦
    canLeave_threeModules rfl c
  have hcs : selected "eureka" h =
      [silent "eureka-a"] ++ silent "eureka-b" :: [silent "eureka-c"] := rfl
  refine ⟨hnames, hids, rfl, (hbroken _ _ _ hcs ?_).1 _ rfl⟩
  exact List.forall_mem_singleton.2 ⟨rfl, rfl⟩

end Removal

end Orchestrator
