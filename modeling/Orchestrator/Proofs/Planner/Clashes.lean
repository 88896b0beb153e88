import Orchestrator.Proofs.Planner.Refusals

namespace Orchestrator.Planner

open Booking (State)

def pinners (modules : Table (Option Config.Module)) (names : List String) (port : Int) :
    List String :=
  names.filter fun n ↦ pinOf (modules.get? n).join == some port

/-- Why a port cannot be fixed for a module, as the book and the probe have it. -/
inductive Clashes (p : Planner) (n : String) (q : Int) (s : State) : PortConflict → Prop
  | pinned {owner : String} : s.book.owner? q = some owner → owner ≠ n →
      Clashes p n q s (.pinnedBy owner)
  | reserved : s.book.owner? q = none → q ∈ s.book.reserved → Clashes p n q s .reserved
  | inUse : s.book.owner? q = none → q ∉ s.book.reserved →
      ((p.probe q).on s.host).1 = .ok false → Clashes p n q s .inUse

/-- How the fixed ports are entered from one module on: it has none, its port is entered and the
others follow, or it is refused. -/
inductive Enters (p : Planner) (modules : Table (Option Config.Module)) (n : String)
    (ns : List String) (s : State) : Except Failure Unit → State → Prop
  | none {r : Except Failure Unit} {t : State} : pinOf (modules.get? n).join = none →
      (p.pinAll modules ns).on s = (r, t) → Enters p modules n ns s r t
  | entered {q : Int} {v t : State} {r : Except Failure Unit} :
      pinOf (modules.get? n).join = some q → (p.pinPort n q).on s = (.ok (), v) →
      (p.pinAll modules ns).on v = (r, t) → Enters p modules n ns s r t
  | refused {q : Int} {e : Failure} {t : State} : pinOf (modules.get? n).join = some q →
      (p.pinPort n q).on s = (.error e, t) → Enters p modules n ns s (.error e) t

variable {p : Planner} {modules : Table (Option Config.Module)} {names : List String}
variable {n module : String} {q port : Int} {cause : PortConflict} {s t : State}

theorem pinners_cons_of_eq (h : pinOf (modules.get? n).join = some port) (ns : List String) :
    pinners modules (n :: ns) port = n :: pinners modules ns port := by
  simp [pinners, h]

theorem pinners_cons_of_ne (h : pinOf (modules.get? n).join ≠ some port) (ns : List String) :
    pinners modules (n :: ns) port = pinners modules ns port := by
  simp [pinners, h]

theorem book_of_pinPort (h : (p.pinPort n q).on s = (.ok (), t)) :
    t.book = s.book ∨ t.book = s.book.pin q n := by
  rw [on_pinPort] at h
  split at h
  · split at h <;> cases h
    exact .inl rfl
  · split at h
    · cases h
    · split at h <;> cases h
      exact .inr rfl

theorem enters_of_pinAll {ns : List String} {r : Except Failure Unit}
    (h : (p.pinAll modules (n :: ns)).on s = (r, t)) : Enters p modules n ns s r t := by
  rw [on_pinAll_cons] at h
  cases hpin : pinOf (modules.get? n).join with
  | none =>
    rw [hpin] at h
    exact .none hpin h
  | some q =>
    rw [hpin] at h
    dsimp only at h
    rcases hfirst : (p.pinPort n q).on s with ⟨e | u, v⟩ <;> rw [hfirst] at h
    · cases h
      exact .refused hpin hfirst
    · exact .entered hpin hfirst h

theorem owned_of_pinAll (h : (p.pinAll modules names).on s = (.ok (), t)) :
    ∀ n ∈ names, ∀ q, pinOf (modules.get? n).join = some q → t.book.owner? q = some n := by
  induction names generalizing s with
  | nil => simp
  | cons n ns ih =>
    cases enters_of_pinAll h with
    | none hpin hrest => exact List.forall_mem_cons.2 ⟨fun q hq ↦ by simp [hpin] at hq, ih hrest⟩
    | @entered k v _ _ hpin hfirst hrest =>
      refine List.forall_mem_cons.2 ⟨fun q hq ↦ ?_, ih hrest⟩
      obtain rfl : k = q := by simpa [hpin] using hq
      have hgrows := (covers_pinAll modules ns).reaches hrest
      exact hgrows.extends.owned k n (owner?_of_pinPort hfirst)

theorem clashes_of_pinPort (hown : p.Own (.portConflict module port cause) s)
    (h : (p.pinPort n q).on s = (.error (.portConflict module port cause), t)) :
    n = module ∧ q = port ∧ t.book = s.book ∧ Clashes p n q s cause := by
  have hbook := harmless_pinPort n q s t h
  rw [on_pinPort] at h
  split at h
  · next owner ho =>
    split at h
    · cases h
    · next hne =>
      cases h
      exact ⟨rfl, rfl, hbook, .pinned ho hne⟩
  · next ho =>
    split at h
    · next hr =>
      cases h
      exact ⟨rfl, rfl, hbook, .reserved ho hr⟩
    · next hr =>
      have hprobe := hown.probe q s (.refl s)
      split at h
      · cases h
      · next k hk =>
        cases h
        exact ⟨rfl, rfl, hbook, .inUse ho hr (by rw [hk])⟩
      · next e k hk =>
        rw [Act.Never, hk] at hprobe
        exact absurd (congrArg Except.error (Except.error.inj (Prod.mk.inj h).1)) hprobe

/-- Where the fixed ports are entered up to a conflict, only those of the modules before it were. -/
theorem stops_of_pinAll (hown : p.Own (.portConflict module port cause) s)
    (h : (p.pinAll modules names).on s = (.error (.portConflict module port cause), t)) :
    ∃ before after, names = before ++ module :: after ∧
      pinOf (modules.get? module).join = some port ∧
      ∀ q ∈ t.book.reserved, q ∈ s.book.reserved ∨ q ∈ pins modules before := by
  induction names generalizing s with
  | nil => cases h
  | cons n ns ih =>
    cases enters_of_pinAll h with
    | none hpin hrest =>
      obtain ⟨before, after, rfl, hmodule, hgrown⟩ := ih hown hrest
      refine ⟨n :: before, after, rfl, hmodule, fun q hq ↦ (hgrown q hq).imp_right fun hb ↦ ?_⟩
      simpa [pins, hpin] using hb
    | refused hpin hfirst =>
      obtain ⟨rfl, rfl, hbook, -⟩ := clashes_of_pinPort hown hfirst
      exact ⟨[], ns, rfl, hpin, fun q hq ↦ .inl (hbook ▸ hq)⟩
    | @entered k v _ _ hpin hfirst hrest =>
      have hown := hown.after (covers_pinPort n k) hfirst
      obtain ⟨before, after, rfl, hmodule, hgrown⟩ := ih hown hrest
      refine ⟨n :: before, after, rfl, hmodule, fun q hq ↦ ?_⟩
      have hpins : pins modules (n :: before) = k :: pins modules before := by
        simp [pins, hpin]
      rw [hpins, List.mem_cons]
      rcases hgrown q hq with hq | hq
      · rcases book_of_pinPort hfirst with hv | hv <;> rw [hv] at hq
        · exact .inl hq
        · exact (PortBook.mem_pin.1 hq).elim (fun hk ↦ .inr (.inl hk)) .inl
      · exact .inr (.inr hq)

/-- Once a module has a port, the next that fixes it is refused and told the owner. -/
theorem told_owner {owner : String} (hown : p.Own (.portConflict module port cause) s)
    (ho : s.book.owner? port = some owner) (hn : owner ∉ names)
    (h : (p.pinAll modules names).on s = (.error (.portConflict module port cause), t)) :
    cause = .pinnedBy owner ∧ ∃ rest, pinners modules names port = module :: rest := by
  induction names generalizing s with
  | nil => cases h
  | cons n ns ih =>
    obtain ⟨hne, hns⟩ := List.ne_and_not_mem_of_not_mem_cons hn
    cases enters_of_pinAll h with
    | none hpin hrest =>
      rw [pinners_cons_of_ne (by simp [hpin])]
      exact ih hown ho hns hrest
    | refused hpin hfirst =>
      obtain ⟨rfl, rfl, -, hclash⟩ := clashes_of_pinPort hown hfirst
      refine ⟨?_, _, pinners_cons_of_eq hpin ns⟩
      cases hclash with
      | pinned ho' _ => rw [Option.some.inj (ho.symm.trans ho')]
      | reserved ho' | inUse ho' => cases ho.symm.trans ho'
    | @entered k v _ _ hpin hfirst hrest =>
      have hkept := ((covers_pinPort n k).reaches hfirst).extends.owned port owner ho
      have hother : pinOf (modules.get? n).join ≠ some port := by
        rw [hpin]
        intro hk
        obtain rfl := Option.some.inj hk
        exact hne (Option.some.inj (hkept.symm.trans (owner?_of_pinPort hfirst)))
      rw [pinners_cons_of_ne hother]
      exact ih (hown.after (covers_pinPort n k) hfirst) hkept hns hrest

/-- Where nobody has a port yet and it is free, only two modules that fix it are in conflict. -/
theorem first_two_pin (hown : p.Own (.portConflict module port cause) s) (hd : names.Nodup)
    (ho : s.book.owner? port = none) (hr : port ∉ s.book.reserved)
    (hfree : ∀ u, p.Reaches s u → ((p.probe port).on u.host).1 = .ok true)
    (h : (p.pinAll modules names).on s = (.error (.portConflict module port cause), t)) :
    ∃ owner rest, cause = .pinnedBy owner ∧
      pinners modules names port = owner :: module :: rest := by
  induction names generalizing s with
  | nil => cases h
  | cons n ns ih =>
    obtain ⟨hn, hd⟩ := List.nodup_cons.1 hd
    cases enters_of_pinAll h with
    | none hpin hrest =>
      rw [pinners_cons_of_ne (by simp [hpin])]
      exact ih hown hd ho hr hfree hrest
    | refused hpin hfirst =>
      obtain ⟨rfl, rfl, -, hclash⟩ := clashes_of_pinPort hown hfirst
      cases hclash with
      | pinned ho' _ => cases ho.symm.trans ho'
      | reserved _ hr' => exact absurd hr' hr
      | inUse _ _ hprobe => cases (hfree s (.refl s)).symm.trans hprobe
    | @entered k v _ _ hpin hfirst hrest =>
      have hreaches := (covers_pinPort n k).reaches hfirst
      have hown := hown.later hreaches
      by_cases hk : k = port
      · subst hk
        obtain ⟨hcause, rest, hpinners⟩ := told_owner hown (owner?_of_pinPort hfirst) hn hrest
        exact ⟨n, rest, hcause, by rw [pinners_cons_of_eq hpin, hpinners]⟩
      · rw [pinners_cons_of_ne (by simpa [hpin] using hk)]
        have hfree := fun u hu ↦ hfree u (hreaches.trans hu)
        rcases book_of_pinPort hfirst with hv | hv
        · exact ih hown hd (by rw [hv, ho]) (by rw [hv]; exact hr) hfree hrest
        · refine ih hown hd ?_ ?_ hfree hrest
          · rw [hv, PortBook.owner?_pin, if_neg (Ne.symm hk), ho]
          · rw [hv, PortBook.mem_pin, not_or]
            exact ⟨Ne.symm hk, hr⟩

/-- A conflict over all modules shows before any port is handed out. -/
theorem pinAll_of_planAll {managementOnly : Bool}
    (hown : p.Own (.portConflict module port cause) s)
    (h : (p.planAll modules managementOnly).on s = (.error (.portConflict module port cause), t)) :
    (p.pinAll modules (selected modules managementOnly)).on s =
      (.error (.portConflict module port cause), t) := by
  unfold planAll at h
  cases hs : selected modules managementOnly with
  | nil =>
    rw [hs] at h
    obtain hends | ⟨_, u, -, hends⟩ := Booking.error_of_bind h
    · exact absurd (congrArg Prod.fst hends) (avoids_write _ s)
    · cases hends
  | cons n ns =>
    rw [hs] at h
    obtain hends | ⟨_, u, hpins, hends⟩ := Booking.error_of_bind h
    · exact hends
    · obtain hends | ⟨_, v, -, hends⟩ := Booking.error_of_bind hends
      · have hown := hown.after (covers_pinAll modules _) hpins
        exact absurd (congrArg Prod.fst hends) (avoids_planEach hown (owned_of_pinAll hpins))
      · cases hends

/-- A refusal leaves the book of ports intact. Where one module's plan is refused, nothing was
entered. Where a conflict ends the planning of all modules, it did so while fixed ports were
entered, so no port was handed out and only fixed ports of modules before the one at fault are new;
and where the port is free and was not reserved on a new book, two modules fix it, of which the
second is at fault and the first is named as the owner. -/
theorem intact_of_refusal (p : Planner) {f : Failure} (hf : f.IsRefusal) {s : State}
    (hown : p.Own f s) :
    (∀ name given t, (p.plan name given).on s = (.error f, t) → t.book = s.book) ∧
    ∀ modules managementOnly t module port cause, f = .portConflict module port cause →
      (p.planAll modules managementOnly).on s = (.error f, t) →
      (p.pinAll modules (selected modules managementOnly)).on s = (.error f, t) ∧
      (∃ before after, selected modules managementOnly = before ++ module :: after ∧
        pinOf (modules.get? module).join = some port ∧ s.book.reserved ⊆ t.book.reserved ∧
        ∀ q ∈ t.book.reserved, q ∈ s.book.reserved ∨ q ∈ pins modules before) ∧
      ∀ range reserved, s.book = .fresh range reserved → port ∉ reserved →
        (∀ u, p.Reaches s u → ((p.probe port).on u.host).1 = .ok true) →
        ∃ owner rest, cause = .pinnedBy owner ∧
          pinners modules (selected modules managementOnly) port = owner :: module :: rest := by
  refine ⟨fun name given t h ↦ harmless_plan hf name given hown t h, ?_⟩
  rintro modules managementOnly t module port cause rfl h
  have hpins := pinAll_of_planAll hown h
  have hgrows := (covers_pinAll modules _).reaches hpins
  obtain ⟨before, after, hsplit, hport, hnew⟩ := stops_of_pinAll hown hpins
  refine ⟨hpins, ⟨before, after, hsplit, hport, hgrows.extends.reserved, hnew⟩, ?_⟩
  intro range reserved hs hr hfree
  refine first_two_pin hown (keys_nodup_selected modules managementOnly) ?_ ?_ hfree hpins
  · rw [hs]
    rfl
  · rw [hs]
    exact hr

def quarrel : Table (Option Config.Module) :=
  .ofList [("mod-c", some { Config.Module.standard with port := some 30050 }), ("mod-b", none),
    ("mod-a", some { Config.Module.standard with port := some 30050 })]

theorem intact_of_refusal_quarrel :
    let p := standard .unset
    let fresh := PortBook.fresh ⟨30000, 30100, by decide, by decide, by decide⟩ []
    let pinned := fresh.pin 30050 "mod-a"
    let f := Failure.portConflict "mod-c" 30050 (.pinnedBy "mod-a")
    (∃ t, (p.plan "mod-c" (quarrel.get? "mod-c").join).on ⟨pinned, .quiet⟩ = (.error f, t) ∧
      t.book = pinned) ∧
    ∃ t, (p.planAll quarrel false).on ⟨fresh, .quiet⟩ = (.error f, t) ∧
      ∃ owner rest, PortConflict.pinnedBy "mod-a" = .pinnedBy owner ∧
        pinners quarrel (selected quarrel false) 30050 = owner :: "mod-c" :: rest := by
  intro p fresh pinned f
  have hown : ∀ b, p.Own f ⟨b, .quiet⟩ := fun b ↦ own_standard fun _ _ ↦ nofun
  obtain ⟨hplan, -⟩ := intact_of_refusal p (.conflict "mod-c" 30050 _) (hown pinned)
  obtain ⟨-, hall⟩ := intact_of_refusal p (.conflict "mod-c" 30050 _) (hown fresh)
  have hone : (p.plan "mod-c" (quarrel.get? "mod-c").join).on ⟨pinned, .quiet⟩ =
      (.error f, _) := rfl
  have hs : selected quarrel false = ["mod-a", "mod-b", "mod-c"] :=
    selected_eq (by decide +kernel) (by decide +kernel)
  obtain ⟨t, ht⟩ : ∃ t, (p.planAll quarrel false).on ⟨fresh, .quiet⟩ = (.error f, t) := by
    rw [planAll, hs]
    exact ⟨_, rfl⟩
  obtain ⟨-, -, hfresh⟩ := hall _ _ _ _ _ _ rfl ht
  have hfree : ∀ u, p.Reaches ⟨fresh, .quiet⟩ u → ((p.probe 30050).on u.host).1 = .ok true := by
    intro u hu
    obtain ⟨es, heq, -⟩ := hu.lapse
    rw [heq]
    rfl
  exact ⟨⟨_, hone, hplan _ _ _ hone⟩, t, ht, hfresh _ [] rfl (by simp) hfree⟩

end Orchestrator.Planner
