import Orchestrator.Proofs.Deployment.Pervasive

namespace Orchestrator

namespace Act

variable {α β : Type}

def Spares (x : Act α) : Prop := ∀ h, (x.on h).2.daemon = h.daemon

theorem spares_pure (a : α) : (pure a : Act α).Spares := fun _ ↦ rfl

theorem spares_throw (f : Failure) : (throw f : Act α).Spares := fun _ ↦ rfl

theorem spares_get : (get : Act Host).Spares := fun _ ↦ rfl

theorem Spares.bind {x : Act α} {f : α → Act β} (hx : x.Spares) (hf : ∀ a, (f a).Spares) :
    (x >>= f).Spares := by
  intro h
  have hd := hx h
  rw [on_bind]
  rcases hr : x.on h with ⟨_ | a, g⟩ <;> rw [hr] at hd
  · exact hd
  · exact (hf a g).trans hd

theorem inherited_spares : Inherited fun _ x ↦ x.Spares where
  pure := spares_pure
  throw := spares_throw
  bind := Spares.bind
  observe hx h := by
    rw [on_observe]
    exact hx h

theorem spares_record (e : Event) : (record e).Spares := fun _ ↦ rfl

theorem spares_write (r : LogRecord) : (write r).Spares := by
  refine (spares_record _).bind fun _ ↦ spares_get.bind fun h ↦ ?_
  split
  · exact spares_pure ()
  · split
    · exact spares_record _
    · exact spares_pure ()

end Act

theorem Docker.spares_call (c : Call) : (Docker.call c).Spares := by
  refine (Act.spares_record _).bind fun _ ↦ Act.spares_get.bind fun h ↦ ?_
  split
  · exact Act.spares_throw _
  · exact Act.spares_pure ()

theorem Docker.spares_daemon : Docker.daemon.Spares := Act.spares_get.bind fun _ ↦ Act.spares_pure _

theorem Act.pervasive_spares : Pervasive fun _ x ↦ x.Spares where
  toInherited := inherited_spares
  write := spares_write
  daemon := Docker.spares_daemon
  call c _ := Docker.spares_call c

namespace Pull

open Act

theorem spares_image (name : String) {auth : Act (Option Credentials)} (hauth : auth.Spares) :
    (Pull.image name auth).Spares :=
  pervasive_image pervasive_spares name hauth

theorem spares_isPresent (name : String) : (isPresent name).Spares :=
  pervasive_isPresent pervasive_spares name

end Pull

/-- A run that creates containers in order, each under a name that is not taken, and changes nothing
else about the daemon. -/
inductive Creates : Host → List CreateRequest → Host → Prop
  | nil {h h' : Host} : h'.daemon = h.daemon → Creates h [] h'
  | cons {h g h' : Host} {r : CreateRequest} {rs : List CreateRequest} :
      (∀ c ∈ h.daemon.containers, c.name ≠ r.name) →
      g.daemon = { h.daemon with containers := h.daemon.containers ++ [r.container] } →
      Creates g rs h' → Creates h (r :: rs) h'

namespace Creates

variable {h g h' : Host} {rs ss : List CreateRequest}

theorem of_daemon_eq (hd : g.daemon = h.daemon) (hc : Creates g rs h') : Creates h rs h' := by
  cases hc with
  | nil he => exact .nil (he.trans hd)
  | cons hn he hr =>
    rw [hd] at hn he
    exact .cons hn he hr

theorem append (hg : Creates h rs g) (hc : Creates g ss h') : Creates h (rs ++ ss) h' := by
  induction hg with
  | nil hd => exact hc.of_daemon_eq hd
  | cons hn he _ ih => exact .cons hn he (ih hc)

theorem daemon (hc : Creates h rs h') : h'.daemon = { h.daemon with
    containers := h.daemon.containers ++ rs.map CreateRequest.container } := by
  induction hc with
  | nil hd => rw [hd, List.map_nil, List.append_nil]
  | cons _ he _ ih => rw [ih, he, List.append_assoc, List.map_cons, List.singleton_append]

theorem containers (hc : Creates h rs h') :
    h'.daemon.containers = h.daemon.containers ++ rs.map CreateRequest.container := by
  rw [hc.daemon]

theorem fault (hc : Creates h rs h') : h'.daemon.fault = h.daemon.fault := by rw [hc.daemon]

theorem fresh (hc : Creates h rs h') : ∀ r ∈ rs, ∀ c ∈ h.daemon.containers, c.name ≠ r.name := by
  intro r hr c hm
  induction hc with
  | nil _ => cases hr
  | cons hn he _ ih =>
    rcases List.mem_cons.1 hr with rfl | hr
    · exact hn c hm
    · exact ih hr (by rw [he]; exact List.mem_append_left _ hm)

theorem nodup_names (hc : Creates h rs h') : (rs.map CreateRequest.name).Nodup := by
  induction hc with
  | nil _ => exact List.nodup_nil
  | @cons h g h' r rs _ he hr ih =>
    refine List.nodup_cons.2 ⟨fun hm ↦ ?_, ih⟩
    obtain ⟨r', hr', hname⟩ := List.mem_map.1 hm
    have hin : r.container ∈ g.daemon.containers := by simp [he]
    exact hr.fresh r' hr' r.container hin hname.symm

end Creates

namespace Act

variable {α β : Type}

def Makes (x : Act α) (P : Except Failure α → List CreateRequest → Prop) : Prop :=
  ∀ h, ∃ rs, Creates h rs (x.on h).2 ∧ P (x.on h).1 rs

theorem Makes.weaken {x : Act α} {P Q : Except Failure α → List CreateRequest → Prop}
    (hx : x.Makes P) (h : ∀ r rs, P r rs → Q r rs) : x.Makes Q := by
  intro g
  obtain ⟨rs, hc, hp⟩ := hx g
  exact ⟨rs, hc, h _ rs hp⟩

theorem Spares.makes {x : Act α} (hx : x.Spares) : x.Makes fun _ rs ↦ rs = [] :=
  fun h ↦ ⟨[], .nil (hx h), rfl⟩

theorem Makes.bind {x : Act α} {f : α → Act β} {P : Except Failure α → List CreateRequest → Prop}
    {Q : Except Failure β → List CreateRequest → Prop} (hx : x.Makes P)
    (hf : ∀ a rs, P (.ok a) rs → (f a).Makes fun r ss ↦ Q r (rs ++ ss))
    (he : ∀ e rs, P (.error e) rs → Q (.error e) rs) : (x >>= f).Makes Q := by
  intro h
  obtain ⟨rs, hc, hp⟩ := hx h
  rw [on_bind]
  rcases hr : x.on h with ⟨e | a, g⟩ <;> rw [hr] at hc hp
  · exact ⟨rs, hc, he e rs hp⟩
  · obtain ⟨ss, hc', hq⟩ := hf a rs hp g
    exact ⟨rs ++ ss, hc.append hc', hq⟩

theorem Spares.bind_makes {x : Act α} {f : α → Act β}
    {Q : Except Failure β → List CreateRequest → Prop} (hx : x.Spares)
    (hf : ∀ a, (f a).Makes Q) (he : ∀ e, Q (.error e) []) : (x >>= f).Makes Q := by
  refine hx.makes.bind (fun a rs hrs ↦ ?_) fun e rs hrs ↦ ?_
  · subst hrs
    exact hf a
  · subst hrs
    exact he e

end Act

end Orchestrator
