import Orchestrator.Config.Field
import Mathlib.Data.List.Forall2
import Mathlib.Data.List.Nodup

/-!
Reading sections whose fields are given under one or the other of their names. A field may be given
under its name or under the name with underscores for the hyphens. A check ends alike for members
that are respelled: with the same result, or with the same issues in the same order, at places that
differ in the respelled keys only.
-/

namespace Orchestrator.Config

structure Issue.Alike (R : List Step → List Step → Prop) (i j : Issue) : Prop where
  path : R i.path j.path
  complaint : i.complaint = j.complaint

namespace Checked

variable {α β : Type} {R S : List Step → List Step → Prop}

/-- Two checks end alike: with the same result, or with the same issues in the same order, at places
that belong together. -/
inductive Alike (R : List Step → List Step → Prop) : Checked α → Checked α → Prop
  | good (a : α) : Alike R (.good a) (.good a)
  | bad {is js : List Issue} (h : List.Forall₂ (Issue.Alike R) is js) : Alike R (.bad is) (.bad js)

namespace Alike

theorem fail (c : Complaint) (h : R [] []) : Alike (α := α) R (Checked.fail c) (Checked.fail c) :=
  .bad (.cons ⟨h, rfl⟩ .nil)

theorem refl (h : ∀ p, R p p) (x : Checked α) : Alike R x x := by
  cases x with
  | good a => exact .good a
  | bad is => exact .bad (List.forall₂_same.2 fun i _ ↦ ⟨h i.path, rfl⟩)

theorem mono {x y : Checked α} (h : Alike R x y) (hRS : ∀ p q, R p q → S p q) : Alike S x y := by
  cases h with
  | good a => exact .good a
  | bad his => exact .bad (his.imp fun _ _ hi ↦ ⟨hRS _ _ hi.path, hi.complaint⟩)

theorem map {x y : Checked α} (h : Alike R x y) (f : α → β) : Alike R (f <$> x) (f <$> y) := by
  cases h with
  | good a => exact .good (f a)
  | bad his => exact .bad his

theorem seq {f g : Checked (α → β)} {x y : Checked α} (hf : Alike R f g) (hx : Alike R x y) :
    Alike R (f <*> x) (g <*> y) := by
  cases hf with
  | good f =>
    cases hx with
    | good a => exact .good (f a)
    | bad hjs => exact .bad hjs
  | bad his =>
    cases hx with
    | good a => exact .bad his
    | bad hjs => exact .bad (List.rel_append his hjs)

theorem andThen {x y : Checked α} (h : Alike R x y) {f : α → Checked β}
    (hf : ∀ a, Alike R (f a) (f a)) : Alike R (x.andThen f) (y.andThen f) := by
  cases h with
  | good a => exact hf a
  | bad his => exact .bad his

/-- The issues of a part stay alike one step further on. -/
theorem under {x y : Checked α} (h : Alike R x y) {s s' : Step}
    (hS : ∀ p q, R p q → S (s :: p) (s' :: q)) : Alike S (x.under s) (y.under s') := by
  cases h with
  | good a => exact .good a
  | bad his =>
    refine .bad ?_
    rw [List.forall₂_map_left_iff, List.forall₂_map_right_iff]
    exact his.imp fun _ _ hi ↦ ⟨hS _ _ hi.path, hi.complaint⟩

end Alike

end Checked

def Spells (name k : String) : Prop := k = name ∨ k = underscored name

instance (name k : String) : Decidable (Spells name k) := inferInstanceAs (Decidable (_ ∨ _))

theorem underscored_underscored (name : String) :
    underscored (underscored name) = underscored name := by
  unfold underscored
  rw [String.toList_ofList, List.map_map]
  congr 2
  funext c
  by_cases hc : c = '-' <;> simp [hc]

theorem Spells.underscored_eq {name k : String} (h : Spells name k) :
    underscored k = underscored name := by
  rcases h with rfl | rfl
  · rfl
  · exact underscored_underscored name

def gives (name : String) : Value → Bool
  | .text k => Spells name k
  | _ => false

theorem gives_text {name k : String} : gives name (.text k) = true ↔ Spells name k :=
  decide_eq_true_iff

def timesGiven (name : String) (ms : Members) : Nat := ms.countP (gives name ·.1)

@[simp] theorem timesGiven_nil (name : String) : timesGiven name [] = 0 := rfl

@[simp] theorem timesGiven_cons (name : String) (e : Value × Value) (ms : Members) :
    timesGiven name (e :: ms) = timesGiven name ms + if gives name e.1 then 1 else 0 :=
  List.countP_cons

@[simp] theorem timesGiven_append (name : String) (as bs : Members) :
    timesGiven name (as ++ bs) = timesGiven name as + timesGiven name bs :=
  List.countP_append

/-- A way of writing values differently: which values stand for the same, and which places in them
belong together. -/
structure Respelling where
  data : Value → Value → Prop
  place : Value → Value → List Step → List Step → Prop
  /-- Null is written in one way only. -/
  null_iff : ∀ {v v'}, data v v' → (v = .null ↔ v' = .null)
  root : ∀ v v', place v v' [] []

def Respelling.Fits {α : Type} (ρ : Respelling) (read : Value → Checked α) : Prop :=
  ∀ v v', ρ.data v v' → (read v).Alike (ρ.place v v') (read v')

def membersIn (v : Value) : Members :=
  match v.bare with
  | .map es => es
  | _ => []

/-- Places in two lists of members that belong together: the lists themselves, and places in members
that stand at one position. -/
inductive SamePlace (inner : Value × Value → Value × Value → List Step → List Step → Prop)
    (ms ms' : Members) : List Step → List Step → Prop
  | here : SamePlace inner ms ms' [] []
  | inside (e e' : Value × Value) {q q' : List Step} (he : (e, e') ∈ ms.zip ms')
      (hq : inner e e' q q') : SamePlace inner ms ms' (keyStep e.1 :: q) (keyStep e'.1 :: q')

theorem SamePlace.cons {inner : Value × Value → Value × Value → List Step → List Step → Prop}
    {ms ms' : Members} {p p' : List Step} (h : SamePlace inner ms ms' p p') (e e' : Value × Value) :
    SamePlace inner (e :: ms) (e' :: ms') p p' := by
  cases h with
  | here => exact .here
  | inside e e' he hq => exact .inside e e' (List.mem_cons_of_mem _ he) hq

namespace Respelling

variable {α : Type}

def same : Respelling where
  data v v' := v = v'
  place _ _ p p' := p = p'
  null_iff h := h ▸ Iff.rfl
  root _ _ := rfl

def ofMapping (members : Members → Members → Prop)
    (inner : Value × Value → Value × Value → List Step → List Step → Prop) : Respelling where
  data v v' := (v = v' ∧ ∀ ms, v.bare ≠ .map ms) ∨
    ∃ ms ms', v.bare = .map ms ∧ v'.bare = .map ms' ∧ members ms ms'
  place v v' := SamePlace inner (membersIn v) (membersIn v')
  null_iff := by
    rintro v v' (⟨rfl, -⟩ | ⟨ms, ms', hv, hv', -⟩)
    · exact Iff.rfl
    · refine iff_of_false ?_ ?_
      · rintro rfl
        cases hv
      · rintro rfl
        cases hv'
  root _ _ := .here

def ofTable (ρ : Respelling) : Respelling :=
  ofMapping (List.Forall₂ fun e e' ↦ e.1 = e'.1 ∧ ρ.data e.2 e'.2)
    fun e e' q q' ↦ (q = [.key "[key]"] ∧ q' = q) ∨ ρ.place e.2 e'.2 q q'

theorem same_fits (read : Value → Checked α) : same.Fits read := by
  rintro v _ rfl
  exact .refl (fun _ ↦ rfl) _

/-- A check that takes null by itself ends alike if it does so for what is not null. -/
theorem Fits.of_ne_null {ρ : Respelling} {read readNull : Value → Checked α} {a : α} (h : ρ.Fits read)
    (hnull : readNull .null = .good a) (hother : ∀ v, v ≠ .null → readNull v = read v) :
    ρ.Fits readNull := by
  intro v v' hv
  by_cases hv₀ : v = .null
  · obtain rfl := hv₀
    obtain rfl := (ρ.null_iff hv).1 rfl
    rw [hnull]
    exact .good a
  · rw [hother v hv₀, hother v' fun hc ↦ hv₀ ((ρ.null_iff hv).2 hc)]
    exact h v v' hv

theorem Fits.optional {ρ : Respelling} {read : Value → Checked α} (h : ρ.Fits read) :
    ρ.Fits (optional read) := by
  have hsome : ρ.Fits fun v ↦ (read v).map some := fun v v' hv ↦ (h v v' hv).map some
  refine hsome.of_ne_null rfl fun v hv ↦ ?_
  unfold Config.optional
  split
  · exact absurd rfl hv
  · rfl

/-- A check of mappings ends alike if it does so for their members. -/
theorem fits_ofMapping {members : Members → Members → Prop}
    {inner : Value × Value → Value × Value → List Step → List Step → Prop}
    {read : Value → Checked α} (readMembers : Members → Checked α) (c : Complaint)
    (hmap : ∀ v ms, v.bare = .map ms → read v = readMembers ms)
    (hother : ∀ v, (∀ ms, v.bare ≠ .map ms) → read v = .fail c)
    (h : ∀ ms ms', members ms ms' →
      (readMembers ms).Alike (SamePlace inner ms ms') (readMembers ms')) :
    (ofMapping members inner).Fits read := by
  rintro v v' (⟨rfl, hno⟩ | ⟨ms, ms', hv, hv', hms⟩)
  · rw [hother v hno]
    exact .fail c .here
  · have hin : membersIn v = ms := by rw [membersIn, hv]
    have hin' : membersIn v' = ms' := by rw [membersIn, hv']
    rw [hmap v ms hv, hmap v' ms' hv']
    dsimp only [ofMapping]
    rw [hin, hin']
    exact h ms ms' hms

theorem Fits.alike_entries {ρ : Respelling} {read : Value → Checked α} (h : ρ.Fits read)
    {es es' : Members} (hes : List.Forall₂ (fun e e' ↦ e.1 = e'.1 ∧ ρ.data e.2 e'.2) es es') :
    (entries read es).Alike (SamePlace (fun e e' q q' ↦
      (q = [.key "[key]"] ∧ q' = q) ∨ ρ.place e.2 e'.2 q q') es es') (entries read es') := by
  induction hes with
  | nil => exact .good []
  | @cons e e' es es' he _ ih =>
    obtain ⟨k, v⟩ := e
    obtain ⟨k', v'⟩ := e'
    obtain ⟨rfl, hv⟩ := he
    have hkey : ((text k).under (.key "[key]")).Alike
        (fun q q' ↦ q = [.key "[key]"] ∧ q' = q) ((text k).under (.key "[key]")) := by
      have htext : (text k).Alike (fun q q' ↦ q = [] ∧ q' = q) (text k) := by
        cases k with
        | text s => exact .good s
        | bytes bs =>
          unfold text
          dsimp only
          split
          · exact .good _
          · exact .fail _ ⟨rfl, rfl⟩
        | _ => exact .fail _ ⟨rfl, rfl⟩
      exact htext.under fun q q' ⟨hq, hq'⟩ ↦ ⟨by rw [hq], by rw [hq']⟩
    refine .seq (.map (.seq (.map (hkey.under ?_) _) ((h _ _ hv).under ?_)) _)
      (ih.mono fun _ _ hp ↦ hp.cons _ _)
    · exact fun q q' hq ↦ .inside (k, v) (k, v') List.mem_cons_self (.inl hq)
    · exact fun q q' hq ↦ .inside (k, v) (k, v') List.mem_cons_self (.inr hq)

theorem Fits.table {ρ : Respelling} {read : Value → Checked α} (h : ρ.Fits read) :
    ρ.ofTable.Fits (table read) :=
  fits_ofMapping (fun es ↦ (entries read es).map Table.ofList) .notMap
    (fun v es hv ↦ by rw [Config.table, hv])
    (fun v hno ↦ by
      unfold Config.table
      split
      · next es hv => exact absurd hv (hno es)
      · rfl)
    fun es es' hes ↦ (h.alike_entries hes).map Table.ofList

end Respelling

structure Fields where
  all : List (String × Respelling)
  /-- No key can give two of them. -/
  distinct : (all.map fun f ↦ underscored f.1).Nodup

namespace Fields

/-- Members that stand for the same: a field, under either of its names, or what is no field and
stays as it is. -/
inductive Member (fields : Fields) : Value × Value → Value × Value → Prop
  | field {f : String × Respelling} {k k' : String} {v v' : Value} (hf : f ∈ fields.all)
      (hk : Spells f.1 k) (hk' : Spells f.1 k') (hv : f.2.data v v') :
      Member fields (.text k, v) (.text k', v')
  | other {e : Value × Value} (h : ∀ f ∈ fields.all, gives f.1 e.1 = false) : Member fields e e

/-- Members of a section in which no field is given twice, and the same members with some of the
fields under their other name. -/
structure Respelled (fields : Fields) (ms ms' : Members) : Prop where
  /-- No key of a mapping is there twice, so a field can be given twice only under both names. -/
  once : ∀ f ∈ fields.all, timesGiven f.1 ms ≤ 1
  members : List.Forall₂ fields.Member ms ms'

def inside (fields : Fields) (e e' : Value × Value) (q q' : List Step) : Prop :=
  ∃ f ∈ fields.all, gives f.1 e.1 = true ∧ gives f.1 e'.1 = true ∧ f.2.place e.2 e'.2 q q'

variable {fields : Fields} {f g : String × Respelling} {ms ms' : Members}

theorem eq_of_spells (hf : f ∈ fields.all) (hg : g ∈ fields.all) {k : String} (hk : Spells f.1 k)
    (hk' : Spells g.1 k) : f = g :=
  List.inj_on_of_nodup_map fields.distinct hf hg
    (hk.underscored_eq.symm.trans hk'.underscored_eq)

theorem Member.gives_eq {e e' : Value × Value} (h : fields.Member e e') (hf : f ∈ fields.all) :
    gives f.1 e.1 = gives f.1 e'.1 := by
  cases h with
  | @field g k k' v v' hg hk hk' hv =>
    have hsame : Spells f.1 k ↔ Spells f.1 k' := by
      constructor
      · intro h
        exact eq_of_spells hf hg h hk ▸ hk'
      · intro h
        exact eq_of_spells hf hg h hk' ▸ hk
    exact decide_eq_decide.2 hsame
  | other h => rfl

theorem timesGiven_eq (hms : List.Forall₂ fields.Member ms ms') (hf : f ∈ fields.all) :
    timesGiven f.1 ms' = timesGiven f.1 ms := by
  induction hms with
  | nil => rfl
  | cons he _ ih => rw [timesGiven_cons, timesGiven_cons, ih, he.gives_eq hf]

/-- A field that is given stands at the same position of both lists. -/
theorem exists_given (hms : List.Forall₂ fields.Member ms ms') (hf : f ∈ fields.all)
    (hgiven : timesGiven f.1 ms ≠ 0) :
    ∃ k v k' v', ((Value.text k, v), (Value.text k', v')) ∈ ms.zip ms' ∧
      Spells f.1 k ∧ Spells f.1 k' ∧ f.2.data v v' := by
  induction hms with
  | nil => exact absurd rfl hgiven
  | @cons e e' ms ms' he _ ih =>
    -- where no other member gives the field, the first one does
    by_cases hrest : timesGiven f.1 ms = 0
    · have hfirst : gives f.1 e.1 = true := by
        by_contra hno
        exact hgiven (by rw [timesGiven_cons, if_neg hno, hrest])
      cases he with
      | @field g k k' v v' hg hk hk' hv =>
        obtain rfl := eq_of_spells hf hg (gives_text.1 hfirst) hk
        exact ⟨k, v, k', v', List.mem_cons_self, hk, hk', hv⟩
      | other h => exact absurd hfirst (by rw [h f hf]; exact Bool.false_ne_true)
    · obtain ⟨k, v, k', v', hin, h⟩ := ih hrest
      exact ⟨k, v, k', v', List.mem_cons_of_mem _ hin, h⟩

end Fields

section Lookup

variable {name key : String}

theorem lookupText?_append {as : Members} (has : timesGiven name as = 0) (hkey : Spells name key)
    (bs : Members) : Value.lookupText? key (as ++ bs) = Value.lookupText? key bs := by
  induction as with
  | nil => rfl
  | cons e as ih =>
    obtain ⟨k, v⟩ := e
    rw [timesGiven_cons, Nat.add_eq_zero_iff] at has
    rw [List.cons_append, ← ih has.1]
    cases k with
    | text k =>
      refine if_neg ?_
      rintro rfl
      rw [if_pos (gives_text.2 hkey)] at has
      exact Nat.one_ne_zero has.2
    | _ => rfl

theorem lookupText?_eq_none {ms : Members} (hms : timesGiven name ms = 0) (hkey : Spells name key) :
    Value.lookupText? key ms = none := by
  rw [← List.append_nil ms, lookupText?_append hms hkey]
  rfl

theorem member?_eq_none {ms : Members} (hms : timesGiven name ms = 0) : member? name ms = none := by
  rw [member?, lookupText?_eq_none hms (.inl rfl), lookupText?_eq_none hms (.inr rfl)]
  rfl

/-- The one member that gives a field is the one that is found. -/
theorem member?_eq_some {ms : Members} (honce : timesGiven name ms ≤ 1) {k : String} {v : Value}
    (hmem : (.text k, v) ∈ ms) (hk : Spells name k) : member? name ms = some (k, v) := by
  obtain ⟨as, bs, rfl⟩ := List.append_of_mem hmem
  have hcount : timesGiven name (as ++ (.text k, v) :: bs) =
      timesGiven name as + (timesGiven name bs + 1) := by
    rw [timesGiven_append, timesGiven_cons, if_pos (gives_text.2 hk)]
  -- neither before nor behind the member is the field given, so no lookup stops there
  have hlookup : ∀ key, Spells name key →
      Value.lookupText? key (as ++ (.text k, v) :: bs) = if k = key then some v else none := by
    intro key hkey
    rw [lookupText?_append (by omega) hkey, Value.lookupText?,
      lookupText?_eq_none (by omega) hkey]
  rw [member?, hlookup name (.inl rfl), hlookup (underscored name) (.inr rfl)]
  by_cases hname : k = name
  · rw [if_pos hname, hname]
  · obtain rfl := hk.resolve_left hname
    rw [if_neg hname, if_pos rfl]
    rfl

end Lookup

def Respelling.ofSection (fields : Fields) : Respelling :=
  .ofMapping fields.Respelled fields.inside

section Section

variable {α : Type} {fields : Fields} {ms ms' : Members}

/-- A field is read alike under either of its names. -/
theorem Fields.Respelled.alike_field (h : fields.Respelled ms ms') {name : String} {ρ : Respelling}
    (hf : (name, ρ) ∈ fields.all) {read : Value → Checked α} (hread : ρ.Fits read) (default : α) :
    (field name default read ms).Alike (SamePlace fields.inside ms ms')
      (field name default read ms') := by
  have htimes := timesGiven_eq h.members hf
  by_cases hgiven : timesGiven name ms = 0
  · rw [field, field, member?_eq_none hgiven, member?_eq_none (htimes.trans hgiven)]
    exact .good default
  · obtain ⟨k, v, k', v', hin, hk, hk', hv⟩ := exists_given h.members hf hgiven
    obtain ⟨hmem, hmem'⟩ := List.of_mem_zip hin
    rw [field, field, member?_eq_some (h.once _ hf) hmem hk,
      member?_eq_some (htimes ▸ h.once _ hf) hmem' hk']
    refine (hread _ _ hv).under fun q q' hq ↦ ?_
    exact .inside (.text k, v) (.text k', v') hin
      ⟨_, hf, gives_text.2 hk, gives_text.2 hk', hq⟩

theorem Fields.Respelled.alike_same (h : fields.Respelled ms ms') {name : String}
    (hf : (name, .same) ∈ fields.all) (default : α) (read : Value → Checked α) :
    (field name default read ms).Alike (SamePlace fields.inside ms ms')
      (field name default read ms') :=
  h.alike_field hf (Respelling.same_fits read) default

theorem fits_sectionOf {read : Members → Checked α}
    (h : ∀ {ms ms'}, fields.Respelled ms ms' →
      (read ms).Alike (SamePlace fields.inside ms ms') (read ms')) :
    (Respelling.ofSection fields).Fits (sectionOf read) :=
  Respelling.fits_ofMapping read .notSection
    (fun v es hv ↦ by rw [sectionOf, hv])
    (fun v hno ↦ by
      unfold sectionOf
      split
      · next es hv => exact absurd hv (hno es)
      · rfl)
    fun _ _ ↦ h

end Section

section Put

variable {ms : Members} {name : String}

theorem sameKey_text (hplain : underscored name = name) (key : Value) :
    Value.sameKey key (.text name) = gives name key := by
  cases key with
  | text k => simp [Value.sameKey, gives, Spells, hplain, beq_eq_decide]
  | real x => simp [Value.sameKey, Value.keyNumber?, gives]
  | _ => rfl

theorem putEntry_cons (k v : Value) (e : Value × Value) (ms : Members) :
    Value.putEntry k v (e :: ms) =
      if Value.sameKey e.1 k then (e.1, v) :: ms else e :: Value.putEntry k v ms := rfl

theorem timesGiven_putEntry_of_not {other : String} (hother : gives other (.text name) = false)
    (v : Value) (ms : Members) :
    timesGiven other (Value.putEntry (.text name) v ms) = timesGiven other ms := by
  induction ms with
  | nil => simp [Value.putEntry, Value.putBy, timesGiven, hother]
  | cons e ms ih =>
    rw [putEntry_cons]
    split
    · rw [timesGiven_cons, timesGiven_cons]
    · rw [timesGiven_cons, timesGiven_cons, ih]

theorem timesGiven_putEntry_le (hplain : underscored name = name) (v : Value)
    (h : timesGiven name ms ≤ 1) : timesGiven name (Value.putEntry (.text name) v ms) ≤ 1 := by
  induction ms with
  | nil =>
    rw [Value.putEntry, Value.putBy, timesGiven_cons]
    split <;> simp
  | cons e ms ih =>
    rw [putEntry_cons, sameKey_text hplain]
    split
    · exact h
    · next hno =>
      rw [timesGiven_cons, if_neg hno] at h ⊢
      exact ih h

end Put

namespace Fields

variable {fields : Fields} {ms ms' : Members} {name : String}

theorem Member.putEntry {e e' : Value × Value} (h : fields.Member e e')
    (hname : (name, .same) ∈ fields.all) (hgives : gives name e.1 = true) (v : Value) :
    fields.Member (e.1, v) (e'.1, v) := by
  cases h with
  | @field g k k' w w' hg hk hk' hw =>
    obtain rfl := eq_of_spells hname hg (gives_text.1 hgives) hk
    exact .field hname hk hk' rfl
  | other h => exact absurd hgives (by rw [h _ hname]; exact Bool.false_ne_true)

/-- What is put into respelled members under a name without hyphens leaves them respelled. -/
theorem Respelled.putEntry (h : fields.Respelled ms ms') (hname : (name, .same) ∈ fields.all)
    (hplain : underscored name = name) (v : Value) :
    fields.Respelled (Value.putEntry (.text name) v ms) (Value.putEntry (.text name) v ms') where
  once := fun f hf ↦ by
    by_cases hgives : gives f.1 (.text name) = true
    · obtain rfl := eq_of_spells hf hname (gives_text.1 hgives) (.inl rfl)
      exact timesGiven_putEntry_le hplain v (h.once _ hf)
    · rw [timesGiven_putEntry_of_not (by simpa using hgives)]
      exact h.once f hf
  members := by
    obtain ⟨-, hms⟩ := h
    -- members that stand for the same have the key that is put in or another one, both of them
    induction hms with
    | nil => exact .cons (.field hname (.inl rfl) (.inl rfl) rfl) .nil
    | @cons e e' ms ms' he hms ih =>
      have hsame : Value.sameKey e'.1 (.text name) = Value.sameKey e.1 (.text name) := by
        rw [sameKey_text hplain, sameKey_text hplain]
        exact (he.gives_eq hname).symm
      rw [putEntry_cons, putEntry_cons, hsame]
      split
      · next hk => exact .cons (he.putEntry hname (sameKey_text hplain e.1 ▸ hk) v) hms
      · exact .cons he ih

end Fields

end Orchestrator.Config
