namespace Orchestrator

structure Table (α : Type) where
  entries : List (String × α)
  nodup_keys : (entries.map Prod.fst).Nodup

namespace Table

variable {α β : Type}

def put (k : String) (v : α) : List (String × α) → List (String × α)
  | [] => [(k, v)]
  | e :: es => if e.1 = k then (k, v) :: es else e :: put k v es

theorem keys_put (k : String) (v : α) (es : List (String × α)) :
    (put k v es).map Prod.fst =
      if k ∈ es.map Prod.fst then es.map Prod.fst else es.map Prod.fst ++ [k] := by
  induction es with
  | nil => simp [put]
  | cons e es ih =>
    by_cases h : e.1 = k
    · simp [put, h]
    · have hk : ¬ k = e.1 := fun hc ↦ h hc.symm
      simp only [put, h, if_false, List.map_cons, ih, List.mem_cons, hk, false_or]
      split <;> simp

theorem nodup_put (k : String) (v : α) {es : List (String × α)}
    (h : (es.map Prod.fst).Nodup) : ((put k v es).map Prod.fst).Nodup := by
  rw [keys_put]
  split
  · exact h
  · next hk => exact List.nodup_append.2 ⟨h, by simp, fun a ha b hb hab ↦
      hk (by rw [List.mem_singleton.1 hb] at hab; exact hab ▸ ha)⟩

def empty : Table α := ⟨[], by simp⟩

instance : EmptyCollection (Table α) := ⟨empty⟩

instance : Inhabited (Table α) := ⟨empty⟩

def insert (t : Table α) (k : String) (v : α) : Table α :=
  ⟨put k v t.entries, nodup_put k v t.nodup_keys⟩

/-- The table that holds the entries of a list, a later entry for a key counting more. -/
def ofList (es : List (String × α)) : Table α := es.foldl (fun t e ↦ t.insert e.1 e.2) empty

def toList (t : Table α) : List (String × α) := t.entries

@[simp] theorem toList_empty : (∅ : Table α).toList = [] := rfl

def keys (t : Table α) : List String := t.entries.map Prod.fst

def get? (t : Table α) (k : String) : Option α := t.entries.lookup k

theorem lookup_cons (e : String × α) (es : List (String × α)) (k : String) :
    (e :: es).lookup k = if k = e.1 then some e.2 else es.lookup k := by
  obtain ⟨a, b⟩ := e
  rw [List.lookup_cons]
  by_cases h : k = a
  · simp [h]
  · simp [beq_false_of_ne h, h]

theorem lookup_put (k k' : String) (v : α) (es : List (String × α)) :
    (put k v es).lookup k' = if k' = k then some v else es.lookup k' := by
  induction es with
  | nil => simp [put, lookup_cons]
  | cons e es ih =>
    by_cases he : e.1 = k
    · by_cases h : k' = k <;> simp [put, lookup_cons, he, h]
    · by_cases h' : k' = e.1
      · simp [put, lookup_cons, he, h']
      · simp [put, lookup_cons, he, h', ih]

theorem get?_insert (t : Table α) (k k' : String) (v : α) :
    (t.insert k v).get? k' = if k' = k then some v else t.get? k' := lookup_put k k' v t.entries

@[simp] theorem get?_empty (k : String) : (∅ : Table α).get? k = none := rfl

theorem get?_eq_some_iff {t : Table α} {k : String} {v : α} :
    t.get? k = some v ↔ (k, v) ∈ t.toList := by
  obtain ⟨es, hes⟩ := t
  simp only [get?, toList]
  induction es with
  | nil => simp
  | cons e es ih =>
    have hn := List.nodup_cons.1 hes
    by_cases h : k = e.1
    · subst h
      have hv : (e.1, v) ∉ es := fun hm ↦ hn.1 (List.mem_map.2 ⟨_, hm, rfl⟩)
      simp [lookup_cons, hv, Prod.ext_iff, eq_comm]
    · simp [lookup_cons, h, ih hn.2, Prod.ext_iff]

theorem mem_keys_iff {t : Table α} {k : String} : k ∈ t.keys ↔ ∃ v, t.get? k = some v := by
  simp only [get?_eq_some_iff]
  exact List.mem_map.trans
    ⟨fun ⟨e, he, hk⟩ ↦ ⟨e.2, hk ▸ he⟩, fun ⟨v, hv⟩ ↦ ⟨(k, v), hv, rfl⟩⟩

theorem get?_eq_none_iff {t : Table α} {k : String} : t.get? k = none ↔ k ∉ t.keys := by
  rw [mem_keys_iff, Option.eq_none_iff_forall_ne_some]
  simp

theorem put_of_not_mem {k : String} {v : α} {es : List (String × α)}
    (h : k ∉ es.map Prod.fst) : put k v es = es ++ [(k, v)] := by
  induction es with
  | nil => rfl
  | cons e es ih =>
    simp only [List.map_cons, List.mem_cons, not_or] at h
    simp [put, Ne.symm h.1, ih h.2]

/-- Entries with keys of their own stay as they are. -/
theorem toList_ofList {es : List (String × α)} (h : (es.map Prod.fst).Nodup) :
    (ofList es).toList = es := by
  suffices hf : ∀ t : Table α, (t.toList.map Prod.fst ++ es.map Prod.fst).Nodup →
      (es.foldl (fun t e ↦ t.insert e.1 e.2) t).toList = t.toList ++ es by
    simpa [ofList, toList, empty] using hf empty (by simpa [toList, empty] using h)
  intro t ht
  clear h
  induction es generalizing t with
  | nil => simp
  | cons e es ih =>
    have he : e.1 ∉ t.toList.map Prod.fst := fun hm ↦
      (List.nodup_append.1 ht).2.2 _ hm _ (by simp) rfl
    have hi : (t.insert e.1 e.2).toList = t.toList ++ [e] := put_of_not_mem he
    rw [List.foldl_cons, ih (t.insert e.1 e.2) (by simpa [hi] using ht), hi]
    simp

theorem ofList_toList (t : Table α) : ofList t.toList = t := by
  have h : (ofList t.toList).toList = t.toList := toList_ofList t.nodup_keys
  obtain ⟨entries, hk⟩ := t
  rcases hl : ofList (Table.mk entries hk).toList with ⟨entries', hk'⟩
  rw [hl] at h
  obtain rfl : entries' = entries := h
  rfl

theorem mem_put {k : String} {v : α} {es : List (String × α)} {e : String × α}
    (h : e ∈ put k v es) : e = (k, v) ∨ e ∈ es := by
  induction es with
  | nil => simpa [put] using h
  | cons f fs ih =>
    unfold put at h
    split at h
    · exact (List.mem_cons.1 h).imp_right (List.mem_cons_of_mem f)
    · rcases List.mem_cons.1 h with rfl | h
      · exact .inr (List.mem_cons_self ..)
      · exact (ih h).imp_right (List.mem_cons_of_mem f)

theorem mem_of_mem_ofList {es : List (String × α)} {e : String × α} (h : e ∈ (ofList es).toList) :
    e ∈ es := by
  suffices hf : ∀ t : Table α, e ∈ (es.foldl (fun t e ↦ t.insert e.1 e.2) t).toList →
      e ∈ t.toList ∨ e ∈ es by
    exact (hf empty h).resolve_left (by simp [toList, empty])
  clear h
  induction es with
  | nil => exact fun t ht ↦ .inl ht
  | cons f fs ih =>
    intro t ht
    rcases ih (t.insert f.1 f.2) ht with hi | hi
    · rcases mem_put hi with rfl | hi
      · exact .inr (List.mem_cons_self ..)
      · exact .inl hi
    · exact .inr (List.mem_cons_of_mem f hi)

def size (t : Table α) : Nat := t.entries.length

def isEmpty (t : Table α) : Bool := t.entries.isEmpty

/-- Sets every key of `u`, in its order. -/
def merge (t u : Table α) : Table α := u.entries.foldl (fun t e ↦ t.insert e.1 e.2) t

/-- What is laid over a table counts more. -/
theorem get?_merge (t u : Table α) (k : String) :
    (t.merge u).get? k = (u.get? k).or (t.get? k) := by
  obtain ⟨es, hes⟩ := u
  change (es.foldl (fun t e ↦ t.insert e.1 e.2) t).get? k = (es.lookup k).or (t.get? k)
  induction es generalizing t with
  | nil => rfl
  | cons e es ih =>
    obtain ⟨hfirst, hes⟩ := List.nodup_cons.1 hes
    rw [List.foldl_cons, ih _ hes, get?_insert, lookup_cons]
    by_cases h : k = e.1
    · have hnone : es.lookup k = none := List.lookup_eq_none_iff.2 fun f hf ↦ by
        rw [h, bne_iff_ne, ne_comm]
        exact fun he ↦ hfirst (List.mem_map.2 ⟨f, hf, he⟩)
      rw [hnone, if_pos h, if_pos h, Option.none_or, Option.some_or]
    · rw [if_neg h, if_neg h]

/-- What is laid over a table adds the keys that are not there yet behind the others. -/
theorem keys_merge (t u : Table α) : (t.merge u).keys = t.keys ++ u.keys.removeAll t.keys := by
  obtain ⟨es, hes⟩ := u
  change (es.foldl (fun t e ↦ t.insert e.1 e.2) t).keys = t.keys ++ (es.map Prod.fst).removeAll t.keys
  induction es generalizing t with
  | nil => simp [List.removeAll]
  | cons e es ih =>
    obtain ⟨hfirst, hes⟩ := List.nodup_cons.1 hes
    have hinsert : (t.insert e.1 e.2).keys = if e.1 ∈ t.keys then t.keys else t.keys ++ [e.1] :=
      keys_put e.1 e.2 t.entries
    rw [List.foldl_cons, ih _ hes, hinsert]
    split
    · next h => simp [List.removeAll, h]
    · next h =>
      have hothers : (es.map Prod.fst).removeAll (t.keys ++ [e.1]) =
          (es.map Prod.fst).removeAll t.keys := by
        apply List.filter_congr
        intro k hk
        have hne : k ≠ e.1 := fun h ↦ hfirst (h ▸ hk)
        simp [hne]
      rw [hothers]
      simp [List.removeAll, h]

def map (f : α → β) (t : Table α) : Table β :=
  ⟨t.entries.map fun e ↦ (e.1, f e.2), by
    simpa [List.map_map, Function.comp_def] using t.nodup_keys⟩

theorem keys_map (f : α → β) (t : Table α) : (t.map f).keys = t.keys := by
  simp [keys, map, Function.comp_def]

theorem get?_map (f : α → β) (t : Table α) (k : String) : (t.map f).get? k = (t.get? k).map f := by
  obtain ⟨es, hes⟩ := t
  change (es.map fun e ↦ (e.1, f e.2)).lookup k = (es.lookup k).map f
  clear hes
  induction es with
  | nil => rfl
  | cons e es ih =>
    rw [List.map_cons, lookup_cons, lookup_cons, ih]
    split <;> rfl

end Table

end Orchestrator
