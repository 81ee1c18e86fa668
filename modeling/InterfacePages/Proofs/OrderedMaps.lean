/-
What an ordered map holds after each way to make one.

`mem_entries` ties the list of entries to the view by key: under each key stands what `get?` finds there, and nothing
else. `entries_ofList` reads writes under distinct keys back, `get?_foldl_upsert` writes that look at what is there.
Maps that hold the same, in whatever order, are `Same`.
-/
import InterfacePages.OrderedMap

namespace InterfacePages

namespace OrderedMap

variable {κ α β : Type}

@[simp]
theorem keys_mapValues (f : κ → α → β) (m : OrderedMap κ α) : (m.mapValues f).keys = m.keys := by
  simp [keys, mapValues, Function.comp_def]

theorem mapValuesM?_eq_ok {ε : Type} {f : κ → α → Except ε β} {es : List (κ × α)} {es' : List (κ × β)}
    (h : mapValuesM? f es = .ok es') (k : κ) (w : β) :
    (k, w) ∈ es' → ∃ v, (k, v) ∈ es ∧ f k v = .ok w := by
  induction es generalizing es' with
  | nil =>
    cases h
    exact fun h => absurd h List.not_mem_nil
  | cons e rest ih =>
    obtain ⟨k', v⟩ := e
    simp only [mapValuesM?] at h
    split at h
    · cases h
    · next w' hw =>
      split at h
      · cases h
      · next rest' hr =>
        cases h
        intro hm
        rcases List.mem_cons.1 hm with hm | hm
        · cases hm
          exact ⟨v, List.mem_cons_self, hw⟩
        · obtain ⟨u, hu, hf⟩ := ih hr hm
          exact ⟨u, List.mem_cons_of_mem _ hu, hf⟩

theorem mapValuesM?_total {ε : Type} {f : κ → α → Except ε β} {es : List (κ × α)}
    (h : ∀ e ∈ es, ∃ w, f e.1 e.2 = .ok w) : ∃ es', mapValuesM? f es = .ok es' := by
  induction es with
  | nil => exact ⟨[], rfl⟩
  | cons e rest ih =>
    obtain ⟨w, hw⟩ := h e List.mem_cons_self
    obtain ⟨rest', hr⟩ := ih fun e' he => h e' (List.mem_cons_of_mem _ he)
    exact ⟨(e.1, w) :: rest', by simp only [mapValuesM?, hw, hr]⟩

section

variable [DecidableEq κ]

theorem lookupIn_filter (keep : κ → Bool) (entries : List (κ × α)) (k : κ) :
    lookupIn k (entries.filter fun e => keep e.1) = if keep k then lookupIn k entries else none := by
  induction entries with
  | nil => simp [lookupIn]
  | cons e rest ih =>
    by_cases hk : e.1 = k
    · subst hk
      by_cases he : keep e.1
      · simp [lookupIn, he]
      · simp [he, ih]
    · by_cases he : keep e.1
      · simp [lookupIn, hk, he, ih]
      · simp [lookupIn, hk, he, ih]

theorem get?_filterKeys (keep : κ → Bool) (m : OrderedMap κ α) (k : κ) :
    (m.filterKeys keep).get? k = if keep k then m.get? k else none := lookupIn_filter keep m.entries k

theorem get?_insert (m : OrderedMap κ α) (k k' : κ) (v : α) :
    (m.insert k v).get? k' = if k = k' then some v else m.get? k' := get?_upsert m k k' _

theorem mem_of_lookupIn {entries : List (κ × α)} {k : κ} {v : α} (h : lookupIn k entries = some v) :
    (k, v) ∈ entries := by
  induction entries with
  | nil => cases h
  | cons e rest ih =>
    rw [lookupIn] at h
    split at h
    · next hk =>
      cases h
      rw [← hk]
      exact List.mem_cons_self
    · exact List.mem_cons_of_mem _ (ih h)

theorem exists_lookupIn {entries : List (κ × α)} {k : κ} {v : α} (h : (k, v) ∈ entries) :
    ∃ w, lookupIn k entries = some w := by
  induction entries with
  | nil => cases h
  | cons e rest ih =>
    rw [lookupIn]
    split
    · exact ⟨_, rfl⟩
    · next hk =>
      rcases List.mem_cons.1 h with h | h
      · exact absurd (congrArg Prod.fst h).symm hk
      · exact ih h

theorem lookupIn_eq_some {entries : List (κ × α)} (hd : (entries.map Prod.fst).Nodup) {k : κ} {v : α} :
    lookupIn k entries = some v ↔ (k, v) ∈ entries := by
  induction entries with
  | nil => simp [lookupIn]
  | cons e rest ih =>
    obtain ⟨k', w⟩ := e
    rw [List.map_cons, List.nodup_cons] at hd
    by_cases hk : k' = k
    · subst hk
      simp only [lookupIn, if_true, Option.some.injEq, List.mem_cons, Prod.mk.injEq, true_and]
      refine ⟨fun h => .inl h.symm, fun h => h.elim Eq.symm fun h => ?_⟩
      exact absurd (List.mem_map_of_mem h) hd.1
    · have hne : (k, v) ≠ (k', w) := fun h => hk (Prod.mk.inj h).1.symm
      rw [lookupIn, if_neg hk, ih hd.2, List.mem_cons]
      exact ⟨.inr, fun h => h.resolve_left hne⟩

theorem mem_entries {m : OrderedMap κ α} {k : κ} {v : α} : (k, v) ∈ m.entries ↔ m.get? k = some v :=
  (lookupIn_eq_some m.nodup).symm

theorem mem_keys {m : OrderedMap κ α} {k : κ} : k ∈ m.keys ↔ ∃ v, m.get? k = some v := by
  simp only [keys, List.mem_map, ← mem_entries, Prod.exists, exists_and_right, exists_eq_right]

theorem get?_eq_none {m : OrderedMap κ α} {k : κ} : m.get? k = none ↔ k ∉ m.keys := by
  rw [mem_keys, not_exists, Option.eq_none_iff_forall_ne_some]

theorem mem_keys_insert {m : OrderedMap κ α} {k k' : κ} {v : α} : k' ∈ (m.insert k v).keys ↔ k' = k ∨ k' ∈ m.keys := by
  rw [mem_keys, mem_keys, get?_insert]
  by_cases hk : k = k'
  · simp [hk]
  · have hk' : ¬ k' = k := fun h => hk h.symm
    simp [hk, hk']

theorem mem_keys_ofList {es : List (κ × α)} {k : κ} : k ∈ (ofList es).keys ↔ k ∈ es.map Prod.fst := by
  have hfold : ∀ m : OrderedMap κ α,
      k ∈ (es.foldl (fun m e => m.insert e.1 e.2) m).keys ↔ k ∈ m.keys ∨ k ∈ es.map Prod.fst := by
    induction es with
    | nil => simp
    | cons e rest ih =>
      intro m
      rw [List.foldl_cons, ih, mem_keys_insert, List.map_cons, List.mem_cons, or_assoc, or_left_comm]
  refine (hfold empty).trans ?_
  simp [keys, empty]

theorem lookupIn_map (f : κ → α → β) (entries : List (κ × α)) (k : κ) :
    lookupIn k (entries.map fun e => (e.1, f e.1 e.2)) = (lookupIn k entries).map (f k) := by
  induction entries with
  | nil => rfl
  | cons e rest ih =>
    by_cases hk : e.1 = k
    · subst hk
      simp [lookupIn]
    · simp [lookupIn, hk, ih]

theorem lookupIn_map_keys {κ' : Type} [DecidableEq κ'] {change : κ → κ'} (hc : ∀ a b, change a = change b → a = b)
    (entries : List (κ × α)) (k : κ) :
    lookupIn (change k) (entries.map fun e => (change e.1, e.2)) = lookupIn k entries := by
  induction entries with
  | nil => rfl
  | cons e rest ih =>
    by_cases hk : e.1 = k
    · subst hk
      simp [lookupIn]
    · have hne : ¬ change e.1 = change k := fun h => hk (hc _ _ h)
      simp [lookupIn, hk, hne, ih]

theorem get?_mapValues (f : κ → α → β) (m : OrderedMap κ α) (k : κ) :
    (m.mapValues f).get? k = (m.get? k).map (f k) := lookupIn_map f m.entries k

theorem upsertIn_of_not_mem {k : κ} {es : List (κ × α)} (h : k ∉ es.map Prod.fst) (f : Option α → α) :
    upsertIn k f es = es ++ [(k, f none)] := by
  induction es with
  | nil => rfl
  | cons e rest ih =>
    rw [List.map_cons, List.mem_cons, not_or] at h
    rw [upsertIn, if_neg (Ne.symm h.1), ih h.2, List.cons_append]

theorem entries_upsert_new {m : OrderedMap κ α} {k : κ} (h : k ∉ m.keys) (f : Option α → α) :
    (m.upsert k f).entries = m.entries ++ [(k, f none)] := upsertIn_of_not_mem h f

/-- writes under distinct new keys are put in a row -/
theorem entries_foldl_insert (m : OrderedMap κ α) {es : List (κ × α)} (hd : (m.keys ++ es.map Prod.fst).Nodup) :
    (es.foldl (fun m e => m.insert e.1 e.2) m).entries = m.entries ++ es := by
  induction es generalizing m with
  | nil => exact (List.append_nil _).symm
  | cons e rest ih =>
    have hnew : e.1 ∉ m.keys := fun h => (List.nodup_append.1 hd).2.2 _ h _ List.mem_cons_self rfl
    have hentries : (m.insert e.1 e.2).entries = m.entries ++ [e] := entries_upsert_new hnew _
    rw [List.map_cons, List.append_cons] at hd
    rw [List.foldl_cons, ih (m.insert e.1 e.2) (by rwa [keys, hentries, List.map_append]), hentries,
      List.append_assoc, List.singleton_append]

theorem entries_ofList {es : List (κ × α)} (hd : (es.map Prod.fst).Nodup) : (ofList es).entries = es :=
  entries_foldl_insert empty hd

theorem get?_ofList_eq {es : List (κ × α)} (hd : (es.map Prod.fst).Nodup) (k : κ) :
    (ofList es).get? k = lookupIn k es := congrArg (lookupIn k) (entries_ofList hd)

/-- writes under distinct keys all last -/
theorem get?_ofList {es : List (κ × α)} (hd : (es.map Prod.fst).Nodup) {k : κ} {v : α} :
    (ofList es).get? k = some v ↔ (k, v) ∈ es := by
  rw [get?_ofList_eq hd, lookupIn_eq_some hd]

theorem filter_eq_lookupIn {entries : List (κ × α)} (hd : (entries.map Prod.fst).Nodup) (k : κ) :
    entries.filter (fun e => decide (e.1 = k)) = (lookupIn k entries).toList.map fun v => (k, v) := by
  induction entries with
  | nil => rfl
  | cons e rest ih =>
    obtain ⟨k', w⟩ := e
    rw [List.map_cons, List.nodup_cons] at hd
    by_cases hk : k' = k
    · subst hk
      have hrest : rest.filter (fun e => decide (e.1 = k')) = [] := by
        rw [List.filter_eq_nil_iff]
        intro e he h
        exact hd.1 (List.mem_map.2 ⟨e, he, of_decide_eq_true h⟩)
      simp [lookupIn, hrest]
    · simp [lookupIn, hk, ih hd.2]

/-- the entries under one key are the one that is found there -/
theorem filter_entries (m : OrderedMap κ α) (k : κ) :
    m.entries.filter (fun e => decide (e.1 = k)) = (m.get? k).toList.map fun v => (k, v) :=
  filter_eq_lookupIn m.nodup k

/-- two maps hold the same -/
def Same (m m' : OrderedMap κ α) : Prop := ∀ k, m.get? k = m'.get? k

theorem Same.mem_iff {m m' : OrderedMap κ α} (h : Same m m') (e : κ × α) : e ∈ m.entries ↔ e ∈ m'.entries := by
  rw [mem_entries, mem_entries, h e.1]

/-- what a list of entries has under a key, in order -/
def valuesAt (k : κ) (es : List (κ × α)) : List α := (es.filter fun e => decide (e.1 = k)).map Prod.snd

theorem valuesAt_cons (k : κ) (e : κ × α) (es : List (κ × α)) :
    valuesAt k (e :: es) = if e.1 = k then e.2 :: valuesAt k es else valuesAt k es := by
  by_cases hk : e.1 = k <;> simp [valuesAt, hk]

theorem valuesAt_append (k : κ) (es es' : List (κ × α)) :
    valuesAt k (es ++ es') = valuesAt k es ++ valuesAt k es' := by
  rw [valuesAt, List.filter_append, List.map_append]
  rfl

theorem valuesAt_flatMap {ι : Type} (k : κ) (es : ι → List (κ × α)) (is : List ι) :
    valuesAt k (is.flatMap es) = is.flatMap fun i => valuesAt k (es i) := by
  rw [valuesAt, List.filter_flatMap, List.map_flatMap]
  rfl

theorem valuesAt_entries (m : OrderedMap κ α) (k : κ) : valuesAt k m.entries = (m.get? k).toList := by
  rw [valuesAt, filter_entries, List.map_map]
  exact List.map_id' _

/-- after writes that look at what is there, the values under a key have met one after the other -/
theorem get?_foldl_upsert (f : Option β → α → β) (m : OrderedMap κ β) (es : List (κ × α)) (k : κ) :
    (es.foldl (fun m e => m.upsert e.1 fun earlier => f earlier e.2) m).get? k =
      (valuesAt k es).foldl (fun earlier v => some (f earlier v)) (m.get? k) := by
  induction es generalizing m with
  | nil => rfl
  | cons e rest ih =>
    rw [List.foldl_cons, ih, get?_upsert, valuesAt_cons]
    by_cases hk : e.1 = k
    · subst hk
      simp
    · simp [hk]

/-- of several writes under a key the last one counts -/
theorem get?_ofList_last (es : List (κ × α)) (k : κ) : (ofList es).get? k = (valuesAt k es).getLast? := by
  have hlast : ∀ (vs : List α) (held : Option α), vs.foldl (fun _ v => some v) held = vs.getLast?.or held := by
    intro vs
    induction vs with
    | nil => exact fun _ => rfl
    | cons v rest ih =>
      intro held
      rw [List.foldl_cons, ih, List.getLast?_cons]
      cases rest.getLast? <;> rfl
  exact (get?_foldl_upsert (fun _ v => v) empty es k).trans ((hlast _ _).trans (Option.or_none ..))

/-- what a map holds whose values have all been rewritten -/
theorem tryMap_eq_ok {ε : Type} {f : κ → α → Except ε β} {m : OrderedMap κ α} {m' : OrderedMap κ β}
    (h : m.tryMap f = .ok m') :
    m'.keys = m.keys ∧ ∀ k w, m'.get? k = some w → ∃ v, m.get? k = some v ∧ f k v = .ok w := by
  unfold tryMap at h
  split at h
  · cases h
  · next es he =>
    cases h
    refine ⟨keys_mapValuesM? f m.entries he, fun k w hk => ?_⟩
    obtain ⟨v, hv, hf⟩ := mapValuesM?_eq_ok he k w (mem_entries.2 hk)
    exact ⟨v, mem_entries.1 hv, hf⟩

/-- rewriting every value succeeds if it does for each of them -/
theorem tryMap_total {ε : Type} {f : κ → α → Except ε β} {m : OrderedMap κ α}
    (h : ∀ k v, m.get? k = some v → ∃ w, f k v = .ok w) : ∃ m', m.tryMap f = .ok m' := by
  obtain ⟨es, he⟩ := mapValuesM?_total fun e hm => h e.1 e.2 (mem_entries.1 hm)
  unfold tryMap
  split
  · next hf => rw [he] at hf; cases hf
  · exact ⟨_, rfl⟩

end

end OrderedMap

end InterfacePages
