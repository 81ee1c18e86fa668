/-
What a merge of import tables holds, and which merges may be regrouped.

Under each key the symbols of the tables meet in order, and one is left of them (`get?_merge`): the first one, as a type
only if every one of them that is the same symbol is (`settle`). Settling a beginning first changes nothing
(`settle_append`), so a merge may go on from a merge.

Where all symbols that meet are the same, only which ones there are counts (`merge_same`): the tables may be merged in
any order, in groups and several times. Where they are not, groups do count, as the example after `merge_regroups` shows.
-/
import InterfacePages.Proofs.ImportMerging

namespace InterfacePages

namespace ImportTable

open OrderedMap (Same valuesAt)

/-! ## Settling -/

/-- what is left of symbols that meet under a key: the first one, as a type only if all that are the same symbol are -/
def settle : List ImportSymbol → Option ImportSymbol
  | [] => none
  | first :: rest => some ⟨first.imported, (first :: rest).all fun s => s.imported != first.imported || s.isType⟩

theorem prefer_some (s t : ImportSymbol) :
    prefer (some s) t = ⟨s.imported, s.isType && (t.imported != s.imported || t.isType)⟩ := by
  obtain ⟨name, mark⟩ := s
  obtain ⟨name', mark'⟩ := t
  by_cases h : name = name'
  · subst h
    cases mark <;> cases mark' <;> simp [prefer]
  · simp [prefer, h, Ne.symm h]

theorem settle_toList (held : Option ImportSymbol) : settle held.toList = held := by
  cases held with
  | none => rfl
  | some s => simp [settle]

theorem settle_append (a b : List ImportSymbol) : settle ((settle a).toList ++ b) = settle (a ++ b) := by
  cases a with
  | nil => rfl
  | cons first rest => simp [settle, Bool.and_assoc]

theorem foldl_prefer (held : Option ImportSymbol) (later : List ImportSymbol) :
    later.foldl (fun earlier s => some (prefer earlier s)) held = settle (held.toList ++ later) := by
  induction later generalizing held with
  | nil => rw [List.foldl_nil, List.append_nil, settle_toList]
  | cons s later ih =>
    have hstep : some (prefer held s) = settle (held.toList ++ [s]) := by
      cases held with
      | none => exact (settle_toList (some s)).symm
      | some first => simp [prefer_some, settle]
    rw [List.foldl_cons, ih, hstep, settle_append, List.append_assoc]
    rfl

theorem get?_absorbAll (table : ImportTable) (es : List Entry) (k : ImportKey) :
    (absorbAll table es).get? k = settle ((table.get? k).toList ++ valuesAt k es) :=
  (OrderedMap.get?_foldl_upsert prefer table es k).trans (foldl_prefer _ _)

theorem valuesAt_tables (tables : List ImportTable) (k : ImportKey) :
    valuesAt k (tables.flatMap (·.entries)) = tables.filterMap (·.get? k) := by
  induction tables with
  | nil => rfl
  | cons table rest ih =>
    rw [List.flatMap_cons, OrderedMap.valuesAt_append, OrderedMap.valuesAt_entries, ih, List.filterMap_cons]
    cases table.get? k <;> rfl

/-- **A merge holds what is left of the symbols of its tables.** -/
theorem get?_merge (tables : List ImportTable) (k : ImportKey) :
    (merge tables).get? k = settle (tables.filterMap (·.get? k)) := by
  rw [merge_eq_absorbAll, get?_absorbAll, valuesAt_tables]
  rfl

theorem settle_eq_some {symbols : List ImportSymbol} {s : ImportSymbol} (h : settle symbols = some s) :
    (∃ first, symbols.head? = some first ∧ s.imported = first.imported) ∧
      (s.isType = true ↔ ∀ t ∈ symbols, t.imported = s.imported → t.isType = true) := by
  cases symbols with
  | nil => cases h
  | cons first rest =>
    cases h
    refine ⟨⟨first, rfl, rfl⟩, ?_⟩
    simp only [List.all_eq_true, Bool.or_eq_true, bne_iff_ne, ne_eq, or_iff_not_imp_left, not_not]

theorem settle_isSome {symbols : List ImportSymbol} : (settle symbols).isSome = true ↔ symbols ≠ [] := by
  cases symbols <;> simp [settle]

/-! ## Regrouping -/

/-- entries whose keys a change brings together import the same symbol -/
def AgreeUnder (change : ImportKey → ImportKey) (tables : List ImportTable) : Prop :=
  ∀ e ∈ tables.flatMap (·.entries), ∀ e' ∈ tables.flatMap (·.entries), change e.1 = change e'.1 →
    e.2.imported = e'.2.imported

instance (change : ImportKey → ImportKey) (tables : List ImportTable) : Decidable (AgreeUnder change tables) :=
  inferInstanceAs (Decidable (∀ e ∈ _, ∀ e' ∈ _, _ → _))

theorem AgreeUnder.uniform {change : ImportKey → ImportKey} {tables : List ImportTable} (h : AgreeUnder change tables)
    (k : ImportKey) : Uniform ((tables.flatMap (·.entries)).map fun e => (change e.1, e.2)) k := by
  intro a b ha hb
  obtain ⟨e, he, hea⟩ := List.mem_map.1 ha
  obtain ⟨e', he', heb⟩ := List.mem_map.1 hb
  obtain ⟨hk, rfl⟩ := Prod.mk.inj hea
  obtain ⟨hk', rfl⟩ := Prod.mk.inj heb
  exact h e he e' he' (hk.trans hk'.symm)

/-- tables to which the same entries condense are the same, if these agree -/
theorem Condenses.same {table table' : ImportTable} {long : List Entry} (h : Condenses table.entries long)
    (h' : Condenses table'.entries long) (hu : ∀ k, Uniform long k) : Same table table' := by
  have hkept : ∀ {t t' : ImportTable}, Condenses t.entries long → Condenses t'.entries long →
      ∀ k a, t.get? k = some a → t'.get? k = some a := by
    intro t t' ht ht' k a ha
    obtain ⟨b, hb, hba⟩ := ht.source k a (OrderedMap.mem_entries.2 ha)
    obtain ⟨c, hc⟩ := ht'.kept k b hb
    obtain ⟨d, hd, hdc⟩ := ht'.source k c hc
    rw [OrderedMap.mem_entries] at hc
    have himported : a.imported = c.imported := by rw [← hba, ← hdc, hu k b d hb hd]
    have hmark : a.isType = c.isType := by
      rw [Bool.eq_iff_iff, ← typeOnly_entries ha, ← typeOnly_entries hc, ht.mark k (hu k), ht'.mark k (hu k)]
    have hac : a = c := congr (congrArg ImportSymbol.mk himported) hmark
    rw [hc, hac]
  exact fun k => Option.ext fun a => ⟨hkept h h' k a, hkept h' h k a⟩

/-- merging groups first loses nothing either -/
theorem condenses_groups (groups : List (List ImportTable)) :
    Condenses (merge (groups.map merge)).entries (groups.flatten.flatMap (·.entries)) := by
  have hgroups := condenses_flatMap fun group (_ : group ∈ groups) => condenses_merge group
  have hflat : groups.flatten.flatMap (·.entries) = groups.flatMap fun group => group.flatMap (·.entries) := by
    rw [← List.flatMap_id, List.flatMap_assoc]
    rfl
  rw [hflat]
  refine (condenses_merge _).trans ?_
  rwa [List.flatMap_map]

/-- what merges come to when their entries are the same and agree -/
theorem merge_same {table : ImportTable} {tables : List ImportTable} {es : List Entry} (h : AgreeUnder id tables)
    (hc : Condenses table.entries es) (he : ∀ e, e ∈ es ↔ e ∈ tables.flatMap (·.entries)) :
    Same table (merge tables) :=
  (hc.trans (.of_mem_iff he)).same (condenses_merge tables) fun k => by simpa using h.uniform k

/-- **Tables that agree may be merged in any order, in groups and again; all tables may be merged on from a merge.** A
merge is what is left of the symbols under each key. -/
theorem merge_regroups (xs : List ImportTable) :
    (∀ k, (merge xs).get? k = settle (xs.filterMap (·.get? k))) ∧
    (AgreeUnder id xs →
      (∀ ys, ys.Perm xs → Same (merge ys) (merge xs)) ∧
      (∀ groups : List (List ImportTable), groups.flatten = xs → Same (merge (groups.map merge)) (merge xs)) ∧
      ∀ ys, ys ⊆ xs → Same (merge (xs ++ ys)) (merge xs)) ∧
    ∀ ys, Same (merge (merge xs :: ys)) (merge (xs ++ ys)) := by
  refine ⟨get?_merge xs, fun h => ⟨fun ys hys => ?_, fun groups hg => ?_, fun ys hys => ?_⟩, fun ys k => ?_⟩
  · exact merge_same h (condenses_merge ys) fun e => (hys.flatMap_right _).mem_iff
  · subst hg
    exact merge_same h (condenses_groups groups) fun e => Iff.rfl
  · refine merge_same h (condenses_merge (xs ++ ys)) fun e => ?_
    rw [List.flatMap_append, List.mem_append, or_iff_left_of_imp]
    intro he
    obtain ⟨table, ht, he⟩ := List.mem_flatMap.1 he
    exact List.mem_flatMap.2 ⟨table, hys ht, he⟩
  · have hcons : (merge xs :: ys).filterMap (·.get? k) = ((merge xs).get? k).toList ++ ys.filterMap (·.get? k) := by
      rw [List.filterMap_cons]
      cases (merge xs).get? k <;> rfl
    rw [get?_merge, hcons, get?_merge, settle_append, get?_merge, List.filterMap_append]

/-- what three hooks ask for: a vault, once as a type and once as a value, its seal, and the type of addresses -/
def vaultNeeds : List ImportTable := [
  create "generatedClient" [⟨"Vault", true, "Vault"⟩],
  create "generatedClient" [⟨"Vault", false, "Vault"⟩, ⟨"VaultSeal", true, "Seal"⟩],
  create "solanaAddresses" [⟨"Address", true, "Address"⟩]]

theorem vault_regrouped : AgreeUnder id vaultNeeds ∧
    (merge vaultNeeds).get? ⟨"generatedClient", "Vault"⟩ = some ⟨"Vault", false⟩ ∧
    Same (merge vaultNeeds.reverse) (merge vaultNeeds) ∧
    Same (merge ([vaultNeeds.take 1, vaultNeeds.drop 1].map merge)) (merge vaultNeeds) ∧
    Same (merge (vaultNeeds ++ vaultNeeds.reverse)) (merge vaultNeeds) := by
  have hagree : AgreeUnder id vaultNeeds := by decide +kernel
  obtain ⟨horder, hgroups, hagain⟩ := (merge_regroups vaultNeeds).2.1 hagree
  refine ⟨hagree, by decide +kernel, horder _ (List.reverse_perm _), hgroups _ ?_,
    hagain _ (List.reverse_subset.2 fun _ h => h)⟩
  rw [List.flatten_cons, List.flatten_cons, List.flatten_nil, List.append_nil, List.take_append_drop]

/-- two symbols under one name: the type waits for its value in vain if the other symbol comes first in its group -/
example :
    let counterType := create "generatedClient" [⟨"Counter", true, "Item"⟩]
    let other := create "generatedClient" [⟨"Other", false, "Item"⟩]
    let counter := create "generatedClient" [⟨"Counter", false, "Item"⟩]
    (merge [counterType, other, counter]).get? ⟨"generatedClient", "Item"⟩ = some ⟨"Counter", false⟩ ∧
      (merge [counterType, merge [other, counter]]).get? ⟨"generatedClient", "Item"⟩ = some ⟨"Counter", true⟩ := by
  decide +kernel

end ImportTable

end InterfacePages
