/-
Merging page maps in groups.

The pages of a merge stand in the order in which their paths first appear among the drafts, and dropping later copies
of a path group by group first does not change that order (`keys_merge`, `Text.distinct_flatMap_distinct`). What stands
on a path gathers all drafts of it, however the merges are nested, so contents are the same, and imports are where the
drafts of the path agree about them (`matches_of_gathers`). A path with one draft is left alone by every merge
(`alone_merge`).
-/
import InterfacePages.Proofs.PageMerging
import InterfacePages.Proofs.SettledImports

namespace InterfacePages

namespace PageMap

open OrderedMap (Same valuesAt)

/-- all fragments of some maps, with their paths -/
def draftsOf (maps : List (Option PageMap)) : List Draft := (maps.filterMap id).flatMap (·.entries)

/-- entries under one key that drafts of one path bring import the same symbol -/
def Agreeing (drafts : List Draft) : Prop :=
  ∀ d ∈ drafts, ∀ d' ∈ drafts, d.1 = d'.1 → ∀ e ∈ d.2.imports.entries, ∀ e' ∈ d'.2.imports.entries, e.1 = e'.1 →
    e.2.imported = e'.2.imported

instance (drafts : List Draft) : Decidable (Agreeing drafts) :=
  inferInstanceAs (Decidable (∀ d ∈ _, ∀ d' ∈ _, _ → ∀ e ∈ _, ∀ e' ∈ _, _ → _))

/-- two maps have the same pages in the same order -/
structure Matches (m m' : PageMap) : Prop where
  keys : m.keys = m'.keys
  contents : ∀ path, (m.get? path).map (·.content) = (m'.get? path).map (·.content)
  imports : ∀ path f f', m.get? path = some f → m'.get? path = some f' → Same f.imports f'.imports

theorem Agreeing.uniform {drafts : List Draft} (h : Agreeing drafts) (path : Text) (k : ImportKey) :
    ImportTable.Uniform (importsAt path drafts) k := by
  intro a b ha hb
  obtain ⟨d, hd, hda⟩ := List.mem_flatMap.1 ha
  obtain ⟨d', hd', hdb⟩ := List.mem_flatMap.1 hb
  obtain ⟨hd, hpath⟩ := List.mem_filter.1 hd
  obtain ⟨hd', hpath'⟩ := List.mem_filter.1 hd'
  exact h d hd d' hd' ((of_decide_eq_true hpath).trans (of_decide_eq_true hpath').symm) _ hda _ hdb rfl

/-! ## Paths -/

theorem keys_grouped (drafts : List Draft) : (grouped drafts).keys = Text.distinct (drafts.map Prod.fst) := by
  induction drafts using List.reverseRecOn with
  | nil => rfl
  | append_singleton rest d ih =>
    rw [grouped_concat, OrderedMap.keys_upsert, ih, List.map_append, Text.distinct_append]
    by_cases hd : d.1 ∈ rest.map Prod.fst
    · simp [Text.distinct, hd]
    · simp [Text.distinct, hd]

theorem keys_merge (maps : List PageMap) :
    (merge maps).keys = Text.distinct ((maps.flatMap (·.entries)).map Prod.fst) :=
  (OrderedMap.keys_mapValues _ _).trans (keys_grouped _)

/-! ## Fragments -/

/-- maps that gather the same drafts have the same pages, if the drafts agree -/
theorem matches_of_gathers {m m' : PageMap} {drafts : List Draft} (hkeys : m.keys = m'.keys)
    (h : Gathers m.entries drafts) (h' : Gathers m'.entries drafts) (ha : Agreeing drafts) : Matches m m' where
  keys := hkeys
  contents path := by
    have hcontents := (h.contents path).trans (h'.contents path).symm
    rw [contentsAt_entries, contentsAt_entries] at hcontents
    have hnone : m.get? path = none ↔ m'.get? path = none := by
      rw [OrderedMap.get?_eq_none, OrderedMap.get?_eq_none, hkeys]
    cases hm : m.get? path with
    | none => rw [hnone.1 hm]
    | some f =>
      cases hm' : m'.get? path with
      | none => rw [hnone.2 hm'] at hm; cases hm
      | some f' =>
        rw [hm, hm'] at hcontents
        exact congrArg some hcontents
  imports path f f' hf hf' := by
    have himports := h.imports path
    have himports' := h'.imports path
    rw [importsAt_entries, hf] at himports
    rw [importsAt_entries, hf'] at himports'
    exact himports.same himports' (ha.uniform path)

/-- the only fragment of a path stands on it after a merge -/
theorem alone_merge {maps : List PageMap} {path : Text} {f : Fragment}
    (h : valuesAt path (maps.flatMap (·.entries)) = [f]) : (merge maps).get? path = some f := by
  rw [merge, get?_mergeWith, h]
  rfl

/-! ## Groups -/

theorem drafts_flatten (groups : List (List PageMap)) :
    groups.flatten.flatMap (·.entries) = groups.flatMap fun maps => maps.flatMap (·.entries) := by
  rw [← List.flatMap_id, List.flatMap_assoc]
  rfl

theorem keys_groups (groups : List (List PageMap)) : (merge (groups.map merge)).keys = (merge groups.flatten).keys := by
  have hgroup : ∀ maps, (merge maps).entries.map Prod.fst = Text.distinct _ := keys_merge
  rw [keys_merge, keys_merge, drafts_flatten, List.flatMap_map, List.map_flatMap, List.map_flatMap]
  simp only [hgroup]
  exact Text.distinct_flatMap_distinct _ groups

theorem gathers_groups (groups : List (List PageMap)) :
    Gathers (merge (groups.map merge)).entries (groups.flatten.flatMap (·.entries)) := by
  have heach : List.Forall₂ (fun m ds => Gathers m.entries ds) (groups.map merge)
      (groups.map fun maps => maps.flatMap (·.entries)) := by
    rw [List.forall₂_map_left_iff, List.forall₂_map_right_iff, List.forall₂_same]
    exact fun maps _ => gathers_flat maps
  rw [drafts_flatten]
  exact gathers_merge heach

/-- what is alone on a path in the end was alone in its group -/
theorem alone_groups {groups : List (List PageMap)} {path : Text} {f : Fragment}
    (h : valuesAt path (groups.flatten.flatMap (·.entries)) = [f]) :
    (merge (groups.map merge)).get? path = some f := by
  refine alone_merge ?_
  rw [drafts_flatten, OrderedMap.valuesAt_flatMap] at h
  rw [List.flatMap_map, OrderedMap.valuesAt_flatMap, ← h]
  refine List.flatMap_congr fun maps hm => ?_
  -- what a group has for the path is part of all there is for it, so it is nothing or the one fragment
  have hsub := List.sublist_flatten_of_mem
    (List.mem_map_of_mem (f := fun maps : List PageMap => valuesAt path (maps.flatMap (·.entries))) hm)
  rw [← List.flatMap_def, h] at hsub
  rw [OrderedMap.valuesAt_entries, merge, get?_mergeWith]
  rcases List.sublist_singleton.1 hsub with hnone | hone
  · rw [hnone]
    rfl
  · rw [hone]
    rfl

/-- **Maps may be merged in groups.** If the drafts of each path agree about their imports, merging groups of maps and
then what they come to gives the same pages in the same order as merging all maps at once: the paths in the order in
which they first appear, on each of them all its contents in order with what is left of its imports, and on a path with
one draft this draft. -/
theorem merged_in_groups (groups : List (List (Option PageMap))) (h : Agreeing (draftsOf groups.flatten)) :
    Matches (mergeGiven (groups.map fun group => some (mergeGiven group))) (mergeGiven groups.flatten) ∧
    (mergeGiven groups.flatten).keys = Text.distinct ((draftsOf groups.flatten).map Prod.fst) ∧
    (∀ path f, (mergeGiven groups.flatten).get? path = some f →
      f.content = Text.joinParagraphs (contentsAt path (draftsOf groups.flatten)) ∧
        ImportTable.Condenses f.imports.entries (importsAt path (draftsOf groups.flatten))) ∧
    ∀ path f, valuesAt path (draftsOf groups.flatten) = [f] →
      (mergeGiven (groups.map fun group => some (mergeGiven group))).get? path = some f ∧
        (mergeGiven groups.flatten).get? path = some f := by
  have hnested : mergeGiven (groups.map fun group => some (mergeGiven group)) =
      merge ((groups.map (List.filterMap id)).map merge) := by
    rw [mergeGiven, List.filterMap_map, List.map_map]
    exact congrArg merge (congrFun (List.filterMap_eq_map (f := mergeGiven)) groups)
  have hflat : mergeGiven groups.flatten = merge (groups.map (List.filterMap id)).flatten := by
    rw [mergeGiven, List.filterMap_flatten]
  have hdrafts : draftsOf groups.flatten = (groups.map (List.filterMap id)).flatten.flatMap (·.entries) := by
    rw [draftsOf, List.filterMap_flatten]
  rw [hnested, hflat]
  rw [hdrafts] at h ⊢
  generalize groups.map (List.filterMap id) = given at h ⊢
  have hgathers := gathers_flat given.flatten
  refine ⟨matches_of_gathers (keys_groups given) (gathers_groups given) hgathers h, keys_merge _, ?_, ?_⟩
  · intro path f hf
    have hcontents := hgathers.contents path
    have himports := hgathers.imports path
    rw [contentsAt_entries, hf] at hcontents
    rw [importsAt_entries, hf] at himports
    exact ⟨hcontents, himports⟩
  · exact fun path f hf => ⟨alone_groups hf, alone_merge hf⟩

/-- pages of two programs: both write the index, one wants a vault as a type and the other one as a value -/
def vaultPages : List (List (Option PageMap)) := [
  [some (page "index.ts" ⟨"vault", ImportTable.create "generatedClient" [⟨"Vault", true, "Vault"⟩]⟩), none,
    some (page "useVault.ts" (.plain "hook"))],
  [none, some (page "index.ts" ⟨[], ImportTable.create "generatedClient" [⟨"Vault", false, "Vault"⟩]⟩)]]

theorem vaultPages_merged :
    Agreeing (draftsOf vaultPages.flatten) ∧
    (mergeGiven (vaultPages.map fun group => some (mergeGiven group))).keys = ["index.ts", "useVault.ts"] ∧
    ((mergeGiven (vaultPages.map fun group => some (mergeGiven group))).get? "index.ts").map (·.content) =
      some "vault\n\n" ∧
    (mergeGiven (vaultPages.map fun group => some (mergeGiven group))).get? "useVault.ts" = some (.plain "hook") := by
  have hagree : Agreeing (draftsOf vaultPages.flatten) := by decide +kernel
  obtain ⟨hsame, hkeys, -, halone⟩ := merged_in_groups vaultPages hagree
  refine ⟨hagree, ?_, ?_, (halone _ _ rfl).1⟩
  · rw [hsame.keys, hkeys]
    decide +kernel
  · rw [hsame.contents]
    decide +kernel

end PageMap

end InterfacePages
