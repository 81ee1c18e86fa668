/-
What merging page maps does to the pages that go in.

A draft is a fragment for a path. `Gathers` relates the drafts a map ends up with to all the drafts that went into it:
the same paths, and at each path the contents of all its drafts, joined with blank lines, and imports that condense
theirs. Like condensing it is a preorder and goes through lists, so it survives any nesting of merges
(`gathers_merge`).
-/
import InterfacePages.PageMap
import InterfacePages.Proofs.ImportMerging

namespace InterfacePages

namespace PageMap

open ImportTable (Entry Condenses)

/-- a fragment for a path -/
abbrev Draft := Text × Fragment

/-- the imports that the drafts of a path ask for -/
def importsAt (path : Text) (drafts : List Draft) : List Entry :=
  (drafts.filter fun d => decide (d.1 = path)).flatMap (·.2.imports.entries)

/-- the contents of the drafts of a path -/
def contentsAt (path : Text) (drafts : List Draft) : List Text :=
  (drafts.filter fun d => decide (d.1 = path)).map (·.2.content)

/-- the first drafts are what is left of the second ones -/
structure Gathers (short long : List Draft) : Prop where
  paths : ∀ path, path ∈ short.map Prod.fst ↔ path ∈ long.map Prod.fst
  contents : ∀ path, Text.joinParagraphs (contentsAt path short) = Text.joinParagraphs (contentsAt path long)
  imports : ∀ path, Condenses (importsAt path short) (importsAt path long)

/-- a map holds what merging leaves of some drafts -/
def Holds (m : PageMap) (ds : List Draft) : Prop := Gathers m.entries ds

variable {short middle long : List Draft}

theorem Gathers.refl (drafts : List Draft) : Gathers drafts drafts :=
  ⟨fun _ => Iff.rfl, fun _ => rfl, fun _ => .refl _⟩

theorem Gathers.trans (h : Gathers short middle) (h' : Gathers middle long) : Gathers short long where
  paths path := (h.paths path).trans (h'.paths path)
  contents path := (h.contents path).trans (h'.contents path)
  imports path := (h.imports path).trans (h'.imports path)

theorem contentsAt_append (path : Text) (drafts drafts' : List Draft) :
    contentsAt path (drafts ++ drafts') = contentsAt path drafts ++ contentsAt path drafts' := by
  simp only [contentsAt, List.filter_append, List.map_append]

theorem contentsAt_eq_nil {path : Text} {drafts : List Draft} :
    contentsAt path drafts = [] ↔ path ∉ drafts.map Prod.fst := by
  simp only [contentsAt, List.map_eq_nil_iff, List.filter_eq_nil_iff, decide_eq_true_eq, List.mem_map, not_exists,
    not_and]

theorem importsAt_append (path : Text) (drafts drafts' : List Draft) :
    importsAt path (drafts ++ drafts') = importsAt path drafts ++ importsAt path drafts' := by
  simp only [importsAt, List.filter_append, List.flatMap_append]

theorem Gathers.append {short' long' : List Draft} (h : Gathers short long) (h' : Gathers short' long') :
    Gathers (short ++ short') (long ++ long') := by
  have hempty : ∀ {es ds : List Draft}, Gathers es ds → ∀ path, contentsAt path es = [] ↔ contentsAt path ds = [] :=
    fun hg path => by rw [contentsAt_eq_nil, contentsAt_eq_nil, hg.paths]
  refine ⟨fun path => ?_, fun path => ?_, fun path => ?_⟩
  · rw [List.map_append, List.map_append, List.mem_append, List.mem_append, h.paths, h'.paths]
  · rw [contentsAt_append, contentsAt_append]
    exact Text.joinWith_append_congr _ (hempty h path) (hempty h' path) (h.contents path) (h'.contents path)
  · rw [importsAt_append, importsAt_append]
    exact (h.imports path).append (h'.imports path)

/-! ## Groups -/

open OrderedMap (valuesAt)

/-- what is left of the fragments of a path -/
def collapse? (join : List Text → Text) : List Fragment → Option Fragment
  | [] => none
  | fs => some (collapse join fs)

theorem grouped_concat (drafts : List Draft) (d : Draft) :
    grouped (drafts ++ [d]) = (grouped drafts).upsert d.1 fun group => group.getD [] ++ [d.2] := by
  rw [grouped, List.foldl_append]
  rfl

theorem get?_mergeWith (join : List Text → Text) (maps : List PageMap) (path : Text) :
    (mergeWith join maps).get? path = collapse? join (valuesAt path (maps.flatMap (·.entries))) := by
  have hgroup : ∀ (fs : List Fragment) (held : Option (List Fragment)), fs ≠ [] →
      fs.foldl (fun earlier f => some (earlier.getD [] ++ [f])) held = some (held.getD [] ++ fs) := by
    intro fs held hne
    induction fs generalizing held with
    | nil => exact absurd rfl hne
    | cons f rest ih =>
      cases rest with
      | nil => rfl
      | cons g rest => rw [List.foldl_cons, ih _ (List.cons_ne_nil g rest)]; simp
  rw [mergeWith, OrderedMap.get?_mapValues, grouped,
    OrderedMap.get?_foldl_upsert (fun earlier f => Option.getD earlier [] ++ [f])]
  cases valuesAt path (maps.flatMap (·.entries)) with
  | nil => rfl
  | cons f rest => rw [hgroup _ _ (List.cons_ne_nil f rest)]; rfl

theorem importsAt_eq (path : Text) (drafts : List Draft) :
    importsAt path drafts = (valuesAt path drafts).flatMap (·.imports.entries) := by
  rw [importsAt, valuesAt, List.flatMap_map]

theorem contentsAt_eq (path : Text) (drafts : List Draft) :
    contentsAt path drafts = (valuesAt path drafts).map (·.content) := by
  rw [contentsAt, valuesAt, List.map_map]
  rfl

theorem condenses_collapse (join : List Text → Text) (fs : List Fragment) :
    Condenses (collapse join fs).imports.entries (fs.flatMap (·.imports.entries)) := by
  unfold collapse
  split
  · next f =>
    rw [List.flatMap_singleton]
    exact .refl _
  · refine (ImportTable.condenses_merge _).trans (.of_mem_iff fun e => ?_)
    simp only [List.flatMap_map]

theorem content_collapse (fs : List Fragment) :
    (collapse Text.joinParagraphs fs).content = Text.joinParagraphs (fs.map (·.content)) := by
  unfold collapse
  split
  · rfl
  · rfl

theorem importsAt_entries (m : PageMap) (path : Text) :
    importsAt path m.entries = (m.get? path).elim [] (·.imports.entries) := by
  rw [importsAt_eq, OrderedMap.valuesAt_entries]
  cases m.get? path <;> simp

theorem contentsAt_entries (m : PageMap) (path : Text) :
    contentsAt path m.entries = ((m.get? path).map (·.content)).toList := by
  rw [contentsAt_eq, OrderedMap.valuesAt_entries]
  cases m.get? path <;> rfl

theorem gathers_flat (maps : List PageMap) : Gathers (merge maps).entries (maps.flatMap (·.entries)) := by
  have hleft : ∀ path, (merge maps).get? path = collapse? _ (valuesAt path (maps.flatMap (·.entries))) :=
    get?_mergeWith _ maps
  refine ⟨fun path => ?_, fun path => ?_, fun path => ?_⟩
  · rw [← not_iff_not, ← contentsAt_eq_nil, ← contentsAt_eq_nil, contentsAt_entries, hleft, contentsAt_eq]
    cases valuesAt path (maps.flatMap (·.entries)) <;> simp [collapse?]
  · rw [contentsAt_entries, hleft, contentsAt_eq]
    cases valuesAt path (maps.flatMap (·.entries)) with
    | nil => rfl
    | cons f rest => exact content_collapse (f :: rest)
  · rw [importsAt_entries, hleft, importsAt_eq]
    cases valuesAt path (maps.flatMap (·.entries)) with
    | nil => exact .refl _
    | cons f rest => exact condenses_collapse _ (f :: rest)

/-- **Merging maps keeps every path with the contents of all drafts on it, and condenses their imports, however the
merges are nested.** -/
theorem gathers_merge {maps : List PageMap} {drafts : List (List Draft)}
    (h : List.Forall₂ (fun m ds => Gathers m.entries ds) maps drafts) :
    Gathers (merge maps).entries drafts.flatten := by
  refine (gathers_flat maps).trans ?_
  induction h with
  | nil => exact .refl _
  | cons hd _ ih =>
    rw [List.flatMap_cons, List.flatten_cons]
    exact hd.append ih

theorem gathers_page (path : Text) (f : Fragment) : Gathers (page path f).entries [(path, f)] := .refl _

theorem gathers_page? (path : Text) (f : Option Fragment) :
    Gathers (page? path f).entries (f.toList.map fun f => (path, f)) := by
  cases f with
  | none => exact .refl _
  | some f => exact .refl _

end PageMap

end InterfacePages
