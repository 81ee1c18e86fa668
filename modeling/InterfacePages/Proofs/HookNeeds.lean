/-
What a hook's import table has of what the hook needs.

A hook names its needs as texts in the syntax of imports, made of the names of nodes. Spelled names have no white space
in them, so each of these texts is read as it was meant (`usedIn_name`, `usedIn_type`), and the table has one key for
each symbol (`withImports_eq_ok`).
-/
import InterfacePages.Hooks.Piece
import InterfacePages.Proofs.Action
import InterfacePages.Proofs.ImportMerging
import InterfacePages.Proofs.ImportSyntax
import InterfacePages.Proofs.LinkTables

namespace InterfacePages

namespace Import

open Name (Unspaced)

/-- the name under which a symbol is used, of its text in the syntax of imports -/
def usedIn (t : Text) : Text := ((parse? t).map (·.used)).getD []

theorem usedIn_of_parse {t : Text} {i : Import} (h : parse t = .ok i) : usedIn t = i.used := by
  unfold parse at h
  split at h
  · next hi =>
    cases h
    rw [usedIn, hi]
    rfl
  · cases h

variable {t : Text}

theorem usedIn_name (ht : Unspaced t) : usedIn t = t := by
  by_cases hne : t = []
  · subst hne
    rfl
  · have hword : IsWord t := ⟨hne, ht⟩
    have htext : (⟨t, false, t⟩ : Import).text = t := by simp [text]
    have hparse := parse_text (i := ⟨t, false, t⟩) hword hword
    rw [htext] at hparse
    exact usedIn_of_parse hparse

/-- of a type without a name there is only the mark left -/
theorem usedIn_type (ht : Unspaced t) : usedIn ("type " ++ t) = if t.isEmpty then Text.ofString "type" else t := by
  by_cases hne : t = []
  · subst hne
    decide
  · have hword : IsWord t := ⟨hne, ht⟩
    have htext : (⟨t, true, t⟩ : Import).text = "type " ++ t := by simp [text, typeMark]
    have hparse := parse_text (i := ⟨t, true, t⟩) hword hword
    rw [htext] at hparse
    rw [usedIn_of_parse hparse, List.isEmpty_eq_false_iff.2 hne]
    rfl

end Import

namespace Hooks

/-- the keys of an import table for the symbols of one alias -/
def keysOf (need : Text × List Text) : List ImportKey := need.2.map fun t => ⟨need.1, Import.usedIn t⟩

def neededKeys (needs : Needs) : List ImportKey := needs.flatMap keysOf

@[simp]
theorem neededKeys_nil : neededKeys [] = [] := rfl

@[simp]
theorem neededKeys_cons (need : Text × List Text) (needs : Needs) :
    neededKeys (need :: needs) = keysOf need ++ neededKeys needs := rfl

@[simp]
theorem neededKeys_append (needs needs' : Needs) : neededKeys (needs ++ needs') = neededKeys needs ++ neededKeys needs' :=
  List.flatMap_append

@[simp]
theorem keysOf_append (name : Text) (symbols symbols' : List Text) :
    keysOf (name, symbols ++ symbols') = keysOf (name, symbols) ++ keysOf (name, symbols') := List.map_append

theorem mem_keysOf {need : Text × List Text} {k : ImportKey} :
    k ∈ keysOf need ↔ k.module = need.1 ∧ ∃ t ∈ need.2, Import.usedIn t = k.used := by
  obtain ⟨module, used⟩ := k
  simp only [keysOf, List.mem_map, ImportKey.mk.injEq]
  constructor
  · rintro ⟨t, ht, rfl, hused⟩
    exact ⟨rfl, t, ht, hused⟩
  · rintro ⟨rfl, t, ht, hused⟩
    exact ⟨t, ht, rfl, hused⟩

theorem addImports_eq_ok {f g : Fragment} {module : Text} {symbols : List Text}
    (h : f.addImports module symbols = .ok g) :
    g.content = f.content ∧
      ∀ k, k ∈ g.imports.keys ↔ k ∈ f.imports.keys ∨ k ∈ keysOf (module, symbols) := by
  obtain ⟨table, htable, h⟩ := except_bind_ok.1 h
  cases h
  obtain ⟨is, his, htable⟩ := except_bind_ok.1 htable
  cases htable
  refine ⟨rfl, fun k => ?_⟩
  have hused : symbols.map Import.usedIn = is.map (·.used) := by
    rw [← List.forall₂_eq_eq_eq]
    exact List.forall₂_map_left_iff.2 (List.forall₂_map_right_iff.2 ((mapM_eq_ok.1 his).imp fun _ _ => Import.usedIn_of_parse))
  have hkeys : keysOf (module, symbols) = is.map fun i => ⟨module, i.used⟩ := by
    have h := congrArg (List.map (ImportKey.mk module)) hused
    rwa [List.map_map, List.map_map] at h
  rw [ImportTable.mem_keys_add, hkeys, List.mem_map]

theorem addAll_eq_ok {start f : Fragment} {needs : Needs}
    (h : needs.foldlM (fun f need => f.addImports need.1 need.2) start = .ok f) :
    f.content = start.content ∧ ∀ k, k ∈ f.imports.keys ↔ k ∈ start.imports.keys ∨ k ∈ neededKeys needs := by
  induction needs generalizing start with
  | nil =>
    cases h
    exact ⟨rfl, fun k => by simp⟩
  | cons need rest ih =>
    rw [List.foldlM_cons] at h
    obtain ⟨next, hnext, h⟩ := except_bind_ok.1 h
    obtain ⟨hcontent, hkeys⟩ := addImports_eq_ok hnext
    obtain ⟨hcontent', hkeys'⟩ := ih h
    refine ⟨hcontent'.trans hcontent, fun k => ?_⟩
    rw [hkeys', hkeys, neededKeys_cons, List.mem_append, or_assoc]

/-- **A hook's table has one key for each symbol that the hook needs.** -/
theorem withImports_eq_ok {lines : List Text} {needs : Needs} {f : Fragment} (h : withImports lines needs = .ok f) :
    f.content = Text.joinLines lines ∧ ∀ k, k ∈ f.imports.keys ↔ k ∈ neededKeys needs := by
  obtain ⟨hcontent, hkeys⟩ := addAll_eq_ok h
  refine ⟨hcontent, fun k => (hkeys k).trans ?_⟩
  simp [Fragment.plain, OrderedMap.keys, OrderedMap.empty]

end Hooks

end InterfacePages
