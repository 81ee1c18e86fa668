/-
What a list of imports means.

Of the items of one list that are used under a name the last one counts (`get?_ofImports`), whatever the others import.
Added in two calls, the items meet under the rule of merging instead, by which an earlier symbol stays unless the later
one is the same as a value. So the two ways agree exactly if under each name that both lists use the last item of the
second list does what both would do in turn (`lists_apart`). They agree about faults in any case: each reads the items in
order and fails with the first one that cannot be read.
-/
import InterfacePages.Import.Item
import InterfacePages.Proofs.SettledImports
import InterfacePages.Proofs.StatelessVisits

namespace InterfacePages

namespace ImportTable

open OrderedMap (Same valuesAt)

/-! ## One list -/

/-- the last import of a list that is used under a name -/
def lastUsed (used : Text) (imports : List Import) : Option Import :=
  (imports.filter fun i => decide (i.used = used)).getLast?

theorem lastUsed_append (used : Text) (is js : List Import) :
    lastUsed used (is ++ js) = (lastUsed used js).or (lastUsed used is) := by
  rw [lastUsed, List.filter_append, List.getLast?_append]
  rfl

theorem get?_ofImports (module used : Text) (imports : List Import) :
    (ofImports module imports).get? ⟨module, used⟩ = (lastUsed used imports).map Import.symbol := by
  rw [ofImports, OrderedMap.get?_ofList_last, valuesAt, List.filter_map, List.map_map, lastUsed, ← List.getLast?_map]
  simp only [Function.comp_def, ImportKey.mk.injEq, true_and]
  rfl

theorem get?_ofImports_elsewhere {module : Text} {k : ImportKey} (h : k.module ≠ module) (imports : List Import) :
    (ofImports module imports).get? k = none := by
  refine OrderedMap.get?_eq_none.2 fun hk => h ?_
  rw [ofImports, OrderedMap.mem_keys_ofList, List.map_map, List.mem_map] at hk
  obtain ⟨_, -, rfl⟩ := hk
  rfl

theorem get?_add (table : ImportTable) (module : Text) (imports : List Import) (k : ImportKey) :
    (add table module imports).get? k =
      settle ((table.get? k).toList ++ ((ofImports module imports).get? k).toList) := by
  rw [add, get?_merge, List.filterMap_cons, List.filterMap_cons, List.filterMap_nil]
  cases table.get? k <;> cases (ofImports module imports).get? k <;> rfl

theorem get?_create (module : Text) (imports : List Import) (k : ImportKey) :
    (create module imports).get? k = (ofImports module imports).get? k := by
  rw [create, get?_add, OrderedMap.get?_empty]
  exact settle_toList _

/-! ## Two lists -/

/-- a later symbol is the same as a value that an earlier one is as a type -/
def Upgrades (earlier later : ImportSymbol) : Prop :=
  earlier.imported = later.imported ∧ earlier.isType = true ∧ later.isType = false

/-- of two symbols that are added to what a name has, the second alone does what both do in turn -/
def Supersedes (held : Option ImportSymbol) (first second : ImportSymbol) : Prop :=
  match held with
  | none => second = first ∨ Upgrades first second
  | some symbol => Upgrades symbol first → Upgrades symbol second

theorem upgrades_iff (earlier later : ImportSymbol) :
    Upgrades earlier later ↔ earlier.isType = true ∧ (later.imported != earlier.imported || later.isType) = false := by
  rw [Bool.or_eq_false_iff, bne_eq_false_iff_eq]
  exact ⟨fun ⟨hi, he, hl⟩ => ⟨he, hi.symm, hl⟩, fun ⟨he, hi, hl⟩ => ⟨hi.symm, he, hl⟩⟩

theorem supersedes_iff (held : Option ImportSymbol) (first second : ImportSymbol) :
    settle (held.toList ++ [second]) = settle (held.toList ++ [first] ++ [second]) ↔ Supersedes held first second := by
  cases held with
  | none =>
    obtain ⟨a, mark⟩ := first
    obtain ⟨b, mark'⟩ := second
    by_cases h : a = b
    · subst h
      cases mark <;> cases mark' <;> simp [settle, Supersedes, Upgrades]
    · simp [settle, Supersedes, Upgrades, h, Ne.symm h]
  | some symbol =>
    obtain ⟨c, mark⟩ := symbol
    simp only [Supersedes, upgrades_iff, settle, Option.toList_some, List.cons_append, List.nil_append, List.all_cons,
      List.all_nil, Bool.and_true, Option.some.injEq, ImportSymbol.mk.injEq, true_and]
    generalize (first.imported != c || first.isType) = firstMark
    generalize (second.imported != c || second.isType) = secondMark
    cases mark <;> cases firstMark <;> cases secondMark <;> simp

/-- how a name stands after a list and after two: alike exactly if the second list's symbol does what both do -/
theorem apart_iff (held first second : Option ImportSymbol) :
    settle (held.toList ++ (second.or first).toList) = settle (held.toList ++ first.toList ++ second.toList) ↔
      ∀ a b, first = some a → second = some b → Supersedes held a b := by
  cases first with
  | none => simp
  | some a =>
    cases second with
    | none => simp
    | some b =>
      refine (supersedes_iff held a b).trans ⟨fun h a' b' ha hb => ?_, fun h => h a b rfl rfl⟩
      cases ha
      cases hb
      exact h

theorem get?_ofImports_append (module : Text) (is js : List Import) (k : ImportKey) :
    (ofImports module (is ++ js)).get? k = ((ofImports module js).get? k).or ((ofImports module is).get? k) := by
  obtain ⟨m, used⟩ := k
  by_cases hm : m = module
  · subst hm
    rw [get?_ofImports, get?_ofImports, get?_ofImports, lastUsed_append]
    cases lastUsed used js <;> rfl
  · rw [get?_ofImports_elsewhere hm, get?_ofImports_elsewhere hm, get?_ofImports_elsewhere hm]
    rfl

/-- under each name that both lists use, the last symbol of the second one does what the last ones of both do in turn -/
def SupersedesAll (held : Text → Option ImportSymbol) (is js : List Import) : Prop :=
  ∀ used i j, lastUsed used is = some i → lastUsed used js = some j → Supersedes (held used) i.symbol j.symbol

/-- two tables that differ at most by what two lists leave under their names are the same if the second supersedes the
first under each of them -/
theorem same_apart_iff {module : Text} {is js : List Import} (held : ImportTable) {whole parts : ImportTable}
    (hwhole : ∀ k, whole.get? k = settle ((held.get? k).toList ++ ((ofImports module (is ++ js)).get? k).toList))
    (hparts : ∀ k, parts.get? k = settle ((held.get? k).toList ++ ((ofImports module is).get? k).toList ++
      ((ofImports module js).get? k).toList)) :
    Same whole parts ↔ SupersedesAll (fun used => held.get? ⟨module, used⟩) is js := by
  simp only [Same, hwhole, hparts, get?_ofImports_append, apart_iff]
  constructor
  · intro h used i j hi hj
    exact h ⟨module, used⟩ i.symbol j.symbol (by rw [get?_ofImports, hi]; rfl) (by rw [get?_ofImports, hj]; rfl)
  · rintro h ⟨m, used⟩ a b ha hb
    by_cases hm : m = module
    · subst hm
      rw [get?_ofImports, Option.map_eq_some_iff] at ha hb
      obtain ⟨i, hi, rfl⟩ := ha
      obtain ⟨j, hj, rfl⟩ := hb
      exact h used i j hi hj
    · rw [get?_ofImports_elsewhere hm] at ha
      cases ha

theorem add_apart_iff (table : ImportTable) (module : Text) (is js : List Import) :
    Same (add table module (is ++ js)) (add (add table module is) module js) ↔
      SupersedesAll (fun used => table.get? ⟨module, used⟩) is js := by
  refine same_apart_iff table (fun k => get?_add ..) fun k => ?_
  rw [get?_add, get?_add, settle_append]

theorem create_apart_iff (module : Text) (is js : List Import) :
    Same (create module (is ++ js)) (merge [create module is, create module js]) ↔
      SupersedesAll (fun _ => none) is js := by
  refine same_apart_iff OrderedMap.empty (fun k => get?_add ..) fun k => ?_
  rw [get?_merge, List.filterMap_cons, List.filterMap_cons, List.filterMap_nil, get?_create, get?_create]
  cases (ofImports module is).get? k <;> cases (ofImports module js).get? k <;> rfl

/-! ## Items -/

/-- two outcomes that begin with the same two readings agree exactly if what is made of the readings does -/
theorem agree_read {ε ι ι' ρ : Type} {R : ρ → ρ → Prop} {x : Except ε ι} {y : Except ε ι'} {f g : ι → ι' → ρ} :
    Agree R (do return f (← x) (← y)) (do return g (← x) (← y)) ↔ ∀ a b, x = .ok a → y = .ok b → R (f a b) (g a b) := by
  cases x with
  | error e => exact ⟨fun _ _ _ ha => (nomatch ha), fun _ => .error e⟩
  | ok a =>
    cases y with
    | error e => exact ⟨fun _ _ _ _ hb => (nomatch hb), fun _ => .error e⟩
    | ok b =>
      refine ⟨fun h a' b' ha hb => ?_, fun h => .ok (h a b rfl rfl)⟩
      cases ha
      cases hb
      cases h with
      | ok h => exact h

theorem addItems_append (table : ImportTable) (module : Text) (xs ys : List ImportItem) :
    addItems table module (xs ++ ys) =
      (do return add table module ((← xs.mapM ImportItem.read) ++ (← ys.mapM ImportItem.read))) := by
  unfold addItems
  rw [List.mapM_append]
  simp only [bind_assoc, pure_bind]

theorem addItems_addItems (table : ImportTable) (module : Text) (xs ys : List ImportItem) :
    (do addItems (← addItems table module xs) module ys) =
      (do return add (add table module (← xs.mapM ImportItem.read)) module (← ys.mapM ImportItem.read)) := by
  unfold addItems
  simp only [bind_assoc, pure_bind]

theorem merge_createItems (module : Text) (xs ys : List ImportItem) :
    (do return merge [← createItems (some module) xs, ← createItems (some module) ys]) =
      (do return merge [create module (← xs.mapM ImportItem.read), create module (← ys.mapM ImportItem.read)]) := by
  unfold createItems addItems
  simp only [bind_assoc, pure_bind]
  rfl

/-- **When a list of imports means the merge of two lists.** Both ways of adding the items fail alike, and otherwise have
the same entries exactly if the second list supersedes the first under each name that both use. What a list means is
its last item under each name. -/
theorem lists_apart (module : Text) (xs ys : List ImportItem) :
    (Agree Same (createItems (some module) (xs ++ ys))
        (do return merge [← createItems (some module) xs, ← createItems (some module) ys]) ↔
      ∀ is js, xs.mapM ImportItem.read = .ok is → ys.mapM ImportItem.read = .ok js →
        SupersedesAll (fun _ => none) is js) ∧
    (∀ table, Agree Same (addItems table module (xs ++ ys)) (do addItems (← addItems table module xs) module ys) ↔
      ∀ is js, xs.mapM ImportItem.read = .ok is → ys.mapM ImportItem.read = .ok js →
        SupersedesAll (fun used => table.get? ⟨module, used⟩) is js) ∧
    (∀ is, xs.mapM ImportItem.read = .ok is → ∃ table, createItems (some module) xs = .ok table ∧
      ∀ used, table.get? ⟨module, used⟩ = (lastUsed used is).map Import.symbol) ∧
    Agree Same (createItems none (xs ++ ys)) (do return merge [← createItems none xs, ← createItems none ys]) := by
  refine ⟨?_, fun table => ?_, fun is his => ?_, .ok fun _ => rfl⟩
  · rw [merge_createItems, createItems, addItems_append, agree_read]
    exact forall₄_congr fun is js _ _ => create_apart_iff module is js
  · rw [addItems_append, addItems_addItems, agree_read]
    exact forall₄_congr fun is js _ _ => add_apart_iff table module is js
  · refine ⟨create module is, ?_, fun used => (get?_create module is _).trans (get?_ofImports module used is)⟩
    rw [createItems, addItems, his]
    rfl

theorem agree_get? {x y : Except Fault ImportTable} (h : Agree Same x y) (k : ImportKey) :
    x.toOption.bind (·.get? k) = y.toOption.bind (·.get? k) := by
  cases h with
  | ok h => exact h k
  | error e => rfl

/-- **A later type takes a value back.** In one list the hook is wanted as a type only, in two it is wanted as a value. -/
theorem later_type_takes_back :
    (createItems (some "react") ([.written "useMemo"] ++ [.written "type useMemo"])).toOption.bind
        (·.get? ⟨"react", "useMemo"⟩) = some ⟨"useMemo", true⟩ ∧
      ¬ Agree Same (createItems (some "react") ([.written "useMemo"] ++ [.written "type useMemo"]))
        (do return merge [← createItems (some "react") [.written "useMemo"],
          ← createItems (some "react") [.written "type useMemo"]]) :=
  ⟨by decide +kernel, fun h => absurd (agree_get? h ⟨"react", "useMemo"⟩) (by decide +kernel)⟩

end ImportTable

end InterfacePages
