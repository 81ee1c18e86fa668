/-
Import statements as a canonical form of import tables.

The statements of a table are in order: those of relative modules before those of packages, modules and names used
strictly increasing (`statementOrder_increasing`, `sortedImportsOf_increasing`). There is one such order, so tables that
hold the same have the same statements, in whatever order their entries came (`lines_congr`).

Statements can be read back. A specifier without quotes stands after the last quote but one, names without commas stand
between commas, and each symbol is read back by the syntax of imports, whatever its names are (`readLine?_lineText`). So
the text of a printable table gives its statements (`readText?_text`), and with them its entries.
-/
import InterfacePages.Proofs.ImportMerging
import InterfacePages.Proofs.ImportSyntax

namespace InterfacePages

namespace Text

def before? (ending t : Text) : Option Text := (after? ending.reverse t.reverse).map List.reverse

/-- what stands before and after the last occurrence of a code point -/
def cutLast? (separator : Nat) (t : Text) : Option (Text × Text) :=
  (cut? separator t.reverse).map fun cut => (cut.2.reverse, cut.1.reverse)

theorem before?_append (ending t : Text) : before? ending (t ++ ending) = some t := by
  rw [before?, List.reverse_append, after?_append, Option.map_some, List.reverse_reverse]

theorem cutLast?_append {separator : Nat} {after : Text} (h : separator ∉ after) (before : Text) :
    cutLast? separator (before ++ separator :: after) = some (before, after) := by
  have hcut : cut? separator (before ++ separator :: after).reverse = some (after.reverse, before.reverse) := by
    refine cut?_eq_some.2 ⟨by simp, ?_⟩
    simpa using h
  rw [cutLast?, hcut]
  simp

/-- pieces that were joined with commas and spaces are taken apart at the commas; the spaces stay -/
theorem splitOn_listed {piece : Text} {pieces : List Text} (h : ∀ p ∈ piece :: pieces, 44 ∉ p) :
    splitOn 44 (joinWith ", " (piece :: pieces)) = piece :: pieces.map (32 :: ·) := by
  induction pieces generalizing piece with
  | nil => exact splitOn_of_not_mem (h piece List.mem_cons_self)
  | cons next rest ih =>
    rw [List.forall_mem_cons, List.forall_mem_cons] at h
    obtain ⟨hpiece, hnext, hrest⟩ := h
    have hjoin : joinWith ", " (piece :: next :: rest) = piece ++ 44 :: joinWith ", " ((32 :: next) :: rest) := by
      cases rest <;> rfl
    have hspaced : ∀ p ∈ (32 :: next) :: rest, 44 ∉ p := by
      rw [List.forall_mem_cons]
      exact ⟨by simpa using hnext, hrest⟩
    rw [hjoin, splitOn_append_cons, splitOn_of_not_mem hpiece, ih hspaced]
    rfl

end Text

namespace Import

theorem not_mem_text {c : Nat} (htype : c ∉ typeMark) (hused : c ∉ aliasMark) {i : Import} (himported : c ∉ i.imported)
    (h : c ∉ i.used) : c ∉ i.text := by
  unfold Import.text
  cases i.isType <;> by_cases hsame : i.used = i.imported <;> simp [htype, hused, himported, h, hsame]

theorem parse?_text {i : Import} (himported : IsWord i.imported) (hused : IsWord i.used) : parse? i.text = some i := by
  have h := parse_text himported hused
  unfold parse at h
  split at h
  · next hi => rw [hi, Except.ok.inj h]
  · cases h

end Import

namespace ImportTable

open OrderedMap (Same)
open Import (IsWord)

/-! ## Order -/

theorem importsOf_used (table : ImportTable) (module : Text) :
    (table.sortedImportsOf module).map (·.used) = Text.sorted ((table.importsOf module).map (·.used)) := by
  unfold sortedImportsOf
  rw [List.map_filterMap]
  have hfound : ∀ used ∈ Text.sorted ((table.importsOf module).map (·.used)),
      ((table.importsOf module).find? (·.used == used)).map (·.used) = some used := by
    intro used hused
    obtain ⟨i, hi, rfl⟩ := List.mem_map.1 (Text.mem_sorted.1 hused)
    rw [find?_used (nodup_used table module) hi, Option.map_some]
  rw [List.filterMap_congr hfound, List.filterMap_some]

theorem sortedImportsOf_increasing (table : ImportTable) (module : Text) :
    ((table.sortedImportsOf module).map (·.used)).Pairwise fun a b => Text.lt a b = true := by
  rw [importsOf_used]
  exact Text.sorted_increasing (nodup_used table module)

theorem statementOrder_increasing (table : ImportTable) :
    ∃ relative packages, table.statementOrder = relative ++ packages ∧
      (∀ module ∈ relative, isRelative module = true) ∧ (∀ module ∈ packages, isRelative module = false) ∧
      relative.Pairwise (fun a b => Text.lt a b = true) ∧ packages.Pairwise fun a b => Text.lt a b = true := by
  have hsorted := Text.sorted_increasing (Text.nodup_distinct (table.keys.map (·.module)))
  refine ⟨_, _, rfl, fun module h => (List.mem_filter.1 h).2, fun module h => ?_, hsorted.filter _, hsorted.filter _⟩
  simpa using (List.mem_filter.1 h).2

theorem lt_irrefl_of {a b : Text} (h : Text.lt a b = true) (h' : Text.lt b a = true) : False := by
  simp only [Text.lt, Bool.and_eq_true, bne_iff_ne] at h h'
  exact h.2 (Text.le_antisymm a b h.1 h'.1)

/-! ## Tables that hold the same -/

variable {t u : ImportTable}

theorem modules_congr (h : Same t u) : t.statementOrder = u.statementOrder := by
  have hmodules : Text.sorted t.modules = Text.sorted u.modules := by
    refine Text.sorted_distinct_congr fun module => ?_
    simp only [OrderedMap.keys, List.map_map, List.mem_map]
    exact exists_congr fun e => and_congr_left fun _ => h.mem_iff e
  unfold statementOrder
  rw [hmodules]

theorem imports_congr (h : Same t u) (module : Text) : t.sortedImportsOf module = u.sortedImportsOf module := by
  have hmem : ∀ i, i ∈ t.importsOf module ↔ i ∈ u.importsOf module := by
    intro i
    rw [mem_importsOf, mem_importsOf, h]
  have hperm : (t.sortedImportsOf module).Perm (u.sortedImportsOf module) := by
    refine (sortedImportsOf_perm t module).trans (.trans ?_ (sortedImportsOf_perm u module).symm)
    exact (List.perm_ext_iff_of_nodup (nodup_used t module).of_map (nodup_used u module).of_map).2 hmem
  refine hperm.eq_of_pairwise (fun a b _ _ hab hba => (lt_irrefl_of hab hba).elim)
    (List.pairwise_map.1 (sortedImportsOf_increasing t module)) (List.pairwise_map.1 (sortedImportsOf_increasing u module))

/-- tables that hold the same have the same statements -/
theorem lines_congr (h : Same t u) : t.lines = u.lines := by
  unfold lines
  rw [modules_congr h]
  exact List.map_congr_left fun module _ => by rw [imports_congr h module]

/-- tables with the same statements hold the same -/
theorem same_of_lines (h : t.lines = u.lines) : Same t u := by
  intro k
  refine Option.ext fun s => ?_
  rw [← OrderedMap.mem_entries, ← OrderedMap.mem_entries, ← (lines_perm t).1.mem_iff, ← (lines_perm u).1.mem_iff, h]

/-! ## Reading statements -/

/-- reads a statement: its module and what is imported from it -/
def readLine? (t : Text) : Option Line := do
  let t ← Text.after? "import \x7b " t
  let t ← Text.before? "';" t
  let (t, module) ← Text.cutLast? 39 t
  let t ← Text.before? " \x7d from " t
  let imports ← (Text.splitOn 44 t).mapM Import.parse?
  return (module, imports)

/-- reads statements, each on a line of its own; without statements the text is empty -/
def readText? (t : Text) : Option (List Line) := if t.isEmpty then some [] else (Text.splitOn 10 t).mapM readLine?

/-- a name that can stand in a statement: a word without commas -/
structure IsIdentifier (t : Text) : Prop where
  word : IsWord t
  commaless : 44 ∉ t

instance (t : Text) : Decidable (IsIdentifier t) :=
  decidable_of_iff (IsWord t ∧ 44 ∉ t) ⟨fun h => ⟨h.1, h.2⟩, fun h => ⟨h.word, h.commaless⟩⟩

/-- a specifier that can stand in quotes on one line -/
structure IsSpecifier (t : Text) : Prop where
  quoteless : 39 ∉ t
  one_line : 10 ∉ t

instance (t : Text) : Decidable (IsSpecifier t) :=
  decidable_of_iff (39 ∉ t ∧ 10 ∉ t) ⟨fun h => ⟨h.1, h.2⟩, fun h => ⟨h.quoteless, h.one_line⟩⟩

/-- a statement that can be read: it imports something -/
structure Readable (line : Line) : Prop where
  imports : line.2 ≠ []
  names : ∀ i ∈ line.2, IsIdentifier i.imported ∧ IsIdentifier i.used
  module : IsSpecifier line.1

theorem mapM_eq_some {α β : Type} {f : α → Option β} {g : β → α} {bs : List β} (h : ∀ b ∈ bs, f (g b) = some b) :
    (bs.map g).mapM f = some bs := by
  induction bs with
  | nil => rfl
  | cons b rest ih =>
    rw [List.forall_mem_cons] at h
    rw [List.map_cons, List.mapM_cons, h.1, ih h.2]
    rfl

theorem read_symbols {imports : List Import} (hne : imports ≠ [])
    (h : ∀ i ∈ imports, IsIdentifier i.imported ∧ IsIdentifier i.used) :
    (Text.splitOn 44 (Text.joinWith ", " (imports.map Import.text))).mapM Import.parse? = some imports := by
  cases imports with
  | nil => exact absurd rfl hne
  | cons i rest =>
    have hpieces : ∀ p ∈ i.text :: rest.map Import.text, 44 ∉ p := by
      intro p hp
      rw [← List.map_cons] at hp
      obtain ⟨j, hj, rfl⟩ := List.mem_map.1 hp
      exact Import.not_mem_text (by decide) (by decide) (h j hj).1.commaless (h j hj).2.commaless
    have hread : ∀ j ∈ i :: rest, Import.parse? j.text = some j := fun j hj =>
      Import.parse?_text (h j hj).1.word (h j hj).2.word
    rw [List.forall_mem_cons] at hread
    have hrest : ((rest.map Import.text).map (32 :: ·)).mapM Import.parse? = some rest := by
      rw [List.map_map]
      exact mapM_eq_some hread.2
    rw [List.map_cons, Text.splitOn_listed hpieces, List.mapM_cons, hread.1, hrest]
    rfl

theorem readLine?_lineText {line : Line} (h : Readable line) : readLine? (lineText line) = some line := by
  obtain ⟨module, imports⟩ := line
  have hsymbols := read_symbols h.imports h.names
  have htext : lineText (module, imports) = "import \x7b " ++
      (((Text.joinWith ", " (imports.map Import.text) ++ " \x7d from ") ++ 39 :: module) ++ "';") := by
    have hquote : Text.ofString " \x7d from '" = Text.ofString " \x7d from " ++ [39] := rfl
    simp only [lineText, hquote, List.append_assoc, List.cons_append, List.nil_append]
  rw [htext]
  simp only [readLine?, Option.bind_eq_bind, Text.after?_append, Option.bind_some, Text.before?_append,
    Text.cutLast?_append h.module.quoteless, hsymbols]
  rfl

theorem lineText_one_line {line : Line} (h : Readable line) : 10 ∉ lineText line := by
  have hsymbols : 10 ∉ Text.joinWith ", " (line.2.map Import.text) := by
    intro hm
    rcases Text.mem_joinWith hm with hm | ⟨p, hp, hm⟩
    · exact absurd hm (by decide)
    · obtain ⟨i, hi, rfl⟩ := List.mem_map.1 hp
      obtain ⟨himported, hused⟩ := h.names i hi
      exact Import.not_mem_text (by decide) (by decide) himported.word.one_line hused.word.one_line hm
  have hmarks : 10 ∉ Text.ofString "import \x7b " ∧ 10 ∉ Text.ofString " \x7d from '" ∧ 10 ∉ Text.ofString "';" := by
    decide
  simp only [lineText, List.mem_append, not_or]
  exact ⟨⟨⟨⟨hmarks.1, hsymbols⟩, hmarks.2.1⟩, h.module.one_line⟩, hmarks.2.2⟩

theorem readText?_lines {ls : List Line} (h : ∀ line ∈ ls, Readable line) :
    readText? (Text.joinLines (ls.map lineText)) = some ls := by
  cases ls with
  | nil => rfl
  | cons line rest =>
    have hne : Text.joinLines ((line :: rest).map lineText) ≠ [] := Text.joinWith_ne_nil _ (lineText_ne_nil line) _
    have hsplit : Text.splitOn 10 (Text.joinLines ((line :: rest).map lineText)) = (line :: rest).map lineText := by
      refine Text.splitOn_joinWith (List.cons_ne_nil _ _) fun p hp => ?_
      obtain ⟨l, hl, rfl⟩ := List.mem_map.1 hp
      exact lineText_one_line (h l hl)
    rw [readText?, List.isEmpty_eq_false_iff.2 hne, hsplit]
    exact mapM_eq_some fun l hl => readLine?_lineText (h l hl)

/-! ## Printable tables -/

/-- whatever a table holds can stand in a statement -/
def Printable (table : ImportTable) : Prop :=
  ∀ e ∈ table.entries, IsIdentifier e.2.imported ∧ IsIdentifier e.1.used ∧ IsSpecifier e.1.module

instance (table : ImportTable) : Decidable (Printable table) :=
  inferInstanceAs (Decidable (∀ e ∈ table.entries, _))

theorem mem_lines {table : ImportTable} {line : Line} (h : line ∈ table.lines) :
    line.2 ≠ [] ∧ ∀ i ∈ line.2, table.get? ⟨line.1, i.used⟩ = some i.symbol := by
  obtain ⟨module, hmodule, rfl⟩ := List.mem_map.1 h
  obtain ⟨⟨k, s⟩, he, rfl⟩ := mem_modules.1 ((statementOrder_perm table).mem_iff.1 hmodule)
  refine ⟨?_, fun i hi => mem_importsOf.1 ((sortedImportsOf_perm table _).mem_iff.1 hi)⟩
  have hmem : (⟨s.imported, s.isType, k.used⟩ : Import) ∈ table.importsOf k.module :=
    mem_importsOf.2 (OrderedMap.mem_entries.1 he)
  exact List.ne_nil_of_mem ((sortedImportsOf_perm table _).mem_iff.2 hmem)

theorem Printable.readable {table : ImportTable} (h : Printable table) {line : Line} (hl : line ∈ table.lines) :
    Readable line := by
  obtain ⟨hne, hheld⟩ := mem_lines hl
  obtain ⟨i, hi⟩ := List.exists_mem_of_ne_nil _ hne
  have hprintable : ∀ j ∈ line.2, IsIdentifier j.imported ∧ IsIdentifier j.used ∧ IsSpecifier line.1 :=
    fun j hj => h _ (OrderedMap.mem_entries.2 (hheld j hj))
  exact ⟨hne, fun j hj => ⟨(hprintable j hj).1, (hprintable j hj).2.1⟩, (hprintable i hi).2.2⟩

theorem readText?_text {table : ImportTable} (h : Printable table) : readText? table.text = some table.lines := by
  rw [text_eq_lines]
  exact readText?_lines fun _ => h.readable

/-- the lines of a table, in order -/
structure InOrder (table : ImportTable) (ls : List Line) : Prop where
  /-- each statement is a line of the text -/
  text_eq : table.text = Text.joinLines (ls.map lineText)
  one_line : ∀ line ∈ ls, 10 ∉ lineText line
  /-- there is a statement for each module, relative modules first, both groups strictly increasing -/
  modules : ∀ module, module ∈ ls.map Prod.fst ↔ module ∈ table.modules
  groups : ∃ relative packages, ls.map Prod.fst = relative ++ packages ∧
    (∀ module ∈ relative, isRelative module = true) ∧ (∀ module ∈ packages, isRelative module = false) ∧
    relative.Pairwise (fun a b => Text.lt a b = true) ∧ packages.Pairwise fun a b => Text.lt a b = true
  /-- the names used in a statement are strictly increasing -/
  names : ∀ line ∈ ls, line.2 ≠ [] ∧ (line.2.map (·.used)).Pairwise fun a b => Text.lt a b = true
  /-- the statements list each entry exactly once -/
  entries : (ls.flatMap lineEntries).Perm table.entries

theorem map_fst_lines (table : ImportTable) : table.lines.map Prod.fst = table.statementOrder := by
  unfold lines
  rw [List.map_map]
  exact List.map_id' _

theorem Printable.inOrder {table : ImportTable} (h : Printable table) : InOrder table table.lines where
  text_eq := text_eq_lines table
  one_line _ hl := lineText_one_line (h.readable hl)
  modules module := by rw [map_fst_lines, (statementOrder_perm table).mem_iff]
  groups := by
    rw [map_fst_lines]
    exact statementOrder_increasing table
  names line hl := by
    refine ⟨(mem_lines hl).1, ?_⟩
    obtain ⟨module, -, rfl⟩ := List.mem_map.1 hl
    exact sortedImportsOf_increasing table module
  entries := (lines_perm table).1

/-- **Import statements are a canonical form.** Printable tables have the same text exactly if they hold the same, and
the text can be read: it has a line for each module, relative modules first, modules and names strictly increasing, and
lists each entry exactly once. -/
theorem text_canonical {t u : ImportTable} (ht : Printable t) (hu : Printable u) :
    (t.text = u.text ↔ Same t u) ∧ readText? t.text = some t.lines ∧ InOrder t t.lines := by
  refine ⟨⟨fun h => ?_, fun h => ?_⟩, readText?_text ht, ht.inOrder⟩
  · have hlines : some t.lines = some u.lines := by rw [← readText?_text ht, ← readText?_text hu, h]
    exact same_of_lines (Option.some.inj hlines)
  · rw [text_eq_lines, text_eq_lines, lines_congr h]

/-- a symbol called `type` used as `as`, the type of a symbol called `as` used as `type`, and a hook -/
def oddNeeds : List ImportTable := [
  create "react" [⟨"useMemo", false, "useMemo"⟩],
  create "../" [⟨"as", true, "type"⟩, ⟨"type", false, "as"⟩]]

theorem odd_names_printed : Printable (merge oddNeeds) ∧ Printable (merge oddNeeds.reverse) ∧
    (merge oddNeeds).text =
      "import \x7b type as as, type as as type \x7d from '../';\nimport \x7b useMemo \x7d from 'react';" ∧
    readText? (merge oddNeeds).text = some [
      (Text.ofString "../", [⟨"type", false, "as"⟩, ⟨"as", true, "type"⟩]),
      (Text.ofString "react", [⟨"useMemo", false, "useMemo"⟩])] ∧
    Same (merge oddNeeds) (merge oddNeeds.reverse) := by
  have hprintable : Printable (merge oddNeeds) := by decide +kernel
  have hreversed : Printable (merge oddNeeds.reverse) := by decide +kernel
  obtain ⟨hiff, hread, -⟩ := text_canonical hprintable hreversed
  refine ⟨hprintable, hreversed, by decide +kernel, ?_, hiff.1 (by decide +kernel)⟩
  rw [hread]
  decide +kernel

end ImportTable

end InterfacePages
