/-
The tables of the documentation.

Every builder that shows a table makes a row for each thing it describes with one function, and that gives as many cells
as the table has headings, or a fault (`HasCells`). So no table is ragged, and since a table reads back as the rows it
was made of, no line of one is either (`showsTable_rows`), whatever the names, the texts and the messages of a tree
contain.
-/
import InterfacePages.Docs.Account
import InterfacePages.Docs.Address
import InterfacePages.Docs.DefinedType
import InterfacePages.Docs.Instruction
import InterfacePages.Docs.Program
import InterfacePages.Proofs.Action
import InterfacePages.Proofs.MarkdownTables

namespace InterfacePages

namespace Docs

open Markdown (cells table)
open Text (collapsed lines)

/-! ## Outcomes -/

/-- whatever comes out, if anything does, has a property -/
def GivesOnly {ρ : Type} (P : ρ → Prop) (x : Except Fault ρ) : Prop := ∀ r, x = .ok r → P r

namespace GivesOnly

variable {ρ τ ι : Type} {P : ρ → Prop}

theorem ok {r : ρ} (h : P r) : GivesOnly P (.ok r) := fun _ hr => Except.ok.inj hr ▸ h

theorem error (e : Fault) : GivesOnly P (.error e) := fun _ h => nomatch h

theorem bind {x : Except Fault τ} {next : τ → Except Fault ρ} (h : ∀ a, x = .ok a → GivesOnly P (next a)) :
    GivesOnly P (x >>= next) := by
  intro r hr
  obtain ⟨a, ha, hr⟩ := except_bind_ok.1 hr
  exact h a ha r hr

/-- what is read first makes no difference -/
theorem after {x : Except Fault τ} {next : τ → Except Fault ρ} (h : ∀ a, GivesOnly P (next a)) :
    GivesOnly P (x >>= next) := .bind fun a _ => h a

theorem mapM {make : ι → Except Fault ρ} (h : ∀ i, GivesOnly P (make i)) (is : List ι) :
    GivesOnly (fun rs => ∀ r ∈ rs, P r) (is.mapM make) := by
  intro rs hrs r hr
  obtain ⟨i, -, hi⟩ := exists_of_forall₂ (mapM_eq_ok.1 hrs) hr
  exact h i r hi

end GivesOnly

/-! ## Rows -/

/-- a row has some number of cells -/
def HasCells (count : Nat) (row : List Text) : Prop := row.length = count

theorem discriminatorRow_cells (v : Value) : GivesOnly (HasCells 3) (discriminatorRow v) := by
  refine .after fun d => ?_
  split
  · exact .after fun name => .after fun offset => .ok rfl
  · split
    · exact .after fun size => .ok rfl
    · exact .ok rfl

theorem fieldRow_cells (described : Bool) (v : Value) :
    GivesOnly (HasCells (if described then 3 else 2)) (fieldRow described v) := by
  refine .after fun f => .after fun name => .after fun type => ?_
  cases described with
  | true => exact .after fun docs => .ok rfl
  | false => exact .ok rfl

theorem accountRow_cells (v : Value) : GivesOnly (HasCells 4) (accountRow v) :=
  .after fun _ => .after fun _ => .after fun _ => .after fun _ => .after fun _ => .ok rfl

theorem argumentRow_cells (n : Node) : GivesOnly (HasCells 2) (argumentRow n) :=
  .after fun _ => .after fun _ => .ok rfl

theorem seedRow_cells (v : Value) : GivesOnly (HasCells 3) (seedRow v) := by
  refine .after fun seed => ?_
  split
  · exact .after fun type => .after fun name => .ok rfl
  · split <;> exact .ok rfl

theorem scalarRow_cells (entry : Value × Nat) : GivesOnly (HasCells 2) (scalarRow entry) :=
  .after fun _ => .after fun _ => .ok rfl

theorem accountSummary_cells (scope : Scope) (path : List Node) (n : Node) :
    GivesOnly (HasCells 2) (accountSummary scope path n) :=
  .after fun _ => .after fun _ => .after fun _ => .ok rfl

theorem instructionSummary_cells (n : Node) : GivesOnly (HasCells 2) (instructionSummary n) :=
  .after fun _ => .after fun _ => .ok rfl

theorem addressSummary_cells (n : Node) : GivesOnly (HasCells 2) (addressSummary n) := by
  refine .after fun link => .after fun seeds => ?_
  split
  · exact .after fun count => .ok rfl
  · exact .ok rfl

theorem typeSummary_cells (n : Node) : GivesOnly (HasCells 2) (typeSummary n) :=
  .after fun _ => .after fun _ => .after fun _ => .ok rfl

theorem errorCells_cells (row : Text × Text × Value) : GivesOnly (HasCells 3) (errorCells row) := by
  unfold errorCells
  split
  · exact .ok rfl
  · exact .error _

/-! ## Tables -/

/-- a fragment shows a table with some headings and some number of rows, as `shown` shows it: every row is as long as
the headings, and so is every line of the table as it is read -/
def ShowsTable (headings : List Text) (shown : Text → Fragment) (count : Nat) (f : Fragment) : Prop :=
  ∃ rows, f = shown (table headings rows) ∧ rows.length = count ∧ (∀ row ∈ rows, HasCells headings.length row) ∧
    (lines (table headings rows)).length = 2 + count ∧
    ∀ line ∈ lines (table headings rows), HasCells headings.length (cells line)

/-- a section shows a table with a row for each of some items, if there are any -/
def ShowsEach {ι : Type} (title : Text) (headings : List Text) (items : List ι) (fs : List Fragment) : Prop :=
  (items = [] → fs = []) ∧ (items ≠ [] → ∃ f, fs = [f] ∧ ShowsTable headings (titledText title) items.length f)

/-- a section shows a table with a row for each item of a value, if it is given -/
def ShowsItems (title : Text) (headings : List Text) (v : Value) (fs : List Fragment) : Prop :=
  (v.isGiven = false → fs = []) ∧ (v.isGiven = true → ∃ items f, v.items = .ok items ∧ fs = [f] ∧
    ShowsTable headings (titledText title) items.length f)

theorem length_lines_table (headings : List Text) (rows : List (List Text)) :
    (lines (table headings rows)).length = 2 + rows.length := by
  rw [Markdown.lines_table, List.length_map, List.length_cons, List.length_cons]
  omega

section

variable {headings : List Text} {shown : Text → Fragment}

/-- **A table without ragged rows has no ragged lines.** -/
theorem showsTable_rows (hne : headings ≠ []) {rows : List (List Text)}
    (h : ∀ row ∈ rows, HasCells headings.length row) :
    ShowsTable headings shown rows.length (shown (table headings rows)) := by
  refine ⟨rows, rfl, rfl, h, length_lines_table headings rows, fun line hl => ?_⟩
  have hpos : 0 < headings.length := List.length_pos_of_ne_nil hne
  have hrows : ∀ row ∈ rows, row ≠ [] := fun row hr => List.ne_nil_of_length_pos (h row hr ▸ hpos)
  have hread : cells line ∈ (lines (table headings rows)).map cells := List.mem_map_of_mem hl
  unfold HasCells
  rw [Markdown.cells_table hne hrows, List.mem_cons, List.mem_cons] at hread
  rcases hread with hread | hread | hread
  · rw [hread, List.length_map]
  · rw [hread, List.length_map]
  · obtain ⟨row, hr, hread⟩ := List.mem_map.1 hread
    rw [← hread, List.length_map]
    exact h row hr

variable {ι : Type} {make : ι → Except Fault (List Text)} {count : Nat}

/-- a table of the rows that one function makes of some items -/
theorem showsTable_mapM (h : ∀ i, GivesOnly (HasCells (count + 1)) (make i))
    (hlength : headings.length = count + 1) {is : List ι} {rows : List (List Text)} (hrows : is.mapM make = .ok rows) :
    ShowsTable headings shown is.length (shown (table headings rows)) := by
  rw [(mapM_eq_ok.1 hrows).length_eq]
  exact showsTable_rows (List.ne_nil_of_length_eq_add_one hlength) (hlength ▸ GivesOnly.mapM h is rows hrows)

theorem showsEach_mapM (h : ∀ i, GivesOnly (HasCells (count + 1)) (make i)) (title : Text) (is : List ι)
    (hlength : headings.length = count + 1) :
    GivesOnly (ShowsEach title headings is) (do
      if is.isEmpty then return []
      return [titledText title (table headings (← is.mapM make))]) := by
  cases is with
  | nil => exact .ok ⟨fun _ => rfl, fun hne => absurd rfl hne⟩
  | cons i rest =>
    exact .bind fun rows hrows =>
      .ok ⟨fun hnil => (nomatch hnil), fun _ => ⟨_, rfl, showsTable_mapM h hlength hrows⟩⟩

theorem showsItems_mapM {make : Value → Except Fault (List Text)}
    (h : ∀ v, GivesOnly (HasCells (count + 1)) (make v)) (title : Text) (v : Value)
    (hlength : headings.length = count + 1) :
    GivesOnly (ShowsItems title headings v) (do
      if !v.isGiven then return []
      return [titledText title (table headings (← (← v.items).mapM make))]) := by
  unfold ShowsItems
  cases v.isGiven with
  | false => exact .ok ⟨fun _ => rfl, fun hgiven => (nomatch hgiven)⟩
  | true =>
    exact .bind fun items hitems => .bind fun rows hrows =>
      .ok ⟨fun hgiven => (nomatch hgiven), fun _ => ⟨items, _, hitems, rfl, showsTable_mapM h hlength hrows⟩⟩

end

/-! ## Builders -/

theorem discriminators_table {headings : List Text} (hlength : headings.length = 3) (n : Node) :
    GivesOnly (fun fs => ∃ ds, n.get .discriminators = .ok ds ∧ ShowsItems "Discriminator" headings ds fs)
      (discriminators headings n) :=
  .bind fun ds hds fs hfs => ⟨ds, hds, showsItems_mapM discriminatorRow_cells _ ds hlength fs hfs⟩

def fieldHeadings (described : Bool) : List Text :=
  if described then ["Field", "Type", "Description"] else ["Field", "Type"]

/-- the fields of a type are shown in a table, which has a column for descriptions if one of them has any -/
def ShowsFields (fields : Value) (f : Fragment) : Prop :=
  (fields.isGiven = false → f = .plain "_No fields._") ∧ (fields.isGiven = true → ∃ items described,
    fields.items = .ok items ∧ anyDescribed items = .ok described ∧
      ShowsTable (fieldHeadings described) .plain items.length f)

theorem fieldTable_table (fields : Value) : GivesOnly (ShowsFields fields) (fieldTable fields) := by
  unfold fieldTable ShowsFields
  cases fields.isGiven with
  | false => exact .ok ⟨fun _ => rfl, fun hgiven => (nomatch hgiven)⟩
  | true =>
    refine .bind fun items hitems => .bind fun described hdescribed => .bind fun items' hitems' =>
      .bind fun rows hrows => .ok ⟨fun hgiven => (nomatch hgiven), fun _ => ⟨items, described, hitems, hdescribed, ?_⟩⟩
    cases hitems.symm.trans hitems'
    cases described with
    | true => exact showsTable_mapM (fieldRow_cells true) rfl hrows
    | false => exact showsTable_mapM (fieldRow_cells false) rfl hrows

theorem accountSection_table (accounts : Value) :
    GivesOnly (ShowsItems "Accounts" ["Account", "Signer", "Writable", "Optional"] accounts) (accountSection accounts) :=
  showsItems_mapM accountRow_cells "Accounts" accounts rfl

theorem argumentSection_table (arguments : List Node) :
    GivesOnly (ShowsEach "Arguments" ["Argument", "Type"] arguments) (argumentSection arguments) :=
  showsEach_mapM argumentRow_cells "Arguments" arguments rfl

theorem seedSection_table (seeds : Value) :
    GivesOnly (ShowsItems "Seeds" ["Seed", "Type", "Kind"] seeds) (seedSection seeds) :=
  showsItems_mapM seedRow_cells "Seeds" seeds rfl

theorem familySection_table (title first second : Text) {row : Node → Except Fault (List Text)}
    (h : ∀ n, GivesOnly (HasCells 2) (row n)) (members : List Node) :
    GivesOnly (ShowsEach title [first, second] members) (familySection title [first, second] row members) :=
  showsEach_mapM h title members rfl

theorem variants_table {n : Node} (h : n.isScalarEnum = .ok true) :
    GivesOnly (fun f => ∃ items, n.items .variants = .ok items ∧
      ShowsTable ["Variant", "Discriminator"] (titledText "Variants") items.length f) (variants n) := by
  unfold variants
  rw [h]
  change GivesOnly _ (n.items .variants >>= _)
  refine .bind fun items hitems => .bind fun rows hrows => .ok ⟨items, hitems, ?_⟩
  rw [← List.length_zipIdx (i := 0)]
  exact showsTable_mapM scalarRow_cells rfl hrows

/-- a page shows a table with a row for each of a program's errors, between what else it shows -/
def ShowsErrors (es : List Node) (page : Fragment) : Prop :=
  ∃ top shown bottom, page = Fragment.paragraphs (top ++ shown :: bottom) ∧
    ShowsTable ["Code", "Name", "Message"] .plain es.length shown

theorem errors_table (scope : Scope) (n : Node) :
    GivesOnly (fun page => ∃ es, n.errors = .ok es ∧ (page = none ↔ es = []) ∧ ∀ f ∈ page, ShowsErrors es f)
      (errors scope n) := by
  refine .bind fun es hes => ?_
  cases es with
  | nil => exact .ok ⟨[], hes, ⟨fun _ => rfl, fun _ => rfl⟩, fun f hf => (nomatch hf)⟩
  | cons e rest =>
    refine .after fun isError => .after fun getMessage => .after fun imports => .bind fun rows hrows =>
      .after fun name => .bind fun lines hlines =>
        .ok ⟨e :: rest, hes, ⟨fun h => (nomatch h), fun h => (nomatch h)⟩, fun f hf => ?_⟩
    cases hf
    refine ⟨[_, _], _, [_], rfl, ?_⟩
    rw [(mapM_eq_ok.1 hrows).length_eq]
    exact showsTable_mapM errorCells_cells rfl hlines

/-- **Tables read back.** A table has a line for its headings, one that separates and one for each row, and each is read
as the texts it was made of with their white space collapsed. Every builder of documentation that shows a table gives it
a row for each thing it describes, none longer or shorter than its headings, so no line of a table on a page is. -/
theorem tables_read_back :
    (∀ (headings : List Text) (rows : List (List Text)), headings ≠ [] → (∀ row ∈ rows, row ≠ []) →
      (lines (table headings rows)).length = 2 + rows.length ∧
      (lines (table headings rows)).map cells =
        headings.map collapsed :: headings.map (fun _ => ("---" : Text)) :: rows.map (List.map collapsed)) ∧
    (∀ headings : List Text, headings ∈ ([["Type", "Field", "Offset"], ["Type", "Value", "Offset"]] : List (List Text)) →
      ∀ n, GivesOnly (fun fs => ∃ ds, n.get .discriminators = .ok ds ∧ ShowsItems "Discriminator" headings ds fs)
        (discriminators headings n)) ∧
    (∀ fields, GivesOnly (ShowsFields fields) (fieldTable fields)) ∧
    (∀ accounts, GivesOnly (ShowsItems "Accounts" ["Account", "Signer", "Writable", "Optional"] accounts)
      (accountSection accounts)) ∧
    (∀ arguments, GivesOnly (ShowsEach "Arguments" ["Argument", "Type"] arguments) (argumentSection arguments)) ∧
    (∀ seeds, GivesOnly (ShowsItems "Seeds" ["Seed", "Type", "Kind"] seeds) (seedSection seeds)) ∧
    (∀ n : Node, n.isScalarEnum = .ok true →
      GivesOnly (fun f => ∃ items, n.items .variants = .ok items ∧
        ShowsTable ["Variant", "Discriminator"] (titledText "Variants") items.length f) (variants n)) ∧
    (∀ scope path members, GivesOnly (ShowsEach "Accounts" ["Account", "Size"] members)
      (familySection "Accounts" ["Account", "Size"] (accountSummary scope path) members)) ∧
    (∀ members, GivesOnly (ShowsEach "Instructions" ["Instruction", "Description"] members)
      (familySection "Instructions" ["Instruction", "Description"] instructionSummary members)) ∧
    (∀ members, GivesOnly (ShowsEach "PDAs" ["PDA", "Seeds"] members)
      (familySection "PDAs" ["PDA", "Seeds"] addressSummary members)) ∧
    (∀ members, GivesOnly (ShowsEach "Types" ["Type", "Kind"] members)
      (familySection "Types" ["Type", "Kind"] typeSummary members)) ∧
    ∀ scope n, GivesOnly (fun page => ∃ es, n.errors = .ok es ∧ (page = none ↔ es = []) ∧ ∀ f ∈ page, ShowsErrors es f)
      (errors scope n) := by
  refine ⟨fun headings rows hh hr => ⟨length_lines_table headings rows, Markdown.cells_table hh hr⟩,
    fun headings hh n => ?_, fieldTable_table, accountSection_table, argumentSection_table, seedSection_table,
    fun n => variants_table, fun scope path => familySection_table _ _ _ (accountSummary_cells scope path),
    familySection_table _ _ _ instructionSummary_cells, familySection_table _ _ _ addressSummary_cells,
    familySection_table _ _ _ typeSummary_cells, errors_table⟩
  refine discriminators_table ?_ n
  simp only [List.mem_cons, List.not_mem_nil, or_false] at hh
  rcases hh with rfl | rfl <;> rfl

def programWith (message : Text) : Node :=
  .known .program [(.name, .text "vault"), (.errors, .tuple [.node (.known .error [
    (.name, .text "bad"), (.code, .int 6000), (.message, .text message), (.docs, .tuple [])])])]

/-- an enumeration without data -/
def sides : Node :=
  .known .enumType [(.variants, .tuple [
    .node (.known .enumEmptyVariantType [(.name, .text "left|right"), (.discriminator, .absent)])])]

/-- cells with bars, backslashes, tabs and line ends of several kinds, and an empty one -/
def hostileRows : List (List Text) := [["\\", "one\r\ntwo \u2028 a\\|b\\"], ["", "\t| "]]

theorem hostile_cells_read_back :
    lines (table ["Code|", "Message"] hostileRows) =
      ["| Code\\| | Message |", "| --- | --- |", "| \\ | one two a\\\\|b\\ |", "|  | \\| |"].map Text.ofString ∧
    (lines (table ["Code|", "Message"] hostileRows)).map cells =
      [["Code|", "Message"], ["---", "---"], ["\\", "one two a\\|b\\"], ["", "|"]].map (List.map Text.ofString) ∧
    sides.isScalarEnum = .ok true ∧
    (∃ f, variants sides = .ok f ∧ ShowsTable ["Variant", "Discriminator"] (titledText "Variants") 1 f) ∧
    ∃ page es, errors ⟨⟨Role.client, []⟩, "client", .empty⟩ (programWith "a\nb|c") = .ok (some page) ∧ es.length = 1 ∧
      ShowsErrors es page := by
  obtain ⟨hread, -, -, -, -, -, hvariants, -, -, -, -, herrors⟩ := tables_read_back
  have hcells := (hread ["Code|", "Message"] hostileRows (by decide) (by decide)).2
  have hscalar : sides.isScalarEnum = .ok true := rfl
  obtain ⟨f, hf⟩ := exists_of_isOk (show (variants sides).isOk = true by decide +kernel)
  obtain ⟨items, hitems, hshown⟩ := hvariants sides hscalar f hf
  cases hitems
  have herror : (errors ⟨⟨Role.client, []⟩, "client", .empty⟩ (programWith "a\nb|c")).toOption.any
      Option.isSome = true := by decide +kernel
  obtain ⟨page, hpage, hsome⟩ := any_toOption.1 herror
  obtain ⟨page, rfl⟩ := Option.isSome_iff_exists.1 hsome
  obtain ⟨es, hes, -, hshows⟩ := herrors _ _ _ hpage
  have hone : es.length = 1 := by
    have hlength : (programWith "a\nb|c").errors.map List.length = .ok 1 := rfl
    rw [hes] at hlength
    exact Except.ok.inj hlength
  exact ⟨by decide +kernel, hcells.trans (by decide +kernel), hscalar, ⟨f, hf, hshown⟩, page, es, hpage, hone,
    hshows page rfl⟩

end Docs

end InterfacePages
