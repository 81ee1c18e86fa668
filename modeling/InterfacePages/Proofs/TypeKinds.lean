/-
What the overview and the page of a type say it is.

Both tell structs, enumerations and other types apart (`TypeBody`), the overview by what is inside the wrappers of the
type and the page by the type itself: `types_of_outline` and `definedType_eq` read the two from what is written. So they
agree on every type that is no wrapper, and on a wrapper exactly if there is neither a struct nor an enumeration in it
(`kinds_agree`). A wrapped struct is a struct to the overview and has its spelling on its page (`wrapped_struct_differs`).
-/
import InterfacePages.Docs.DefinedType
import InterfacePages.Proofs.LinkedSizes
import InterfacePages.Proofs.OverviewLinks

namespace InterfacePages

namespace Docs

open ByteSize (programNamed typeNamed)

/-! ## Pages of types -/

/-- what the page of a type shows of it -/
inductive TypeBody where
  | fields | variants | spelling
deriving DecidableEq, Repr

def TypeBody.title : TypeBody → Text
  | .fields => "Fields"
  | .variants => "Variants"
  | .spelling => "Type"

def TypeBody.kind : TypeBody → Text
  | .fields => "struct"
  | .variants => "enum"
  | .spelling => "alias"

/-- what is shown of a type by its own kind -/
def bodyOf (type : Node) : TypeBody :=
  if type.isKind .structType then .fields else if type.isKind .enumType then .variants else .spelling

def bodyContent (type : Node) : TypeBody → Except Fault Fragment
  | .fields => do fieldTable (← type.get .fields)
  | .variants => do
    if ← type.isScalarEnum then
      return .plain (Markdown.table ["Variant", "Discriminator"] (← (← type.items .variants).zipIdx.mapM scalarRow))
    else return .plain (Markdown.list (← (← type.items .variants).mapM variantItem))
  | .spelling => do return .plain (Markdown.code (← type.typeText).display)

/-- the page of a type with the section that shows it -/
structure TypePage where
  opening : List Fragment
  body : TypeBody
  content : Fragment
  codec : Fragment

def TypePage.fragment (page : TypePage) : Fragment :=
  Fragment.paragraphs (page.opening ++ [titled page.body.title page.content, page.codec])

def typePage (scope : Scope) (n : Node) : Except Fault TypePage := do
  let name := Name.pascalCase (← n.nameText)
  let decoder ← scope.identifier .decoderFunction n
  let encoder ← scope.identifier .encoderFunction n
  let type ← n.child .type
  let content ← bodyContent type (bodyOf type)
  let docs ← description n
  let imports ← ImportTable.createTexts scope.package ["type " ++ name, decoder, encoder]
  return {
    opening := [pageHeading name] ++ docs ++ [importSection imports]
    body := bodyOf type
    content := content
    codec := titledCode "Codec" ("const encoder = " ++ encoder ++ "();\nconst decoder = " ++ decoder ++ "();") }

theorem typeBody_eq (type : Node) :
    typeBody type = do return titled (bodyOf type).title (← bodyContent type (bodyOf type)) := by
  unfold typeBody bodyOf
  cases type.isKind .structType
  · cases type.isKind .enumType
    · simp only [bodyContent, TypeBody.title, titledText, Bool.false_eq_true, if_false, bind_assoc, pure_bind]
    · simp only [variants, bodyContent, TypeBody.title, titledText, Bool.false_eq_true, if_false, if_true, bind_assoc]
      refine congrArg _ (funext fun scalar => ?_)
      cases scalar <;> simp only [Bool.false_eq_true, if_false, if_true, bind_assoc, pure_bind]
  · simp only [bodyContent, TypeBody.title, if_true, bind_assoc]

/-- **A page of a type shows it in one section**, which its kind decides. -/
theorem definedType_eq (scope : Scope) (n : Node) :
    definedType scope n = do return (← typePage scope n).fragment := by
  unfold definedType typePage
  simp only [typeBody_eq, TypePage.fragment, List.append_assoc, List.cons_append, List.nil_append, bind_assoc,
    pure_bind]

theorem body_of_typePage {scope : Scope} {n type : Node} (htype : n.child .type = .ok type) {page : TypePage}
    (h : typePage scope n = .ok page) : page.body = bodyOf type := by
  unfold typePage at h
  obtain ⟨name, _, h⟩ := except_bind_ok.1 h
  obtain ⟨decoder, _, h⟩ := except_bind_ok.1 h
  obtain ⟨encoder, _, h⟩ := except_bind_ok.1 h
  obtain ⟨type', htype', h⟩ := except_bind_ok.1 h
  obtain ⟨content, _, h⟩ := except_bind_ok.1 h
  obtain ⟨docs, _, h⟩ := except_bind_ok.1 h
  obtain ⟨imports, _, h⟩ := except_bind_ok.1 h
  cases h
  rw [htype] at htype'
  cases htype'
  rfl

/-! ## Types in an overview -/

/-- the overview says what is inside the wrappers of a type -/
theorem typeRemark_eq (n : Node) : typeRemark n = do return (bodyOf (← (← n.child .type).unwrap)).kind := by
  unfold typeRemark typeKind Node.child
  simp only [bind_assoc]
  refine congrArg _ (funext fun v => congrArg _ (funext fun type => congrArg _ (funext fun inner => ?_)))
  unfold bodyOf
  cases inner.isKind .structType <;> cases inner.isKind .enumType <;> rfl

theorem typeRemark_ok {n : Node} {kind : Text} : typeRemark n = .ok kind ↔
    ∃ type inner, n.child .type = .ok type ∧ type.unwrap = .ok inner ∧ kind = (bodyOf inner).kind := by
  rw [typeRemark_eq, except_bind_ok]
  constructor
  · rintro ⟨type, htype, h⟩
    obtain ⟨inner, hinner, h⟩ := except_bind_ok.1 h
    exact ⟨type, inner, htype, hinner, (Except.ok.inj h).symm⟩
  · rintro ⟨type, inner, htype, hinner, rfl⟩
    exact ⟨type, htype, except_bind_ok.2 ⟨inner, hinner, rfl⟩⟩

def Outline.typeTables (o : Outline) : List FamilyTable := o.families.filter (·.title == ("Types" : Text))

/-- the table of the types of a program in its overview has a row for each, with its kind -/
theorem types_of_outline {scope : Scope} {path : List Node} {p : Node} {o : Outline}
    (h : outline scope path p = .ok o) : ∃ types table, p.definedTypes = .ok types ∧ o.typeTables = [table] ∧
      List.Forall₂ (fun t row => pageLink "types" t = .ok row.1 ∧ typeRemark t = .ok row.2) types table.rows := by
  obtain ⟨l, -, -, -, htypes, -, -, _, accounts, instructions, pdas, types, hfamilies, ha, hi, hd, ht⟩ :=
    families_of_outline h
  refine ⟨l.definedTypes, types, htypes, ?_, (familyTable_ok ht).2⟩
  simp only [Outline.typeTables, hfamilies, List.filter_cons, List.filter_nil, (familyTable_ok ha).1,
    (familyTable_ok hi).1, (familyTable_ok hd).1, (familyTable_ok ht).1]
  rfl

/-! ## Wrappers -/

theorem unwrap_of_not_wrapper {n : Node} (h : n.isWrapper = false) : n.unwrap = .ok n := by
  have hheight : n.height = n.height - 1 + 1 := by cases n <;> rfl
  unfold Node.unwrap
  rw [hheight, Node.unwrapUpTo, h]
  rfl

/-- a wrapper is neither a struct nor an enumeration -/
theorem bodyOf_wrapper {n : Node} (h : n.isWrapper = true) : bodyOf n = .spelling := by
  unfold Node.isWrapper at h
  unfold bodyOf Node.isKind
  cases hk : n.kind? with
  | none => rfl
  | some k =>
    rw [hk] at h
    cases k <;> first | rfl | cases h

/-! ## The two together -/

/-- the kind of a type in an overview agrees with the section on its page -/
def Agrees (kind : Text) (body : TypeBody) : Prop :=
  (kind = "struct" ↔ body = .fields) ∧ (kind = "enum" ↔ body = .variants) ∧ (kind = "alias" ↔ body = .spelling)

instance (kind : Text) (body : TypeBody) : Decidable (Agrees kind body) :=
  inferInstanceAs (Decidable ((_ ↔ _) ∧ (_ ↔ _) ∧ (_ ↔ _)))

theorem agrees_kind (b body : TypeBody) : Agrees b.kind body ↔ b = body := by
  cases b <;> cases body <;> decide

/-- what is inside the wrappers of a type is shown as the type is, if there are no wrappers or it is neither a struct
nor an enumeration -/
theorem bodyOf_inner {type inner : Node} (h : type.unwrap = .ok inner) :
    bodyOf inner = bodyOf type ↔ type.isWrapper = false ∨ bodyOf inner = .spelling := by
  cases hw : type.isWrapper
  · rw [unwrap_of_not_wrapper hw] at h
    cases h
    simp
  · simp [bodyOf_wrapper hw]

/-- **Where the overview and the pages of types agree.** The overview of a program has a table with a row for each of
its types. The kind in the row agrees with the section on the page of the type exactly if the type is no wrapper, or
what is inside its wrappers is neither a struct nor an enumeration. -/
theorem kinds_agree {scope : Scope} {path : List Node} {p : Node} {written : Fragment}
    (h : overview scope path p = .ok written) :
    ∃ o types table, outline scope path p = .ok o ∧ written = o.fragment ∧ p.definedTypes = .ok types ∧
      o.typeTables = [table] ∧
      List.Forall₂ (fun t row => pageLink "types" t = .ok row.1 ∧
        ∃ type inner, t.child .type = .ok type ∧ type.unwrap = .ok inner ∧ row.2 = (bodyOf inner).kind ∧
          ∀ page, definedType scope t = .ok page → ∃ shown, typePage scope t = .ok shown ∧ page = shown.fragment ∧
            (Agrees row.2 shown.body ↔ type.isWrapper = false ∨ bodyOf inner = .spelling)) types table.rows := by
  rw [overview_eq] at h
  obtain ⟨o, ho, h⟩ := except_bind_ok.1 h
  obtain ⟨types, table, htypes, htable, hrows⟩ := types_of_outline ho
  refine ⟨o, types, table, ho, (Except.ok.inj h).symm, htypes, htable, hrows.imp fun t row ⟨hlink, hremark⟩ => ?_⟩
  obtain ⟨type, inner, htype, hinner, hkind⟩ := typeRemark_ok.1 hremark
  refine ⟨hlink, type, inner, htype, hinner, hkind, fun page hpage => ?_⟩
  rw [definedType_eq] at hpage
  obtain ⟨shown, hshown, hpage⟩ := except_bind_ok.1 hpage
  refine ⟨shown, hshown, (Except.ok.inj hpage).symm, ?_⟩
  rw [hkind, agrees_kind, body_of_typePage htype hshown, bodyOf_inner hinner]

/-! ## A wrapped struct -/

/-- a struct without fields -/
def crate : Node := .known .structType [(.fields, .tuple [])]

def sizedCrate : Node := .known .sizePrefixType [(.type, .node crate), (.lead, Kind.octet)]

def depot : Node := programNamed "depot" [typeNamed "crate" crate, typeNamed "parcel" sizedCrate]

def depotScope : Scope := ⟨⟨Role.client, []⟩, "client", .empty⟩

/-- the struct without a wrapper is one in the overview and on its page -/
theorem depot_kinds : ∃ (written page : Fragment) (o : Outline) (table : FamilyTable) (shown : TypePage),
    overview depotScope [] depot = .ok written ∧ written = o.fragment ∧ o.typeTables = [table] ∧
      definedType depotScope (typeNamed "crate" crate) = .ok page ∧ page = shown.fragment ∧
      ∃ row ∈ table.rows, row.2 = TypeBody.fields.kind ∧ Agrees row.2 shown.body := by
  obtain ⟨written, hwritten⟩ := exists_of_isOk (x := overview depotScope [] depot) (by decide +kernel)
  obtain ⟨page, hpage⟩ := exists_of_isOk (x := definedType depotScope (typeNamed "crate" crate)) (by decide +kernel)
  obtain ⟨o, types, table, -, ho, htypes, htable, hrows⟩ := kinds_agree hwritten
  have hdepot : depot.definedTypes = .ok [typeNamed "crate" crate, typeNamed "parcel" sizedCrate] := rfl
  rw [hdepot] at htypes
  cases htypes
  obtain ⟨row, hrow, -, type, inner, htype, hinner, hkind, hpages⟩ := exists_of_forall₂ hrows.flip List.mem_cons_self
  cases htype
  cases hinner
  obtain ⟨shown, -, hshown, hagrees⟩ := hpages page hpage
  exact ⟨written, page, o, table, shown, hwritten, ho, htable, hpage, hshown, row, hrow, hkind, hagrees.2 (.inl rfl)⟩

/-- the struct with a wrapper is one in the overview and has its spelling on its page -/
theorem wrapped_struct_differs :
    ¬ ∀ (scope : Scope) (path : List Node) (p : Node) (o : Outline) (types : List Node) (table : FamilyTable),
      overview scope path p = .ok o.fragment → outline scope path p = .ok o → p.definedTypes = .ok types →
      o.typeTables = [table] →
      List.Forall₂ (fun t row => ∀ page shown, definedType scope t = .ok page → typePage scope t = .ok shown →
        page = shown.fragment → Agrees row.2 shown.body) types table.rows := by
  intro h
  obtain ⟨o, ho⟩ := exists_of_isOk (x := outline depotScope [] depot) (by decide +kernel)
  obtain ⟨shown, hshown⟩ := exists_of_isOk (x := typePage depotScope (typeNamed "parcel" sizedCrate)) (by decide +kernel)
  obtain ⟨types, table, htypes, htable, hrows⟩ := types_of_outline ho
  have hoverview : overview depotScope [] depot = .ok o.fragment := by
    rw [overview_eq, ho]
    rfl
  have hpage : definedType depotScope (typeNamed "parcel" sizedCrate) = .ok shown.fragment := by
    rw [definedType_eq, hshown]
    rfl
  have hagrees := h depotScope [] depot o types table hoverview ho htypes htable
  have hdepot : depot.definedTypes = .ok [typeNamed "crate" crate, typeNamed "parcel" sizedCrate] := rfl
  rw [hdepot] at htypes
  cases htypes
  generalize table.rows = rows at hrows hagrees
  obtain _ | ⟨-, _ | @⟨_, row, _, _, ⟨-, hremark⟩, -⟩⟩ := hrows
  obtain _ | ⟨-, _ | ⟨hrow, -⟩⟩ := hagrees
  have hparcel : typeRemark (typeNamed "parcel" sizedCrate) = .ok TypeBody.fields.kind := rfl
  have hkind : row.2 = TypeBody.fields.kind := Except.ok.inj (hremark.symm.trans hparcel)
  have htype : (typeNamed "parcel" sizedCrate).child .type = .ok sizedCrate := rfl
  have hbody : shown.body = .spelling := body_of_typePage htype hshown
  have hsame := hrow shown.fragment shown hpage hshown rfl
  rw [hkind, agrees_kind, hbody] at hsame
  cases hsame

end Docs

end InterfacePages
