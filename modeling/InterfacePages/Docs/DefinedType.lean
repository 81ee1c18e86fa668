/-
The page of a defined type: its fields, variants or spelling, and its codec.
-/
import InterfacePages.Docs.Piece

namespace InterfacePages

namespace Docs

/-- the row of a variant without data -/
def scalarRow (entry : Value × Nat) : Except Fault (List Text) := do
  return [← nameCode (← entry.1.asNode), Number.decimal entry.2]

def memberText (v : Value) : Except Fault Text := do
  let f ← v.asNode
  let name ← f.shown .name
  return Markdown.code (name ++ ": " ++ (← (← f.get .type).typeText))

def variantItem (v : Value) : Except Fault Text := do
  let variant ← v.asNode
  if variant.isKind .enumTupleVariantType then
    let name ← nameCode variant
    return name ++ " — " ++ (← (← variant.get .tuple).typeText)
  else if variant.isKind .enumStructVariantType then
    let carried ← (← variant.child .struct).unwrap
    let members ← (← carried.items .fields).mapM memberText
    return (← nameCode variant) ++ " — \x7b " ++ Text.joinWith ", " members ++ " \x7d"
  else nameCode variant

/-- the variants of an enumeration: a table when none carries data, or else a list -/
def variants (n : Node) : Except Fault Fragment := do
  if ← n.isScalarEnum then
    let rows ← (← n.items .variants).zipIdx.mapM scalarRow
    return titledText "Variants" (Markdown.table ["Variant", "Discriminator"] rows)
  else
    return titledText "Variants" (Markdown.list (← (← n.items .variants).mapM variantItem))

def typeBody (type : Node) : Except Fault Fragment := do
  if type.isKind .structType then return titled "Fields" (← fieldTable (← type.get .fields))
  else if type.isKind .enumType then variants type
  else return titledText "Type" (Markdown.code (← type.typeText).display)

def definedType (scope : Scope) (n : Node) : Except Fault Fragment := do
  let name := Name.pascalCase (← n.nameText)
  let decoder ← scope.identifier .decoderFunction n
  let encoder ← scope.identifier .encoderFunction n
  let body ← typeBody (← n.child .type)
  let docs ← description n
  let imports ← ImportTable.createTexts scope.package ["type " ++ name, decoder, encoder]
  return Fragment.paragraphs (
    [pageHeading name] ++ docs ++ [importSection imports, body,
      titledCode "Codec" ("const encoder = " ++ encoder ++ "();\nconst decoder = " ++ decoder ++ "();")])

end Docs

end InterfacePages
