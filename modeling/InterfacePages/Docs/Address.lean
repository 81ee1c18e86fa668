/-
The page of a program-derived address: its seeds and how to find it.
-/
import InterfacePages.Docs.Piece

namespace InterfacePages

namespace Docs

def seedRow (v : Value) : Except Fault (List Text) := do
  let seed ← v.asNode
  if seed.isKind .variablePdaSeed then
    let type ← typeCode .type seed
    return [← nameCode seed, type, "variable"]
  else if seed.isKind .constantPdaSeed then return ["(constant)", "-", "constant"]
  else return ["-", "-", "-"]

/-- the section on seeds, when there are any -/
def seedSection (seeds : Value) : Except Fault (List Fragment) := do
  if !seeds.isGiven then return []
  return [titledText "Seeds" (Markdown.table ["Seed", "Type", "Kind"] (← (← seeds.items).mapM seedRow))]

/-- the seeds that have to be given, as a parameter -/
def seedParameter (seeds : Value) : Except Fault Text := do
  let given ← Node.ofKind .variablePdaSeed (← seeds.items)
  let names ← given.mapM fun seed => seed.get .name
  if names.isEmpty then return "\x7b\x7d"
  return "\x7b " ++ Text.joinWith ", " (← names.mapM Value.asText) ++ " \x7d"

/-- the page of a program-derived address -/
def address (scope : Scope) (n : Node) : Except Fault Fragment := do
  let find ← scope.identifier .pdaFindFunction n
  let seeds ← n.get .seeds
  let seedPart ← seedSection seeds
  let parameter ← seedParameter seeds
  let name ← n.nameText
  let docs ← description n
  let imports ← ImportTable.createTexts scope.package [find]
  return Fragment.paragraphs (
    [pageHeading (Name.pascalCase name)] ++ docs ++ [importSection imports] ++ seedPart ++
    [titledCode "Find PDA" ("const [address] = await " ++ find ++ "(" ++ parameter ++ ");")])

end Docs

end InterfacePages
