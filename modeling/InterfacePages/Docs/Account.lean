/-
The page of an account: its fields, its size and how to fetch and decode it.
-/
import InterfacePages.Docs.Piece

namespace InterfacePages

namespace Docs

def account (scope : Scope) (path : List Node) (n : Node) : Except Fault Fragment := do
  let data ← (← n.child .data).unwrap
  let fields := (data.attr? .fields).getD (.tuple [])
  let fetch ← scope.identifier .accountFetchFunction n
  let fetchMaybe ← scope.identifier .accountFetchMaybeFunction n
  let decode ← scope.identifier .accountDecodeFunction n
  let fetchAll ← scope.identifier .accountFetchAllFunction n
  let name ← n.nameText
  let docs ← description n
  let imports ← ImportTable.createTexts scope.package [fetch, decode]
  let fieldPart ← fieldTable fields
  let size ← sizeText scope path (← n.get .data)
  let marks ← discriminators ["Type", "Field", "Offset"] n
  return Fragment.paragraphs (
    [pageHeading (Name.pascalCase name)] ++ docs ++
    [importSection imports, titled "Fields" fieldPart, titledText "Size" size] ++ marks ++
    [titledCode "Fetch" ("const account = await " ++ fetch ++ "(rpc, address);"),
      titledCode "Fetch (Maybe)" ("const maybeAccount = await " ++ fetchMaybe ++ "(rpc, address);"),
      titledCode "Decode" ("const account = " ++ decode ++ "(encodedAccount);"),
      titledCode "Fetch All" ("const accounts = await " ++ fetchAll ++ "(rpc, addresses);")])

end Docs

end InterfacePages
