/-
The hook of a program-derived address, which finds it.
-/
import InterfacePages.Hooks.Piece

namespace InterfacePages

namespace Hooks

def finding (find seeds : Text) : List Text := List.flatten [
  [ "  useEffect(() => \x7b",
    "    let cancelled = false;",
    "    setStatus('loading');",
    "",
    "    (async () => \x7b",
    "      try \x7b",
    "        const [pda] = await " ++ find ++ "(" ++ seeds ++ "\x7b programAddress: config.programAddress \x7d);",
    "        if (!cancelled) \x7b",
    "          setAddress(pda);",
    "          setStatus('success');",
    "        \x7d"],
  reporting "cancelled",
  [ "",
    "    return () => \x7b cancelled = true; \x7d;",
    "  \x7d, [" ++ seeds ++ "config.programAddress]);",
    ""]]

/-- the hook of a program-derived address -/
def address (scope : Scope) (n : Node) : Except Fault Fragment := do
  let find ← scope.identifier .pdaFindFunction n
  let seedsType ← scope.identifier .pdaSeedsType n
  let given ← hasGivenSeeds n
  let hook ← scope.identifier .pdaHook n
  let parameter := textIf given ("seeds: " ++ seedsType ++ ", ")
  withImports
    (List.flatten [
      settingsType hook [programField],
      [ "export function " ++ hook ++ "(" ++ parameter ++ "config: " ++ hook ++ "Config = \x7b\x7d) \x7b",
        addressState, statusState, errorState, ""],
      finding find (textIf given "seeds, "),
      answering "address, error, status"])
    ([react ["useEffect", "useState"], addressType, client [find]] ++
      if given then [client ["type " ++ seedsType]] else [])

end Hooks

end InterfacePages
