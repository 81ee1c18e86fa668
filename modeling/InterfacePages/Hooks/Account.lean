/-
The hooks of an account: one that watches it at an address, one that derives the address from seeds, and one that
fetches many accounts at once.

There is a hook from seeds only if the account's link to a program-derived address can be resolved.
-/
import InterfacePages.Hooks.Piece

namespace InterfacePages

namespace Hooks

def accountHook (scope : Scope) (n : Node) : Except Fault Fragment := do
  let data ← scope.identifier .dataType n
  let decoder ← scope.identifier .decoderFunction n
  let hook ← scope.identifier .accountHook n
  withImports
    (List.flatten [
      settingsType hook [connectionField, subscriptionField],
      [ "export function " ++ hook ++ "(address: Address, config: " ++ hook ++ "Config) \x7b",
        dataState data, statusState, errorState, decoderLine decoder, "", "  useEffect(() => \x7b"],
      watching,
      answering "data, error, status"])
    [react ["useEffect", "useMemo", "useState"], addressType, connectionTypes, subscriptionTypes,
      client ["type " ++ data, decoder]]

def deriveAddress (find seeds dependency : Text) : List Text := List.flatten [
  [ "  // Derive PDA address.",
    "  useEffect(() => \x7b",
    "    let cancelled = false;",
    "    setStatus('loading');",
    "    (async () => \x7b",
    "      try \x7b",
    "        const [pda] = await " ++ find ++ "(" ++ seeds ++ "\x7b programAddress: config.programAddress \x7d);",
    "        if (!cancelled) setAddress(pda);"],
  reporting "cancelled",
  [ "    return () => \x7b cancelled = true; \x7d;",
    "  \x7d, [config.programAddress" ++ dependency ++ "]);",
    ""]]

/-- the hook that derives an account's address from the seeds of a program-derived address -/
def fromSeedsHook (scope : Scope) (n pda : Node) : Except Fault Fragment := do
  let data ← scope.identifier .dataType n
  let decoder ← scope.identifier .decoderFunction n
  let find ← scope.identifier .pdaFindFunction pda
  let seedsType ← scope.identifier .pdaSeedsType pda
  let given ← hasGivenSeeds pda
  let hook ← scope.identifier .accountFromSeedsHook n
  let parameter := textIf given ("seeds: " ++ seedsType ++ ", ")
  withImports
    (List.flatten [
      settingsType hook [connectionField, subscriptionField, programField],
      [ "export function " ++ hook ++ "(" ++ parameter ++ "config: " ++ hook ++ "Config) \x7b",
        addressState, dataState data, statusState, errorState, decoderLine decoder, ""],
      deriveAddress find (textIf given "seeds, ") (textIf given ", seeds"),
      ["  // Subscribe to account once address is derived.", "  useEffect(() => \x7b", "    if (!address) return;"],
      watching,
      answering "address, data, error, status"])
    ([react ["useEffect", "useMemo", "useState"], addressType, connectionTypes, subscriptionTypes,
      client ["type " ++ data, decoder, find]] ++ if given then [client ["type " ++ seedsType]] else [])

/-- the hook from seeds for the account at the end of a path, if its link to an address can be resolved -/
def fromSeeds (scope : Scope) (path : List Node) (n : Node) : Except Fault (Option Fragment) := do
  let link ← n.get .pda
  if link.isAbsent then return none
  match ← scope.links.resolve path (← link.asNode) with
  | none => return none
  | some pda => return some (← fromSeedsHook scope n pda)

/-- the hook that fetches many accounts -/
def batchHook (scope : Scope) (n : Node) : Except Fault Fragment := do
  let data ← scope.identifier .dataType n
  let decoder ← scope.identifier .decoderFunction n
  let hook ← scope.identifier .batchAccountHook n
  withImports
    (List.flatten [
      settingsType hook [connectionField],
      [ "export function " ++ hook ++ "(addresses: Address[], config: " ++ hook ++ "Config) \x7b",
        stateOf "data" "setData" ("(" ++ data ++ " | null)[]") "[]", statusState, errorState, decoderLine decoder,
        "",
        "  useEffect(() => \x7b",
        "    if (addresses.length === 0) \x7b",
        "      setData([]);",
        "      setStatus('success');",
        "      return;",
        "    \x7d",
        "",
        "    let cancelled = false;",
        "    setStatus('loading');",
        "",
        "    (async () => \x7b",
        "      try \x7b",
        "        const encodedAccounts = await config.rpc",
        "          .getMultipleAccounts(addresses, \x7b encoding: 'base64' \x7d)",
        "          .send();",
        "        if (cancelled) return;",
        "",
        "        const decoded = encodedAccounts.value.map((account) => \x7b",
        "          if (!account || !account.data) return null;",
        "          return decoder.decode(account.data[0] as unknown as Uint8Array);",
        "        \x7d);",
        "        setData(decoded);",
        "        setStatus('success');"],
      reporting "cancelled",
      ["", "    return () => \x7b cancelled = true; \x7d;", "  \x7d, [addresses, config.rpc, decoder]);", ""],
      answering "data, error, status"])
    [react ["useEffect", "useMemo", "useState"], addressType, connectionTypes, client ["type " ++ data, decoder]]

def account (scope : Scope) (path : List Node) (n : Node) : Except Fault Fragment := do
  let watch ← accountHook scope n
  let derived ← fromSeeds scope path n
  let batch ← batchHook scope n
  return Fragment.paragraphs ([watch] ++ derived.toList ++ [batch])

end Hooks

end InterfacePages
