/-
The hook of an instruction, which signs, sends and confirms it.
-/
import InterfacePages.Hooks.Piece

namespace InterfacePages

namespace Hooks

/-- builds, signs, sends and confirms an instruction -/
def sending (build input : Text) : List Text := [
  "  const send = useCallback(async (input: " ++ input ++ ") => \x7b",
  "    setStatus('sending');",
  "    setError(null);",
  "    setSignature(null);",
  "    try \x7b",
  "      const instruction = " ++ build ++ "(input);",
  "      const \x7b value: latestBlockhash \x7d = await config.rpc",
  "        .getLatestBlockhash()",
  "        .send();",
  "      const transactionMessage = pipe(",
  "        createTransactionMessage(\x7b version: 0 \x7d),",
  "        tx => setTransactionMessageFeePayerSigner(config.signer, tx),",
  "        tx => setTransactionMessageLifetimeUsingBlockhash(latestBlockhash, tx),",
  "        tx => appendTransactionMessageInstruction(instruction, tx),",
  "      );",
  "      const signedTransaction = await signTransactionMessageWithSigners(transactionMessage);",
  "      setStatus('confirming');",
  "      const txSignature = getSignatureFromTransaction(signedTransaction);",
  "      setSignature(txSignature);",
  "      const sendAndConfirm = sendAndConfirmTransactionFactory(" ++
    "\x7b rpc: config.rpc, rpcSubscriptions: config.rpcSubscriptions \x7d);",
  "      await sendAndConfirm(signedTransaction as Parameters<typeof sendAndConfirm>[0], \x7b",
  "        commitment: 'confirmed',",
  "      \x7d);",
  "      setStatus('success');",
  "    \x7d catch (e) \x7b",
  "      setError(e instanceof Error ? e : new Error(String(e)));",
  "      setStatus('error');",
  "    \x7d",
  "  \x7d, [config.rpc, config.rpcSubscriptions, config.signer]);",
  ""]

def sendingNeeds : Needs := [
  ("solanaSigners", ["type TransactionSigner", "signTransactionMessageWithSigners"]),
  ("solanaFunctional", ["pipe"]),
  ("solanaKeys", ["type Signature"]),
  ("solanaTransactionMessages", [
    "appendTransactionMessageInstruction", "createTransactionMessage", "setTransactionMessageFeePayerSigner",
    "setTransactionMessageLifetimeUsingBlockhash"]),
  ("solanaTransactions", ["getSignatureFromTransaction"]),
  ("solanaTransactionConfirmation", ["sendAndConfirmTransactionFactory"])]

def instruction (scope : Scope) (n : Node) : Except Fault Fragment := do
  let build ← scope.identifier .instructionSyncFunction n
  let input ← scope.identifier .instructionSyncInputType n
  let hook ← scope.identifier .instructionHook n
  withImports
    (List.flatten [
      settingsType hook [connectionField, subscriptionField, "  signer: TransactionSigner;"],
      [ "export function " ++ hook ++ "(config: " ++ hook ++ "Config) \x7b",
        stateOf "status" "setStatus" "'idle' | 'sending' | 'confirming' | 'success' | 'error'" "'idle'",
        errorState, stateOf "signature" "setSignature" "Signature | null" "null", ""],
      sending build input,
      answering "error, send, signature, status"])
    ([react ["useCallback", "useState"], connectionTypes, subscriptionTypes] ++ sendingNeeds ++
      [client [build, "type " ++ input]])

end Hooks

end InterfacePages
