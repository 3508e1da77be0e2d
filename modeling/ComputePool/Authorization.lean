import ComputePool.Digest
import ComputePool.Json.Persistent
import ComputePool.Text.Hex

/-!
# Authorizations

A signed permission for one worker to act on one task. The signature is a keyed digest of the
worker's wallet, the task and its enclave challenge. Each part of the signed message stands behind
its length, so no byte can move from one part to the next unnoticed.
-/

namespace ComputePool

/-- A permission for a worker to contribute to a task. -/
structure Authorization where
  workerWallet : String
  chainTaskId : String
  enclaveChallenge : String
  signature : String
deriving DecidableEq

/-- One part of a signed message: its length in eight bytes, and its bytes. -/
def messagePart (bytes : List UInt8) : List UInt8 := Digest.bigEndian 8 bytes.length ++ bytes

/-- The message whose digest signs an authorization. -/
def signedMessage (key wallet chainTaskId enclaveChallenge : List UInt8) : List UInt8 :=
  messagePart key ++ messagePart wallet ++ messagePart chainTaskId ++ messagePart enclaveChallenge

/-- The bytes of a text in UTF-8. -/
def utf8 (s : String) : List UInt8 := s.toUTF8.toList

/-- Who signs authorizations. -/
structure Signer where
  key : List UInt8
deriving DecidableEq

/-- Signs the authorization of a worker for a task. -/
def Signer.authorize (s : Signer) (wallet chainTaskId enclaveChallenge : String) : Authorization :=
  let message := signedMessage s.key (utf8 wallet) (utf8 chainTaskId) (utf8 enclaveChallenge)
  { workerWallet := wallet
    chainTaskId
    enclaveChallenge
    signature := "0x" ++ String.ofList (Hex.text (Digest.sha256 message)) }

open Json in
instance : Persistent Authorization where
  encode a := .obj <|
    field "worker_wallet" a.workerWallet ++ field "chain_task_id" a.chainTaskId ++
    field "enclave_challenge" a.enclaveChallenge ++ field "signature" a.signature
  decode? v := do
    let fields ← v.fields? ["worker_wallet", "chain_task_id", "enclave_challenge", "signature"]
    return {
      workerWallet := ← required? fields "worker_wallet"
      chainTaskId := ← required? fields "chain_task_id"
      enclaveChallenge := ← required? fields "enclave_challenge"
      signature := ← required? fields "signature" }

end ComputePool
