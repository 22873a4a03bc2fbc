import MiningPool.Digest.Keyed
import MiningPool.Noise.Transport

/-!
# Symmetric state

What both parties of a handshake compute in step with each other: a digest of all that
was said, a chaining key into which every agreed secret is mixed, and once there is a
key, a cipher that binds what it seals to the digest.
-/

namespace MiningPool.Noise

/-- The digest of the name of the protocol, from which both parties start. -/
def protocolName : Bytes :=
  Digest.Sha256.hash "Noise_NX_Secp256k1+EllSwift_ChaChaPoly_SHA256".toUTF8.toList

/-- The state that both parties keep equal. -/
structure Symmetric where
  /-- The digest of all that was said. -/
  hash : Bytes
  /-- The key into which agreed secrets are mixed. -/
  chainingKey : Bytes
  /-- The key in force; without one nothing is sealed. -/
  key : Option Bytes
  /-- The key with which the cipher was made. -/
  cipher : Option Bytes
  /-- The next counter value of the cipher. -/
  counter : UInt64
  deriving DecidableEq, Repr

namespace Symmetric

/-- Go back to the digest and chaining key of the start, without a key in force. -/
def restart (state : Symmetric) : Symmetric :=
  { state with hash := Digest.Sha256.hash protocolName, chainingKey := protocolName, key := none }

/-- The state before anything was said. -/
def start : Symmetric :=
  restart ⟨[], [], none, none, 0⟩

/-- Take bytes into the digest. -/
def mixHash (state : Symmetric) (bytes : Bytes) : Symmetric :=
  { state with hash := Digest.Sha256.hash (state.hash ++ bytes) }

/-- Put a key in force, with a cipher that starts over. -/
def initializeKey (state : Symmetric) (key : Bytes) : Symmetric :=
  { state with key := some key, cipher := some key, counter := 0 }

/-- Mix an agreed secret into the chaining key and put a key derived from it in force. -/
def mixKey (state : Symmetric) (secret : Bytes) : Symmetric :=
  let (chainingKey, key) := Digest.derivePair state.chainingKey secret
  { state with chainingKey }.initializeKey key

/-- Seal a text with the cipher; without a cipher it stays as it is. -/
def sealWith
    (suite : Suite)
    (state : Symmetric)
    (associated text : Bytes) :
    Except NoiseError (Bytes × Symmetric) :=
  match state.cipher with
  | none => .ok (text, state)
  | some key =>
    match sealNext suite key state.counter associated text with
    | .error failure => .error failure
    | .ok (sealedText, counter) => .ok (sealedText, { state with counter })

/-- Open a sealed text with the cipher; without a cipher it stays as it is. -/
def openWith
    (suite : Suite)
    (state : Symmetric)
    (associated sealedText : Bytes) :
    Except NoiseError (Bytes × Symmetric) :=
  match state.cipher with
  | none => .ok (sealedText, state)
  | some key =>
    match openNext suite key state.counter associated sealedText with
    | .error failure => .error failure
    | .ok (text, counter) => .ok (text, { state with counter })

/-- Seal a text bound to the digest when a key is in force, and take the result into it. -/
def encryptAndHash
    (suite : Suite)
    (state : Symmetric)
    (text : Bytes) :
    Except NoiseError (Bytes × Symmetric) :=
  match state.key with
  | none => .ok (text, state.mixHash text)
  | some _ =>
    match state.sealWith suite state.hash text with
    | .error failure => .error failure
    | .ok (sealedText, state) => .ok (sealedText, state.mixHash sealedText)

/-- Open a text bound to the digest when a key is in force, and take what was sent into it. -/
def decryptAndHash
    (suite : Suite)
    (state : Symmetric)
    (sealedText : Bytes) :
    Except NoiseError (Bytes × Symmetric) :=
  match state.key with
  | none => .ok (sealedText, state.mixHash sealedText)
  | some _ =>
    match state.openWith suite state.hash sealedText with
    | .error failure => .error failure
    | .ok (text, state) => .ok (text, state.mixHash sealedText)

/-- Split the chaining key into a key for each direction, that of the initiator first. -/
def split (state : Symmetric) : Bytes × Bytes :=
  Digest.derivePair state.chainingKey []

end Symmetric

/-- A step of a handshake: it can fail, and keeps the state reached up to then. -/
abbrev Handshake := ExceptT NoiseError (StateM Symmetric)

namespace Handshake

/-- Change the state without a chance to fail. -/
def change (next : Symmetric → Symmetric) : Handshake Unit :=
  modify next

/-- Run an operation that leaves the state alone when it fails. -/
def attempt (operation : Symmetric → Except NoiseError (Bytes × Symmetric)) :
    Handshake Bytes := do
  match operation (← get) with
  | .error failure => throw failure
  | .ok (bytes, state) => do
    set state
    return bytes

end Handshake

end MiningPool.Noise
