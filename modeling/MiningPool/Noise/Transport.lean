import MiningPool.Noise.Error
import MiningPool.Noise.Suite

/-!
# Transport ciphers

After the handshake each direction has a key and a counter of its own.  A counter
value is used once: it advances with every text that is sealed or opened, stays when
opening fails, and its last value is never used.
-/

namespace MiningPool.Noise

/-- The counter value that is never used. -/
def lastCounter : UInt64 := 0xffffffffffffffff

/-- Seal a text under a key at a counter value, and answer the next value. -/
def sealNext
    (suite : Suite)
    (key : Bytes)
    (counter : UInt64)
    (associated text : Bytes) :
    Except NoiseError (Bytes × UInt64) :=
  if counter = lastCounter then .error .nonceExhausted
  else .ok (suite.sealText key counter associated text, counter + 1)

/-- Open a sealed text under a key at a counter value, and answer the next value. -/
def openNext
    (suite : Suite)
    (key : Bytes)
    (counter : UInt64)
    (associated sealedText : Bytes) :
    Except NoiseError (Bytes × UInt64) :=
  if counter = lastCounter then .error .nonceExhausted
  else
    match suite.openText? key counter associated sealedText with
    | none => .error .unauthentic
    | some text => .ok (text, counter + 1)

/-- The key and the counter of one direction. -/
structure Direction where
  key : Bytes
  counter : UInt64
  deriving DecidableEq, Repr

/-- A direction whose key has not been used. -/
def Direction.ofKey (key : Bytes) : Direction :=
  ⟨key, 0⟩

/-- The ciphers of one party. -/
structure Transport where
  sending : Direction
  receiving : Direction
  deriving DecidableEq, Repr

namespace Transport

/-- Seal a text for the other party. -/
def encrypt
    (suite : Suite)
    (transport : Transport)
    (text : Bytes) :
    Except NoiseError (Bytes × Transport) :=
  match sealNext suite transport.sending.key transport.sending.counter [] text with
  | .error failure => .error failure
  | .ok (sealedText, counter) =>
    .ok (sealedText, { transport with sending := ⟨transport.sending.key, counter⟩ })

/-- Open a sealed text of the other party. -/
def decrypt
    (suite : Suite)
    (transport : Transport)
    (sealedText : Bytes) :
    Except NoiseError (Bytes × Transport) :=
  match openNext suite transport.receiving.key transport.receiving.counter [] sealedText with
  | .error failure => .error failure
  | .ok (text, counter) =>
    .ok (text, { transport with receiving := ⟨transport.receiving.key, counter⟩ })

end Transport

end MiningPool.Noise
