import MiningPool.Noise.Handshake

/-!
# Agreement

Two parties whose messages reach each other unchanged and at one time.
-/

namespace MiningPool.Noise

/-- The transports of both parties after the three steps of a handshake. -/
def agree
    (suite : Suite)
    (initiator : Initiator)
    (responder : Responder)
    (now : UInt32)
    (stream : Digest.Stream) :
    Except NoiseError (Transport × Transport) := do
  let (initiator, hello) := initiator.hello suite
  let (reply, theirs) ← (responder.reply suite (← hello) now stream).2
  let ours ← (initiator.finish suite reply now).2
  return (ours, theirs)

end MiningPool.Noise
