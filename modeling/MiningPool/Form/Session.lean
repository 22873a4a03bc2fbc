import MiningPool.Form.Report
import MiningPool.Frame.Basic
import MiningPool.Noise.Handshake

/-!
# Frames and handshakes in forms

The header of a frame is shown with all that follows from it.  A certificate is shown
with its bytes, and the state of a handshake with the digest of what was said so far.
-/

namespace MiningPool

open MiningPool.Noise

instance : ToForm Frame.Header where
  toForm header :=
    .fields
      [entry "ext_type" header.extensionType,
       entry "ext_type_without_channel_msg" header.plainExtensionType,
       entry "channel_msg" header.isChannelMessage,
       entry "msg_type" header.messageType,
       entry "len" header.length,
       entry "encrypted_len" header.sealedLength,
       entry "encoded" header.toBytes]

instance : ToForm Frame where
  toForm frame :=
    .fields
      [entry "header" frame.header,
       entry "encoded_length" frame.encodedLength,
       entry "payload" frame.payload?]

instance : ToForm Certificate where
  toForm certificate :=
    .fields
      [entry "message" certificate.toBytes,
       entry "version" certificate.version,
       entry "valid_from" certificate.validFrom,
       entry "not_valid_after" certificate.notValidAfter,
       entry "signature" certificate.signature]

/-- The digest and the chaining key of a handshake. -/
def Form.progress (state : Symmetric) : List (String × Form) :=
  [entry "h" state.hash, entry "ck" state.chainingKey]

instance : ToForm Symmetric where
  toForm state :=
    .fields <| Form.progress state ++
      [entry "k" state.key,
       entry "n" state.counter,
       entry "nonce" (nonceBytes state.counter),
       entry "has_cipher" state.cipher.isSome]

end MiningPool
