import MiningPool.Frame.Header
import MiningPool.Noise.Transport
import MiningPool.Proofs.Cipher.Sealed

/-!
# Suites that seal

What a session relies on of the sealing of a suite: a sealed text is opened under the
same key and counter value, and it is longer than the text by a tag.  Of texts that
others sealed it relies on the tag only: whatever is opened is shorter by one.  The suite
in use seals and opens in this sense.
-/

namespace MiningPool.Noise

open MiningPool.Frame

/-- Opening undoes sealing, and sealing adds a tag. -/
structure Suite.Sealing (suite : Suite) : Prop where
  openText?_sealText : ∀ key counter associated text,
    suite.openText? key counter associated (suite.sealText key counter associated text) = some text
  length_sealText : ∀ key counter associated text,
    (suite.sealText key counter associated text).length = text.length + tagSize

/-- ChaCha20 with Poly1305 seals. -/
theorem ellSwiftChaChaPoly_sealing : ellSwiftChaChaPoly.Sealing where
  openText?_sealText key counter associated text :=
    Cipher.openText?_sealText key (nonceBytes counter) associated text
  length_sealText key counter associated text :=
    Cipher.length_sealText key (nonceBytes counter) associated text

/-- Opening takes a tag away. -/
def Suite.OpensTagged (suite : Suite) : Prop :=
  ∀ key counter associated sealedText text,
    suite.openText? key counter associated sealedText = some text →
      sealedText.length = text.length + tagSize

/-- ChaCha20 with Poly1305 opens nothing without its tag. -/
theorem ellSwiftChaChaPoly_opensTagged : ellSwiftChaChaPoly.OpensTagged :=
  fun _ _ _ _ _ opened => Cipher.length_of_openText?_eq_some opened

end MiningPool.Noise
