import MiningPool.Cipher.ChaCha20
import MiningPool.Cipher.Poly1305

/-!
# Sealed texts

A text is sealed by encrypting it and appending a tag that authenticates it together
with data that goes along in the clear.  Opening checks the tag before it decrypts.
-/

namespace MiningPool.Cipher

/-- Fill up with zeros to a multiple of sixteen bytes. -/
def fill (bytes : Bytes) : Bytes :=
  bytes ++ List.replicate ((16 - bytes.length % 16) % 16) 0

/-- The tag of a ciphertext and of the data that goes along with it. -/
def tagOf (key nonce associated ciphertext : Bytes) : Bytes :=
  Poly1305.tag ((ChaCha20.block key nonce 0).take 32) <|
    fill associated ++ fill ciphertext ++
      Bytes.ofNatLE 8 associated.length ++ Bytes.ofNatLE 8 ciphertext.length

/-- Encrypt a text and append its tag. -/
def sealText (key nonce associated text : Bytes) : Bytes :=
  let ciphertext := ChaCha20.combine key nonce 1 text
  ciphertext ++ tagOf key nonce associated ciphertext

/-- Decrypt a sealed text; `none` unless it ends in its tag. -/
def openText? (key nonce associated sealedText : Bytes) : Option Bytes :=
  if sealedText.length < 16 then none
  else
    let ciphertext := sealedText.take (sealedText.length - 16)
    let tag := sealedText.drop (sealedText.length - 16)
    if tag = tagOf key nonce associated ciphertext then
      some (ChaCha20.combine key nonce 1 ciphertext)
    else none

end MiningPool.Cipher
