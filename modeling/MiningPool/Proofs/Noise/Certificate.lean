import MiningPool.Noise.Certificate

/-!
# What a certificate vouches for

A certificate is read back from its bytes.  Checking it comes down to two facts: the
authority signed the digest of version, span and static key, and the time is in the span.
-/

namespace MiningPool.Noise.Certificate

variable {suite : Suite} {certificate : Certificate} {staticKey : Bytes} {now : UInt32}

@[simp]
theorem length_toBytes (certificate : Certificate) :
    certificate.toBytes.length = 10 + certificate.signature.length := by
  simp only [toBytes, front, List.length_append, Bytes.length_ofNatLE]

theorem ofBytes_toBytes (certificate : Certificate) :
    ofBytes certificate.toBytes = certificate := by
  obtain ⟨version, validFrom, notValidAfter, signature⟩ := certificate
  have first : Bytes.toNatLE (Bytes.ofNatLE 2 version.toNat) = version.toNat :=
    (Bytes.toNatLE_ofNatLE 2 _).trans (Nat.mod_eq_of_lt version.toNat_lt)
  have second : Bytes.toNatLE (Bytes.ofNatLE 4 validFrom.toNat) = validFrom.toNat :=
    (Bytes.toNatLE_ofNatLE 4 _).trans (Nat.mod_eq_of_lt validFrom.toNat_lt)
  have third : Bytes.toNatLE (Bytes.ofNatLE 4 notValidAfter.toNat) = notValidAfter.toNat :=
    (Bytes.toNatLE_ofNatLE 4 _).trans (Nat.mod_eq_of_lt notValidAfter.toNat_lt)
  have size := Bytes.length_ofNatLE 2 version.toNat
  have sizeFrom := Bytes.length_ofNatLE 4 validFrom.toNat
  have sizeAfter := Bytes.length_ofNatLE 4 notValidAfter.toNat
  simp [toBytes, front, ofBytes, List.drop_append, List.drop_of_length_le, size, sizeFrom,
    sizeAfter, first, second, third]

/-- The digest that an authority signs to vouch for a static key. -/
def digest (certificate : Certificate) (staticKey : Bytes) : Bytes :=
  signedDigest certificate.version certificate.validFrom certificate.notValidAfter staticKey

/-- The time is in the span of a certificate. -/
def IsCurrent (certificate : Certificate) (now : UInt32) : Prop :=
  certificate.validFrom ≤ now ∧ now ≤ certificate.notValidAfter

instance : Decidable (certificate.IsCurrent now) :=
  inferInstanceAs (Decidable (_ ∧ _))

theorem check_some
    (suite : Suite)
    (certificate : Certificate)
    (staticKey authority : Bytes)
    (now : UInt32) :
    certificate.check suite staticKey (some authority) now =
      if suite.verify authority (certificate.digest staticKey) certificate.signature then
        if certificate.IsCurrent now then .ok ()
        else .error (.certificateExpired certificate.validFrom certificate.notValidAfter now)
      else .error (.invalidCertificate certificate.toBytes) :=
  rfl

/-- Who trusts an authority takes what it signed for the key, within the span. -/
theorem check_some_eq_ok_iff (authority : Bytes) :
    certificate.check suite staticKey (some authority) now = .ok () ↔
      suite.verify authority (certificate.digest staticKey) certificate.signature = true ∧
        certificate.IsCurrent now := by
  rw [check_some]
  split
  next signed =>
    split
    next current => simp [signed, current]
    next late => simp [late]
  next unsigned => simp [unsigned]

end MiningPool.Noise.Certificate
