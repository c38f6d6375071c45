import KeyVault.Proofs.Except
import KeyVault.Protector

/-!
# Blobs open exactly as they were sealed

A blob opens to a message exactly if it is the blob that encryption makes of the message with the
nonce at its head. Every other byte string is refused: as too short if it has fewer bytes than a
nonce and an authenticator, and as forged otherwise. Keys and protectors with a key of the machine
differ only in the data that they bind and in their errors.

## Main definitions

- `Blob.OpensExactly` — opening accepts what sealing makes, and nothing else

## Main statements

- `Blob.decrypt_eq_ok_iff`, `Blob.decrypt_eq_short_iff`, `Blob.decrypt_eq_forged_iff` — the outcomes
  of opening, each with its exact condition
- `Blob.sealed_blobs_open_exactly` — blobs of keys and of protectors
-/

namespace KeyVault

namespace Blob

variable {key : Octets 32} {bound blob message : Bytes} {nonce : Octets 12}

/-! ### Parts of a blob -/

/-- What stands before the authenticator. -/
theorem take_encrypt_front (key : Octets 32) (bound : Bytes) (nonce : Octets 12) (message : Bytes) :
    (encrypt key bound nonce message).take (message.length + 12)
      = nonce.bytes ++ ChaCha20.crypt key nonce message := by
  rw [encrypt]
  apply List.take_left'
  rw [List.length_append, nonce.length_bytes, ChaCha20.length_crypt, Nat.add_comm]

/-- What stands before the authenticator determines the message. -/
theorem eq_of_take_encrypt {message' : Bytes}
    (hlength : message.length = message'.length)
    (hfront : (encrypt key bound nonce message).take (message.length + 12)
      = (encrypt key bound nonce message').take (message.length + 12)) : message = message' := by
  have hcipher : ChaCha20.crypt key nonce message = ChaCha20.crypt key nonce message' := by
    rw [take_encrypt_front, hlength, take_encrypt_front] at hfront
    exact List.append_cancel_left hfront
  rw [← ChaCha20.crypt_crypt key nonce message, hcipher, ChaCha20.crypt_crypt]

/-! ### Opening -/

theorem decrypt_of_short (h : blob.length < 28) :
    decrypt key bound blob = .error (.short blob.length) :=
  dif_pos h

/-- A blob that opens has been encrypted, with the nonce at its head. -/
theorem exists_nonce_of_decrypt (h : decrypt key bound blob = .ok message) :
    ∃ nonce : Octets 12, blob = encrypt key bound nonce message := by
  by_cases hlength : blob.length < 28
  · rw [decrypt_of_short hlength] at h
    cases h
  · have hlong : ¬ blob.length < nonceSize + tagSize := hlength
    rw [decrypt, dif_neg hlong] at h
    simp only at h
    split at h
    next htag =>
      obtain rfl := Except.ok.inj h
      have hhead : (blob.take 12).length = 12 := by
        rw [List.length_take]
        omega
      refine ⟨⟨blob.take 12, hhead⟩, ?_⟩
      rw [encrypt, ChaCha20.crypt_crypt, htag, List.append_assoc, List.take_append_drop,
        List.take_append_drop]
    next => cases h

theorem length_of_decrypt (h : decrypt key bound blob = .ok message) :
    blob.length = message.length + 28 := by
  obtain ⟨nonce, rfl⟩ := exists_nonce_of_decrypt h
  exact length_encrypt key bound nonce message

/-- A blob opens to a message exactly if it is what encryption makes of the message. -/
theorem decrypt_eq_ok_iff :
    decrypt key bound blob = .ok message ↔
      ∃ nonce : Octets 12, blob = encrypt key bound nonce message := by
  constructor
  · exact exists_nonce_of_decrypt
  · rintro ⟨nonce, rfl⟩
    exact decrypt_encrypt key bound nonce message

/-- A blob that is long enough opens, or is refused as forged. -/
theorem decrypt_cases (key : Octets 32) (bound : Bytes) (h : 28 ≤ blob.length) :
    (∃ message, decrypt key bound blob = .ok message) ∨
      decrypt key bound blob = .error .forged := by
  have hlong : ¬ blob.length < nonceSize + tagSize := Nat.not_lt.2 h
  rw [decrypt, dif_neg hlong]
  simp only
  split
  · exact .inl ⟨_, rfl⟩
  · exact .inr rfl

theorem decrypt_eq_short_iff {n : Nat} :
    decrypt key bound blob = .error (.short n) ↔ blob.length < 28 ∧ n = blob.length := by
  by_cases hlength : blob.length < 28
  · rw [decrypt_of_short hlength]
    simp [hlength, eq_comm]
  · -- A blob that is long enough is never called short.
    rcases decrypt_cases key bound (Nat.not_lt.1 hlength) with ⟨message, hopen⟩ | hforged
    · simp [hopen, hlength]
    · simp [hforged, hlength]

theorem decrypt_eq_forged_iff :
    decrypt key bound blob = .error .forged ↔
      28 ≤ blob.length ∧ ∀ (nonce : Octets 12) message, blob ≠ encrypt key bound nonce message := by
  constructor
  · intro hforged
    constructor
    · refine Nat.le_of_not_lt fun hshort => ?_
      rw [decrypt_of_short hshort] at hforged
      cases hforged
    · rintro nonce message rfl
      rw [decrypt_encrypt] at hforged
      cases hforged
  · rintro ⟨hlength, hnone⟩
    rcases decrypt_cases key bound hlength with ⟨message, hopen⟩ | hforged
    · obtain ⟨nonce, hblob⟩ := exists_nonce_of_decrypt hopen
      exact absurd hblob (hnone nonce message)
    · exact hforged

/-- A blob whose authenticator has been changed, and nothing else, is forged. -/
theorem decrypt_of_changed_tag
    (hlength : blob.length = (encrypt key bound nonce message).length)
    (hfront : blob.take (message.length + 12)
      = (encrypt key bound nonce message).take (message.length + 12))
    (hchanged : blob ≠ encrypt key bound nonce message) :
    decrypt key bound blob = .error .forged := by
  rw [decrypt_eq_forged_iff]
  rw [length_encrypt] at hlength
  refine ⟨by omega, ?_⟩
  rintro nonce' message' rfl
  -- Nonce and message are determined by what stands before the authenticator.
  have hsame : message'.length = message.length := by
    rw [length_encrypt] at hlength
    omega
  have hnonce : nonce' = nonce := by
    have hhead := congrArg (List.take 12) hfront
    rw [List.take_take, List.take_take, Nat.min_eq_left (by omega), take_encrypt,
      take_encrypt] at hhead
    exact Octets.ext_bytes hhead
  subst hnonce
  rw [← hsame] at hfront
  exact hchanged (congrArg _ (eq_of_take_encrypt hsame hfront))

/-! ### Keys and protectors -/

/-- Opening accepts what sealing makes, and nothing else. -/
structure OpensExactly {ε : Type} (sealing : Octets 12 → Bytes → Bytes)
    (opening : Bytes → Except ε Bytes) (short : Nat → ε) (forged : ε) : Prop where
  /-- What opens to a message has been made of it, with the nonce at its head. -/
  opening_eq_ok_iff : ∀ blob message, opening blob = .ok message ↔ 28 ≤ blob.length ∧
    ∃ nonce : Octets 12, nonce.bytes = blob.take 12 ∧ blob = sealing nonce message
  opening_eq_short_iff : ∀ blob n, opening blob = .error (short n) ↔
    blob.length < 28 ∧ n = blob.length
  opening_eq_forged_iff : ∀ blob, opening blob = .error forged ↔
    28 ≤ blob.length ∧ ∀ nonce message, blob ≠ sealing nonce message
  opening_sealing : ∀ nonce message, opening (sealing nonce message) = .ok message
  length_sealing : ∀ nonce message, (sealing nonce message).length = message.length + 28
  /-- Under one nonce, only one blob opens to a message. -/
  opening_ne_of_ne : ∀ (nonce : Octets 12) message blob, blob.take 12 = nonce.bytes →
    blob ≠ sealing nonce message → opening blob ≠ .ok message
  /-- A change that is confined to the last 16 bytes is found out. -/
  opening_of_changed_tag : ∀ nonce message blob, blob.length = (sealing nonce message).length →
    blob.take (message.length + 12) = (sealing nonce message).take (message.length + 12) →
    blob ≠ sealing nonce message → opening blob = .error forged

/-- Blobs open exactly as they were sealed, whatever errors tell their faults apart. -/
theorem opensExactly_of_mapError {ε : Type} {f : Fault → ε} (hf : ∀ x y, f x = f y → x = y)
    (key : Octets 32) (bound : Bytes) :
    OpensExactly (encrypt key bound) (fun blob => (decrypt key bound blob).mapError f)
      (fun n => f (.short n)) (f .forged) := by
  constructor
  · intro blob message
    rw [mapError_eq_ok_iff, decrypt_eq_ok_iff]
    constructor
    · rintro ⟨nonce, rfl⟩
      exact ⟨by simp, nonce, (take_encrypt key bound nonce message).symm, rfl⟩
    · rintro ⟨-, nonce, -, hblob⟩
      exact ⟨nonce, hblob⟩
  · intro blob n
    rw [mapError_eq_error_iff hf, decrypt_eq_short_iff]
  · intro blob
    rw [mapError_eq_error_iff hf, decrypt_eq_forged_iff]
  · intro nonce message
    rw [mapError_eq_ok_iff, decrypt_encrypt]
  · exact length_encrypt key bound
  · intro nonce message blob hhead hother hopen
    obtain ⟨nonce', hblob⟩ := exists_nonce_of_decrypt (mapError_eq_ok_iff.1 hopen)
    have hnonce : nonce' = nonce := by
      rw [hblob, take_encrypt] at hhead
      exact Octets.ext_bytes hhead
    exact hother (hnonce ▸ hblob)
  · intro nonce message blob hlength hfront hchanged
    rw [mapError_eq_error_iff hf]
    exact decrypt_of_changed_tag hlength hfront hchanged

/-- The blobs of a key open exactly as they were sealed, and so do those of a protector with a key
of the machine, which draws its nonce and binds no data. Blobs of fewer than 28 bytes are refused as
too short, and all others that were not sealed as forged. -/
theorem sealed_blobs_open_exactly :
    (∀ k : Key, OpensExactly k.encrypt k.decrypt (fun n => KeyError.decryption (.short n))
      (KeyError.decryption .forged)) ∧
    ∀ key : Octets 32,
      (∀ plain entropy, (Protector.localKey key).protect plain entropy
        = (.ok (encrypt key [] (entropy.draw 12).1 plain), (entropy.draw 12).2)) ∧
      OpensExactly (encrypt key []) (Protector.localKey key).reveal ProtectorError.short
        ProtectorError.forged := by
  constructor
  · intro k
    exact opensExactly_of_mapError (fun _ _ h => KeyError.decryption.inj h) k.encryption
      k.mac.bytes
  · intro key
    refine ⟨fun _ _ => rfl, opensExactly_of_mapError (f := Protector.errorOf) ?_ key []⟩
    intro fault fault' h
    cases fault <;> cases fault' <;> simp_all [Protector.errorOf]

end Blob

end KeyVault
