import KeyVault.Proofs.Cipher.Blob
import KeyVault.Proofs.Records
import KeyVault.Proofs.Text.Base64
import KeyVault.Token

/-!
# Tokens are read back

A token that has been written under one of the protectors of the library gives back its key. What
else is accepted as a token can be said exactly, since decoding and opening undo encoding and
sealing and accept nothing else.

## Main statements

- `Token.exists_write` — the token of a key is there, and the key is read from it
- `Token.tokens_are_accepted_exactly` — which texts are accepted as which key
-/

namespace KeyVault

namespace Protector

/-- Nothing is never the protected form of something. -/
theorem reveal_nil_ne {p : Protector} (hp : p = .passthrough ∨ ∃ key, p = .localKey key)
    {plain : Bytes} (hplain : plain ≠ []) : p.reveal [] ≠ .ok plain := by
  rintro h
  rcases hp with rfl | ⟨key, rfl⟩
  · exact hplain (Except.ok.inj h).symm
  · cases h

theorem reliable_of_library {p : Protector} (hp : p = .passthrough ∨ ∃ key, p = .localKey key) :
    p.Reliable := by
  rcases hp with rfl | ⟨key, rfl⟩
  · exact reliable_passthrough
  · exact reliable_localKey key

end Protector

namespace Token

theorem content_ne_nil (k : Key) : content k ≠ [] :=
  (restores_keyMaterial k.components).begins.ne_nil

theorem decode_content (k : Key) :
    (Json.decode (content k) : Except Json.Failure KeyMaterial) = .ok k.components :=
  (restores_keyMaterial k.components).decode_encode (by decide)

/-- A text is read as the key whose components its bytes reveal. -/
theorem read_encode {p : Protector} {k : Key} {stored plain : Bytes} (hstored : stored ≠ [])
    (hreveal : p.reveal stored = .ok plain) (hdecode : Json.decode plain = .ok k.components) :
    read p (Base64.encode stored) = .ok k := by
  have hplain : (p.reveal stored).mapError Fault.protection = .ok plain :=
    mapError_eq_ok_iff.2 hreveal
  have hmaterial : (Json.decode plain : Except Json.Failure KeyMaterial).mapError Fault.record
      = .ok k.components := mapError_eq_ok_iff.2 hdecode
  rw [read, if_neg (Base64.encode_ne_empty hstored), Base64.decode?_encode]
  simp only [bind, Except.bind, hplain, hmaterial, Key.ofComponents_components]
  rfl

/-- A text that is read as a key encodes bytes which reveal the components of the key. -/
theorem exists_stored_of_read {p : Protector} {token : String} {k : Key}
    (h : read p token = .ok k) : ∃ stored plain, token = Base64.encode stored ∧
      p.reveal stored = .ok plain ∧ Json.decode plain = .ok k.components := by
  rw [read] at h
  by_cases hempty : token = ""
  · rw [if_pos hempty] at h
    cases h
  · rw [if_neg hempty] at h
    cases hstored : Base64.decode? token with
    | none =>
      rw [hstored] at h
      cases h
    | some stored =>
      rw [hstored] at h
      obtain ⟨plain, hplain, h⟩ := bind_eq_ok_iff.1 h
      obtain ⟨material, hmaterial, h⟩ := bind_eq_ok_iff.1 h
      obtain rfl := Key.ofComponents_eq_ok_iff.1 (mapError_eq_ok_iff.1 h)
      exact ⟨stored, plain, Base64.decode?_eq_some_iff.1 hstored, mapError_eq_ok_iff.1 hplain,
        mapError_eq_ok_iff.1 hmaterial⟩

theorem exists_write {p : Protector} (hp : p = .passthrough ∨ ∃ key, p = .localKey key) (k : Key)
    (entropy : Entropy) :
    ∃ token rest, write p k entropy = (.ok token, rest) ∧ read p token = .ok k := by
  obtain ⟨stored, hprotect, hreveal⟩ := Protector.reliable_of_library hp (content k) entropy
  -- An empty text counts as no token at all.
  have hstored : stored ≠ [] := by
    rintro rfl
    exact Protector.reveal_nil_ne hp (content_ne_nil k) hreveal
  refine ⟨Base64.encode stored, (p.protect (content k) entropy).2, ?_,
    read_encode hstored hreveal (decode_content k)⟩
  change ((p.protect (content k) entropy).1.map Base64.encode, _) = _
  rw [hprotect]
  rfl

/-! ### Acceptance -/

theorem decode_nil_ne (material : KeyMaterial) :
    (Json.decode [] : Except Json.Failure KeyMaterial) ≠ .ok material := nofun

theorem read_passthrough_eq_ok_iff {token : String} {k : Key} :
    read .passthrough token = .ok k ↔
      ∃ plain, token = Base64.encode plain ∧ Json.decode plain = .ok k.components := by
  constructor
  · intro h
    obtain ⟨stored, plain, rfl, hreveal, hdecode⟩ := exists_stored_of_read h
    obtain rfl := Except.ok.inj hreveal
    exact ⟨stored, rfl, hdecode⟩
  · rintro ⟨plain, rfl, hdecode⟩
    have hstored : plain ≠ [] := by
      rintro rfl
      exact decode_nil_ne k.components hdecode
    exact read_encode hstored rfl hdecode

theorem read_localKey_eq_ok_iff {key : Octets 32} {token : String} {k : Key} :
    read (.localKey key) token = .ok k ↔ ∃ (nonce : Octets 12) (plain : Bytes),
      token = Base64.encode (Blob.encrypt key [] nonce plain) ∧
        Json.decode plain = .ok k.components := by
  constructor
  · intro h
    obtain ⟨stored, plain, rfl, hreveal, hdecode⟩ := exists_stored_of_read h
    obtain ⟨nonce, rfl⟩ := Blob.decrypt_eq_ok_iff.1 (mapError_eq_ok_iff.1 hreveal)
    exact ⟨nonce, plain, rfl, hdecode⟩
  · rintro ⟨nonce, plain, rfl, hdecode⟩
    have hreveal : (Protector.localKey key).reveal (Blob.encrypt key [] nonce plain) = .ok plain :=
      mapError_eq_ok_iff.2 (Blob.decrypt_encrypt key [] nonce plain)
    have hstored : Blob.encrypt key [] nonce plain ≠ [] := by
      intro hnil
      have hlength := Blob.length_encrypt key [] nonce plain
      rw [hnil] at hlength
      cases hlength
    exact read_encode hstored hreveal hdecode

/-- A token is accepted exactly if it is the text of protected bytes that hold a record with the
components of a key: under a key of the machine these bytes are an encryption of the record, and
without protection the record itself. Every token that is written is accepted as its key. A byte
string has one text only, so no other spelling of a token is taken for the same bytes. -/
theorem tokens_are_accepted_exactly :
    (∀ key token k, read (.localKey key) token = .ok k ↔
      ∃ (nonce : Octets 12) (plain : Bytes),
        token = Base64.encode (Blob.encrypt key [] nonce plain) ∧
          Json.decode plain = .ok k.components) ∧
    (∀ token k, read .passthrough token = .ok k ↔
      ∃ plain, token = Base64.encode plain ∧ Json.decode plain = .ok k.components) ∧
    (∀ key k entropy, ∃ token rest, write (.localKey key) k entropy = (.ok token, rest) ∧
      read (.localKey key) token = .ok k) ∧
    (∀ k entropy, ∃ token rest, write .passthrough k entropy = (.ok token, rest) ∧
      read .passthrough token = .ok k) ∧
    ∀ token stored, Base64.decode? token = some stored ↔ token = Base64.encode stored := by
  refine ⟨?_, ?_, ?_, ?_, ?_⟩
  · exact fun key token k => read_localKey_eq_ok_iff
  · exact fun token k => read_passthrough_eq_ok_iff
  · exact fun key => exists_write (.inr ⟨key, rfl⟩)
  · exact exists_write (.inl rfl)
  · exact fun token stored => Base64.decode?_eq_some_iff

end Token

end KeyVault
