import KeyVault.Proofs.Json.Value
import KeyVault.Proofs.Records
import KeyVault.Proofs.Vault.References

/-!
# Encrypted values come back

What a vault encrypts under its default key it decrypts again: bytes as they are, and values by
way of their JSON texts. Only a JSON value that nests deeper than the reader goes is lost, and only
when it is read.

## Main definitions

- `Vault.Returns` — what becomes of a value that is encrypted and decrypted

## Main statements

- `Vault.encrypted_values_come_back` — the round trip, for bytes and for everything with a JSON form
-/

namespace KeyVault

open Json

namespace Vault

variable {v : Vault} {α : Type} [Codec α]

/-- A value is encrypted under the default name, whatever envelope it is compared with and whatever
nonce is drawn, and decrypting gives `result`. -/
def Returns (v : Vault) (value : α) (result : Except VaultError α) : Prop :=
  ∀ previous entropy, ∃ e, (v.encrypt value previous entropy).result = .ok e ∧
    v.defaultName = some e.keyName ∧ (v.decrypt e : Outcome Unit α).result = result

/-- Decrypting reads the text that was encrypted. -/
theorem returns_of_decode (h : v.ReferencesHeld) (hinitialized : v.isInitialized = true) {value : α}
    {result : Except Failure α} (hdecode : decode (encode value) = result) :
    v.Returns value (result.mapError .serialization) := by
  intro previous entropy
  obtain ⟨name, hname⟩ := Option.isSome_iff_exists.1 hinitialized
  obtain ⟨k, hkey⟩ := h.exists_default hname
  obtain ⟨e, hok, rfl, hopen⟩ := exists_encrypt hkey value previous entropy
  refine ⟨e, hok, hname, ?_⟩
  rw [decrypt_of_find? (defaultKey?_eq_some.1 hkey).2 hopen, hdecode]

theorem returns_of_restores (h : v.ReferencesHeld) (hinitialized : v.isInitialized = true)
    {depth : Nat} {value : α} (hvalue : Restores depth value) (hdepth : depth ≤ greatestDepth) :
    v.Returns value (.ok value) :=
  returns_of_decode h hinitialized (hvalue.decode_encode hdepth)

theorem returns_bytes (h : v.ReferencesHeld) (hinitialized : v.isInitialized = true)
    (plain : Bytes) (previous : Option Envelope) (entropy : Entropy) :
    ∃ e, (v.encryptBytes plain previous entropy).result = .ok e ∧
      v.defaultName = some e.keyName ∧ (v.decryptBytes e).result = .ok plain := by
  obtain ⟨name, hname⟩ := Option.isSome_iff_exists.1 hinitialized
  obtain ⟨k, hkey⟩ := h.exists_default hname
  obtain ⟨e, hok, rfl, hopen⟩ := exists_encryptBytes hkey plain previous entropy
  exact ⟨e, hok, hname, decryptBytes_of_find? (defaultKey?_eq_some.1 hkey).2 hopen⟩

/-- A vault with a default key gives back everything that it encrypts. JSON values that nest to more
than 127 brackets are the exception: they are encrypted, and refused when they are decrypted. -/
theorem encrypted_values_come_back (hreachable : v.Reachable)
    (hinitialized : v.isInitialized = true) :
    (∀ s : String, v.Returns s (.ok s)) ∧ (∀ b : Bool, v.Returns b (.ok b)) ∧
    (∀ n : UInt64, v.Returns n (.ok n)) ∧
    (∀ e : Envelope, v.Returns e (.ok e)) ∧ (∀ c : Credentials, v.Returns c (.ok c)) ∧
    (∀ e : KeyEntry, v.Returns e (.ok e)) ∧ (∀ b : KeyBag, v.Returns b (.ok b)) ∧
    (∀ m : KeyMaterial, v.Returns m (.ok m)) ∧ (∀ n : Node, v.Returns n (.ok n)) ∧
    (∀ t : DataType, v.Returns t (.ok t)) ∧ (∀ s : DataTypeSet, v.Returns s (.ok s)) ∧
    (∀ c : StretchCost, v.Returns c (.ok c)) ∧ (∀ s : Settings, v.Returns s (.ok s)) ∧
    (∀ j : Value, j.Exact → j.depth ≤ 127 → v.Returns j (.ok j)) ∧
    (∀ j : Value, j.Exact → 128 ≤ j.depth →
      ∃ failure, failure.category = "syntax" ∧ v.Returns j (.error (.serialization failure))) ∧
    (∀ plain previous entropy, ∃ e, (v.encryptBytes plain previous entropy).result = .ok e ∧
      v.defaultName = some e.keyName ∧ (v.decryptBytes e).result = .ok plain) := by
  have hheld : v.ReferencesHeld := hreachable.referencesHeld
  refine ⟨?_, ?_, ?_, ?_, ?_, ?_, ?_, ?_, ?_, ?_, ?_, ?_, ?_, ?_, ?_, ?_⟩
  · exact fun s => returns_of_restores hheld hinitialized (restores_string s) (by decide)
  · exact fun b => returns_of_restores hheld hinitialized (restores_bool b) (by decide)
  · exact fun n => returns_of_restores hheld hinitialized (restores_doubleWord n) (by decide)
  · exact fun e => returns_of_restores hheld hinitialized (restores_envelope e) (by decide)
  · exact fun c => returns_of_restores hheld hinitialized (restores_credentials c) (by decide)
  · exact fun e => returns_of_restores hheld hinitialized (restores_keyEntry e) (by decide)
  · exact fun b => returns_of_restores hheld hinitialized (restores_keyBag b) (by decide)
  · exact fun m => returns_of_restores hheld hinitialized (restores_keyMaterial m) (by decide)
  · exact fun n => returns_of_restores hheld hinitialized (restores_node n) (by decide)
  · exact fun t => returns_of_restores hheld hinitialized (restores_dataType t) (by decide)
  · exact fun s => returns_of_restores hheld hinitialized (restores_dataTypeSet s) (by decide)
  · exact fun c => returns_of_restores hheld hinitialized (restores_stretchCost c) (by decide)
  · exact fun s => returns_of_restores hheld hinitialized (restores_settings s) (by decide)
  · intro j hexact hdepth
    exact returns_of_decode hheld hinitialized (Value.decode_encode hexact hdepth)
  · intro j hexact hdepth
    have hrefused :=
      returns_of_decode hheld hinitialized (Value.decode_encode_of_deep hexact hdepth)
    exact ⟨.malformed, rfl, hrefused⟩
  · exact returns_bytes hheld hinitialized

theorem isInitialized_signedIn {c : Credentials} (hpassword : c.HasPassword) :
    (signedIn c).isInitialized = true := by
  obtain ⟨k, -, hkey⟩ := exists_defaultKey?_signedIn hpassword
  exact isInitialized_of_defaultKey? hkey

theorem text_comes_back :
    let v := signedIn ⟨"example.org", "user", "password"⟩
    v.Reachable ∧ v.isInitialized = true ∧ v.Returns "text" (.ok "text") := by
  have hreachable := reachable_signedIn ⟨"example.org", "user", "password"⟩
  have hinitialized : (signedIn ⟨"example.org", "user", "password"⟩).isInitialized = true :=
    isInitialized_signedIn (by decide)
  exact ⟨hreachable, hinitialized, (encrypted_values_come_back hreachable hinitialized).1 "text"⟩

end Vault

end KeyVault
