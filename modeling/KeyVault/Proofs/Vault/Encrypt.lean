import KeyVault.Proofs.Except
import KeyVault.Vault.Decrypt
import KeyVault.Vault.Encrypt

/-!
# What encrypting gives

A vault whose default key is held encrypts everything, whatever envelope it is given to compare
with, and the result opens under the default key. A vault without one refuses.

## Main statements

- `Vault.encryptBytes_cases` — encryption under the default key, kept envelopes included
- `Vault.exists_encryptBytes` — it succeeds, and the result opens
- `Vault.encryptBytes_of_none`, `Vault.getKeys_of_none` — no default key
- `Vault.decryptBytes_of_find?` — decryption with the key that an envelope names
-/

namespace KeyVault

namespace Vault

variable {v : Vault} {name : String} {k : Key}

/-! ### References -/

theorem referred?_eq_some {reference : Option String} :
    v.referred? reference = some (name, k) ↔ reference = some name ∧ v.find? name = some k := by
  cases reference with
  | none => simp [referred?]
  | some n =>
    constructor
    · intro h
      cases hfind : v.find? n with
      | none => simp [referred?, hfind] at h
      | some held =>
        obtain ⟨rfl, rfl⟩ : n = name ∧ held = k := by simpa [referred?, hfind] using h
        exact ⟨rfl, hfind⟩
    · rintro ⟨hname, hfind⟩
      obtain rfl := Option.some.inj hname
      simp [referred?, hfind]

theorem defaultKey?_eq_some :
    v.defaultKey? = some (name, k) ↔ v.defaultName = some name ∧ v.find? name = some k :=
  referred?_eq_some

theorem isInitialized_of_defaultKey? (h : v.defaultKey? = some (name, k)) :
    v.isInitialized = true := by
  rw [isInitialized, (defaultKey?_eq_some.1 h).1]
  rfl

/-! ### Encryption -/

/-- The envelope that is kept is the earlier one, if it stands under the default name and holds the
new bytes. -/
theorem review_eq_some_iff {plain : Bytes} {previous : Option Envelope} {e : Envelope} :
    (v.review k plain previous).1 = some e ↔
      previous = some e ∧ v.defaultName = some e.keyName ∧ k.decrypt e.blob = .ok plain := by
  cases previous with
  | none => simp [review]
  | some kept =>
    have hcan : v.canDecryptWithDefault kept = true ↔ v.defaultName = some kept.keyName := by
      simp [canDecryptWithDefault]
    rw [review, Option.filter_some]
    by_cases hdefault : v.defaultName = some kept.keyName
    · rw [if_pos (hcan.2 hdefault)]
      cases hopen : k.decrypt kept.blob <;> grind
    · rw [if_neg (mt hcan.1 hdefault)]
      grind

/-- Under a default key, encryption gives back the earlier envelope if it stands under the default
name and holds the new bytes, and draws nothing; else it seals with the next bytes as the nonce. -/
theorem encryptBytes_cases (h : v.defaultKey? = some (name, k)) (plain : Bytes)
    (previous : Option Envelope) (entropy : Entropy) :
    (∃ e, previous = some e ∧ e.keyName = name ∧ k.decrypt e.blob = .ok plain ∧
      (v.encryptBytes plain previous entropy).result = .ok e ∧
      (v.encryptBytes plain previous entropy).state = entropy) ∨
    (∀ e, previous = some e → e.keyName = name → k.decrypt e.blob ≠ .ok plain) ∧
      (v.encryptBytes plain previous entropy).result
        = .ok ⟨name, k.encrypt (entropy.draw 12).1 plain⟩ ∧
      (v.encryptBytes plain previous entropy).state = (entropy.draw 12).2 := by
  have hname := (defaultKey?_eq_some.1 h).1
  cases hreview : v.review k plain previous with
  | mk kept events =>
    cases kept with
    | some e =>
      obtain ⟨hprevious, hdefault, hopen⟩ := review_eq_some_iff.1 (congrArg Prod.fst hreview)
      have hsame : e.keyName = name := Option.some.inj (hdefault.symm.trans hname)
      refine .inl ⟨e, hprevious, hsame, hopen, ?_⟩
      simp [encryptBytes, h, hreview]
    | none =>
      refine .inr ⟨?_, ?_⟩
      · rintro e hprevious rfl hopen
        have hkept := review_eq_some_iff.2 ⟨hprevious, hname, hopen⟩
        simp [hreview] at hkept
      · simp [encryptBytes, h, hreview]

/-- Encryption succeeds under the default key, and the result opens to the bytes. -/
theorem exists_encryptBytes (h : v.defaultKey? = some (name, k)) (plain : Bytes)
    (previous : Option Envelope) (entropy : Entropy) :
    ∃ e, (v.encryptBytes plain previous entropy).result = .ok e ∧ e.keyName = name ∧
      k.decrypt e.blob = .ok plain := by
  rcases encryptBytes_cases h plain previous entropy with
    ⟨e, -, hname, hopen, hok, -⟩ | ⟨-, hok, -⟩
  · exact ⟨e, hok, hname, hopen⟩
  · exact ⟨_, hok, rfl, k.decrypt_encrypt _ _⟩

/-- The same for a value: what opens is its text. -/
theorem exists_encrypt {α : Type} [Json.Codec α] (h : v.defaultKey? = some (name, k)) (value : α)
    (previous : Option Envelope) (entropy : Entropy) :
    ∃ e, (v.encrypt value previous entropy).result = .ok e ∧ e.keyName = name ∧
      k.decrypt e.blob = .ok (Json.encode value) := by
  rw [encrypt, encryptText, isInitialized_of_defaultKey? h]
  exact exists_encryptBytes h (Json.encode value) previous entropy

/-- Whatever encryption gives opens under the key that it names. -/
theorem encryptBytes_eq_ok {plain : Bytes} {previous : Option Envelope} {entropy : Entropy}
    {e : Envelope} (h : (v.encryptBytes plain previous entropy).result = .ok e) :
    ∃ k, v.find? e.keyName = some k ∧ k.decrypt e.blob = .ok plain := by
  cases hkey : v.defaultKey? with
  | none =>
    rw [encryptBytes, hkey] at h
    cases h
  | some default =>
    obtain ⟨name, k⟩ := default
    obtain ⟨e', hok, rfl, hopen⟩ := exists_encryptBytes hkey plain previous entropy
    obtain rfl : e' = e := Except.ok.inj (hok.symm.trans h)
    exact ⟨k, (defaultKey?_eq_some.1 hkey).2, hopen⟩

theorem encryptBytes_of_none (h : v.defaultName = none) (plain : Bytes)
    (previous : Option Envelope) (entropy : Entropy) :
    (v.encryptBytes plain previous entropy).result = .error .notReady := by
  have hnone : v.defaultKey? = none := by rw [defaultKey?, h]; rfl
  rw [encryptBytes, hnone]

theorem getKeys_of_none (h : v.defaultName = none) (entropy : Entropy) :
    (v.getKeys entropy).result = .error .notReady := by
  have hnot : v.isInitialized = false := by rw [isInitialized, h]; rfl
  rw [getKeys, encrypt, encryptText, hnot]
  rfl

/-! ### Decryption -/

theorem decryptBytes_of_find? {e : Envelope} {plain : Bytes} (hfind : v.find? e.keyName = some k)
    (hopen : k.decrypt e.blob = .ok plain) : (v.decryptBytes e).result = .ok plain := by
  rw [decryptBytes, hfind]
  simp only [hopen]
  rfl

/-- An envelope opens to what the key that it names makes of it. -/
theorem decryptBytes_eq_ok_iff {e : Envelope} {plain : Bytes} :
    (v.decryptBytes e).result = .ok plain ↔
      ∃ k, v.find? e.keyName = some k ∧ k.decrypt e.blob = .ok plain := by
  constructor
  · intro h
    rw [decryptBytes] at h
    cases hfind : v.find? e.keyName with
    | none =>
      rw [hfind] at h
      cases h
    | some k =>
      rw [hfind] at h
      exact ⟨k, rfl, mapError_eq_ok_iff.1 h⟩
  · rintro ⟨k, hfind, hopen⟩
    exact decryptBytes_of_find? hfind hopen

/-- An envelope that opens to some text gives what the text is read as. -/
theorem decrypt_of_find? {α : Type} [Json.Codec α] {e : Envelope} {text : Bytes}
    (hfind : v.find? e.keyName = some k) (hopen : k.decrypt e.blob = .ok text) :
    (v.decrypt e : Outcome Unit α).result
      = (Json.decode text : Except Json.Failure α).mapError .serialization := by
  simp only [decrypt, decryptBytes_of_find? hfind hopen]
  rfl

end Vault

end KeyVault
