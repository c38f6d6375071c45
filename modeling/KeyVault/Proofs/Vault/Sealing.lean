import KeyVault.Proofs.Vault.Run

/-!
# What is newly sealed

Encryption is refused, gives back the earlier envelope, or seals a new one. A new one stands under
the default name and takes its nonce from the entropy; nothing else is drawn.

## Main definitions

- `Vault.Sealing` — what encryption gives, and what it leaves of the entropy
- `Operation.sealed?` — the envelope that an operation newly seals

## Main statements

- `Operation.sealing_perform` — all operations that encrypt
- `Operation.sealed?_eq_some`, `Operation.entropy_of_sealed?_eq_none` — a new envelope has the
  default key and the next nonce, and nothing is drawn without one
-/

namespace KeyVault

namespace Vault

/-- What encryption gives and what it leaves of the entropy, where an earlier envelope may be there
to compare with. -/
inductive Sealing (v : Vault) (previous : Option Envelope) (entropy : Entropy) :
    Except VaultError Envelope → Entropy → Prop
  | refused (error : VaultError) : Sealing v previous entropy (.error error) entropy
  | kept {e : Envelope} (hkept : previous = some e) : Sealing v previous entropy (.ok e) entropy
  | sealed {name : String} {k : Key} (plain : Bytes) (hkey : v.defaultKey? = some (name, k))
    (hnew : previous ≠ some ⟨name, k.encrypt (entropy.draw 12).1 plain⟩) :
    Sealing v previous entropy (.ok ⟨name, k.encrypt (entropy.draw 12).1 plain⟩)
      (entropy.draw 12).2

variable {v : Vault}

theorem sealing_encryptBytes (plain : Bytes) (previous : Option Envelope) (entropy : Entropy) :
    v.Sealing previous entropy (v.encryptBytes plain previous entropy).result
      (v.encryptBytes plain previous entropy).state := by
  cases hkey : v.defaultKey? with
  | none =>
    rw [encryptBytes, hkey]
    exact .refused .notReady
  | some default =>
    obtain ⟨name, k⟩ := default
    rcases encryptBytes_cases hkey plain previous entropy with
      ⟨e, hkept, -, -, hok, hstate⟩ | ⟨hdiffer, hok, hstate⟩
    · rw [hok, hstate]
      exact .kept hkept
    · rw [hok, hstate]
      -- What is sealed opens to the bytes, which no earlier envelope that is passed over does.
      exact .sealed plain hkey fun hprevious => hdiffer _ hprevious rfl (k.decrypt_encrypt _ _)

theorem sealing_encryptText (text : Except Json.Failure Bytes) (previous : Option Envelope)
    (entropy : Entropy) :
    v.Sealing previous entropy (v.encryptText text previous entropy).result
      (v.encryptText text previous entropy).state := by
  unfold encryptText
  cases v.isInitialized with
  | false => exact .refused .notReady
  | true =>
    cases text with
    | error failure => exact .refused (.serialization failure)
    | ok plain => exact sealing_encryptBytes plain previous entropy

theorem sealing_getKeys (entropy : Entropy) :
    v.Sealing none entropy (v.getKeys entropy).result (v.getKeys entropy).state :=
  sealing_encryptText _ none entropy

end Vault

namespace Operation

/-- The earlier envelope that an operation has to compare with, if it encrypts something at all. -/
def earlier? : Operation → Option (Option Envelope)
  | encryptText _ previous | encryptBytes _ previous => some previous
  | getKeys => some none
  | _ => none

/-- The envelope that an operation newly seals: the one that it gives back, unless that is the
earlier one. -/
def sealed? (op : Operation) (result : Except VaultError Answer) : Option Envelope :=
  match op.earlier?, result with
  | some previous, .ok (.envelope e) => if previous = some e then none else some e
  | _, _ => none

variable {v : Vault} {op : Operation} {entropy : Entropy} {previous : Option Envelope}
  {e : Envelope}

theorem sealing_perform (h : op.earlier? = some previous) (entropy : Entropy) :
    ∃ result, (op.perform v entropy).result = result.map .envelope ∧
      v.Sealing previous entropy result (op.perform v entropy).state.2 := by
  cases op with
  | encryptText text _ =>
    obtain rfl := Option.some.inj h
    exact ⟨_, rfl, Vault.sealing_encryptText text _ entropy⟩
  | encryptBytes plain _ =>
    obtain rfl := Option.some.inj h
    exact ⟨_, rfl, Vault.sealing_encryptBytes plain _ entropy⟩
  | getKeys =>
    obtain rfl := Option.some.inj h
    exact ⟨_, rfl, Vault.sealing_getKeys entropy⟩
  | _ => cases h

/-- A new envelope stands under the default key, and has the next nonce of the entropy. -/
theorem sealed?_eq_some (h : op.sealed? (op.perform v entropy).result = some e) :
    ∃ k plain, v.defaultKey? = some (e.keyName, k) ∧
      e.blob = k.encrypt (entropy.draw 12).1 plain ∧
      (op.perform v entropy).state.2 = (entropy.draw 12).2 := by
  cases hearlier : op.earlier? with
  | none => simp [sealed?, hearlier] at h
  | some previous =>
    obtain ⟨result, hresult, hsealing⟩ := sealing_perform (v := v) hearlier entropy
    rw [hresult] at h
    generalize (op.perform v entropy).state.2 = after at hsealing ⊢
    cases hsealing with
    | refused error => simp [sealed?, hearlier, Except.map] at h
    | kept hkept => simp [sealed?, hearlier, Except.map, hkept] at h
    | @sealed name k plain hkey hnew =>
      simp only [sealed?, hearlier, Except.map, if_neg hnew, Option.some.injEq] at h
      subst h
      exact ⟨k, plain, hkey, rfl, rfl⟩

/-- An operation that could encrypt and seals nothing leaves the entropy alone. -/
theorem entropy_of_sealed?_eq_none (hearlier : op.earlier? = some previous)
    (h : op.sealed? (op.perform v entropy).result = none) :
    (op.perform v entropy).state.2 = entropy := by
  obtain ⟨result, hresult, hsealing⟩ := sealing_perform (v := v) hearlier entropy
  rw [hresult] at h
  generalize (op.perform v entropy).state.2 = after at hsealing ⊢
  cases hsealing with
  | refused | kept => rfl
  | sealed plain hkey hnew => simp [sealed?, hearlier, Except.map, hnew] at h

end Operation

end KeyVault
