import KeyVault.Proofs.Text.Base64
import KeyVault.Proofs.Vault.Transfer

/-!
# Data that has not changed

Data is encrypted next to the envelope that it had before. Where this envelope holds the same bytes
under the default key it is given back, and nothing is drawn; in every other case the data is sealed
anew. So data that does not change keeps its envelope for as long as the default key is the same,
and gets a new one when the default key has another name.

## Main definitions

- `Vault.SealsAnew` — bytes are sealed with the next twelve bytes of the stream
- `Vault.resubmit` — the same bytes again and again, each time next to their last envelope

## Main statements

- `Vault.encryptBytes_of_held`, `Vault.encryptBytes_of_not_held` — the two cases
- `Vault.resubmit_of_held` — any number of rounds
- `Vault.unchanged_data_keeps_its_envelope` — the rule, with what follows from it
-/

namespace KeyVault

namespace Vault

variable {v : Vault} {name : String} {k : Key} {plain : Bytes} {e : Envelope}

/-! ### One round -/

/-- Encryption seals the bytes under a name and with a key. The nonce is the next twelve bytes of
the stream, and these are all that is drawn. -/
def SealsAnew (v : Vault) (name : String) (k : Key) (plain : Bytes) (previous : Option Envelope)
    (entropy : Entropy) : Prop :=
  ∃ nonce : Octets 12, nonce.bytes = (List.range' entropy.position 12).map entropy.stream ∧
    (v.encryptBytes plain previous entropy).result = .ok ⟨name, k.encrypt nonce plain⟩ ∧
    (v.encryptBytes plain previous entropy).state = ⟨entropy.stream, entropy.position + 12⟩

/-- An envelope under the default name that holds the bytes is given back. -/
theorem encryptBytes_of_held (hkey : v.defaultKey? = some (e.keyName, k))
    (hopen : k.decrypt e.blob = .ok plain) (entropy : Entropy) :
    (v.encryptBytes plain (some e) entropy).result = .ok e ∧
      (v.encryptBytes plain (some e) entropy).state = entropy := by
  rcases encryptBytes_cases hkey plain (some e) entropy with
    ⟨d, hd, -, -, hresult, hstate⟩ | ⟨hdiffers, -⟩
  · obtain rfl := Option.some.inj hd
    exact ⟨hresult, hstate⟩
  · exact absurd hopen (hdiffers e rfl rfl)

/-- Without such an envelope the bytes are sealed with the next nonce. -/
theorem encryptBytes_of_not_held (hkey : v.defaultKey? = some (name, k))
    {previous : Option Envelope}
    (hdiffers : ∀ e, previous = some e → e.keyName = name → k.decrypt e.blob ≠ .ok plain)
    (entropy : Entropy) :
    (v.encryptBytes plain previous entropy).result
        = .ok ⟨name, k.encrypt (entropy.draw 12).1 plain⟩ ∧
      (v.encryptBytes plain previous entropy).state = (entropy.draw 12).2 := by
  rcases encryptBytes_cases hkey plain previous entropy with
    ⟨e, hprevious, hname, hopen, -⟩ | ⟨-, hresult, hstate⟩
  · exact absurd hopen (hdiffers e hprevious hname)
  · exact ⟨hresult, hstate⟩

theorem sealsAnew_of_not_held (hkey : v.defaultKey? = some (name, k))
    {previous : Option Envelope}
    (hdiffers : ∀ e, previous = some e → e.keyName = name → k.decrypt e.blob ≠ .ok plain)
    (entropy : Entropy) : v.SealsAnew name k plain previous entropy :=
  ⟨(entropy.draw 12).1, entropy.bytes_draw 12, encryptBytes_of_not_held hkey hdiffers entropy⟩

/-- The earlier envelope is given back with nothing drawn exactly if it stands under the default
name and holds the bytes. -/
theorem encryptBytes_eq_previous_iff (hkey : v.defaultKey? = some (name, k)) (plain : Bytes)
    (previous : Option Envelope) (entropy : Entropy) :
    (∃ e, previous = some e ∧ (v.encryptBytes plain previous entropy).result = .ok e ∧
        (v.encryptBytes plain previous entropy).state = entropy) ↔
      ∃ e, previous = some e ∧ e.keyName = name ∧ k.decrypt e.blob = .ok plain := by
  constructor
  · rintro ⟨e, rfl, -, hstate⟩
    rcases encryptBytes_cases hkey plain (some e) entropy with
      ⟨d, hd, hname, hopen, -⟩ | ⟨-, -, hdrawn⟩
    · exact ⟨d, hd, hname, hopen⟩
    · -- A new envelope moves the place in the stream on.
      have hposition := congrArg Entropy.position (hdrawn.symm.trans hstate)
      rw [Entropy.position_draw] at hposition
      omega
  · rintro ⟨e, rfl, rfl, hopen⟩
    exact ⟨e, rfl, encryptBytes_of_held hkey hopen entropy⟩

/-- A value is encrypted as its text is. -/
theorem encrypt_eq_encryptBytes {α : Type} [Json.Codec α] (hkey : v.defaultKey? = some (name, k))
    (value : α) (previous : Option Envelope) (entropy : Entropy) :
    v.encrypt value previous entropy = v.encryptBytes (Json.encode value) previous entropy := by
  rw [encrypt, encryptText, isInitialized_of_defaultKey? hkey]
  rfl

/-! ### Many rounds -/

/-- The same bytes are encrypted again and again, each time next to their last envelope, in one
state of the vault after the other and from one entropy. -/
def resubmit (plain : Bytes) :
    List Vault → Envelope → Entropy → Except VaultError (Envelope × Entropy)
  | [], e, entropy => .ok (e, entropy)
  | v :: rounds, e, entropy => do
    let again := v.encryptBytes plain (some e) entropy
    resubmit plain rounds (← again.result) again.state

/-- However many rounds there are, the envelope stays and nothing is drawn, if the default key
stands under the same name and encrypts alike in all of them. -/
theorem resubmit_of_held (hopen : k.decrypt e.blob = .ok plain) {rounds : List Vault}
    (hsame : ∀ w ∈ rounds, ∃ k', w.defaultKey? = some (e.keyName, k') ∧ k.Alike k')
    (entropy : Entropy) : resubmit plain rounds e entropy = .ok (e, entropy) := by
  induction rounds with
  | nil => rfl
  | cons w rounds ih =>
    obtain ⟨⟨k', hkey, halike⟩, hsame⟩ := List.forall_mem_cons.1 hsame
    obtain ⟨hresult, hstate⟩ :=
      encryptBytes_of_held hkey ((halike.decrypt e.blob).trans hopen) entropy
    rw [resubmit, hresult, hstate]
    exact ih hsame

/-! ### The rule -/

/-- Bytes are given back in their earlier envelope, and nothing is drawn, exactly if it is there,
stands under the default name and opens to these bytes. In every other case they are sealed with the
default key, and the next twelve bytes of the stream are the nonce. The envelope that comes out is
the one that is given back in any number of later rounds with the same default key, and under
another default name the bytes are sealed anew. Values are encrypted as their texts are. -/
theorem unchanged_data_keeps_its_envelope (hreachable : v.Reachable)
    (hdefault : v.defaultName = some name) :
    ∃ k, v.find? name = some k ∧
      (∀ plain previous entropy,
        ((∃ e, previous = some e ∧ (v.encryptBytes plain previous entropy).result = .ok e ∧
            (v.encryptBytes plain previous entropy).state = entropy) ↔
          ∃ e, previous = some e ∧ e.keyName = name ∧ k.decrypt e.blob = .ok plain) ∧
        ((∀ e, previous = some e → e.keyName = name → k.decrypt e.blob ≠ .ok plain) →
          v.SealsAnew name k plain previous entropy) ∧
        ∀ e, (v.encryptBytes plain previous entropy).result = .ok e →
          (∀ rounds : List Vault,
            (∀ w ∈ rounds, ∃ k', w.defaultKey? = some (name, k') ∧ k.Alike k') →
            ∀ later, resubmit plain rounds e later = .ok (e, later)) ∧
          ∀ (w : Vault) (other : String) (k' : Key) (later : Entropy),
            w.defaultKey? = some (other, k') → other ≠ name →
            w.SealsAnew other k' plain (some e) later) ∧
      ∀ {α : Type} [Json.Codec α] (value : α) previous entropy,
        v.encrypt value previous entropy = v.encryptBytes (Json.encode value) previous entropy := by
  obtain ⟨k, hkey⟩ := hreachable.referencesHeld.exists_default hdefault
  refine ⟨k, (defaultKey?_eq_some.1 hkey).2, fun plain previous entropy => ?_,
    encrypt_eq_encryptBytes hkey⟩
  refine ⟨encryptBytes_eq_previous_iff hkey plain previous entropy,
    fun hdiffers => sealsAnew_of_not_held hkey hdiffers entropy, fun e hresult => ?_⟩
  obtain ⟨d, hd, hname, hopen⟩ := exists_encryptBytes hkey plain previous entropy
  obtain rfl : d = e := Except.ok.inj (hd.symm.trans hresult)
  constructor
  · intro rounds hsame later
    rw [← hname] at hsame
    exact resubmit_of_held hopen hsame later
  · intro w other k' later hmoved hother
    refine sealsAnew_of_not_held hmoved (fun e' he' hname' => ?_) later
    -- The envelope names the old default key.
    obtain rfl := Option.some.inj he'
    exact absurd (hname'.symm.trans hname) hother

/-- Three bytes keep their envelope, and get another one when the default key has another name. -/
theorem three_bytes_keep_their_envelope :
    let v := signedIn ⟨"example.org", "user", "password"⟩
    let entropy : Entropy := ⟨fun _ => 0, 0⟩
    let after : Entropy := ⟨fun _ => 0, 12⟩
    ∃ name k e, v.Reachable ∧ v.defaultName = some name ∧
      v.SealsAnew name k [1, 2, 3] none entropy ∧
      (v.encryptBytes [1, 2, 3] none entropy).result = .ok e ∧
      resubmit [1, 2, 3] [v, v] e after = .ok (e, after) ∧
      let w : Vault := { v with keys := v.keys.insert "" k, defaultName := some "" }
      w.SealsAnew "" k [1, 2, 3] (some e) after := by
  intro v entropy after
  obtain ⟨derived, -, hkey⟩ :=
    exists_defaultKey?_signedIn (c := ⟨"example.org", "user", "password"⟩) (by decide)
  obtain ⟨hdefault, hfind⟩ := defaultKey?_eq_some.1 hkey
  have hreachable := reachable_signedIn ⟨"example.org", "user", "password"⟩
  obtain ⟨k, hk, hrule, -⟩ := unchanged_data_keeps_its_envelope hreachable hdefault
  obtain ⟨-, hsealed, hlater⟩ := hrule [1, 2, 3] none entropy
  obtain ⟨nonce, hnonce, hresult, hstate⟩ := hsealed nofun
  obtain ⟨hsame, hmoved⟩ := hlater _ hresult
  refine ⟨_, k, _, hreachable, hdefault, ⟨nonce, hnonce, hresult, hstate⟩, hresult, ?_, ?_⟩
  · refine hsame [v, v] (fun w hw => ⟨k, ?_, rfl, rfl⟩) _
    obtain rfl : w = v := by simpa using hw
    exact defaultKey?_eq_some.2 ⟨hdefault, hk⟩
  · refine hmoved _ "" k after ?_ ?_
    · exact defaultKey?_eq_some.2 ⟨rfl, NameMap.find?_insert_self v.keys "" k⟩
    · refine (Base64.encode_ne_empty fun hnil => ?_).symm
      have hlength := Octets.length_bytes
        (Hmac.tag derived.mac.bytes (NameKind.password.code :: Bytes.ofString "nigori-key"))
      rw [hnil] at hlength
      cases hlength

end Vault

end KeyVault
