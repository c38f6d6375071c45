import KeyVault.Proofs.Cipher.Blob
import KeyVault.Proofs.Vault.Pending

/-!
# The key that a pending bag brings

Credentials open the pending bag with the key that they yield. The key that becomes the default key
is another matter: it is the one that the vault then holds under the name on the envelope, and
nobody compares the two. The name is not part of what is authenticated.

## Main statements

- `Vault.decryptPendingKeys_of_held` — what the credentials that open the bag bring about
- `Vault.adopted_key_is_the_one_named` — which key becomes the default key, and when it opens the
  bag
- `Vault.renamed_bag_brings_another_key` — a bag that its new default key does not open
-/

namespace KeyVault

/-! ### One blob under two keys -/

/-- What a blob opens to is encrypted to the ciphertext that stands in the blob. -/
theorem Blob.crypt_of_decrypt {key : Octets 32} {bound blob message : Bytes} {nonce : Octets 12}
    (h : decrypt key bound blob = .ok message) (hnonce : blob.take 12 = nonce.bytes) :
    ChaCha20.crypt key nonce message = (blob.drop 12).take ((blob.drop 12).length - 16) := by
  obtain ⟨nonce', rfl⟩ := exists_nonce_of_decrypt h
  have hsame : nonce' = nonce := by
    rw [take_encrypt] at hnonce
    exact Octets.ext_bytes hnonce
  subst hsame
  rw [drop_encrypt]
  simp

/-- The first byte of a ciphertext is made with the first byte of keystream block one. -/
theorem ChaCha20.head?_crypt (key : Octets 32) (nonce : Octets 12) (b : UInt8) (message : Bytes) :
    (crypt key nonce (b :: message)).head?
      = (block key 1 nonce).bytes.head?.map (b ^^^ ·) := by
  have hblocks : ((b :: message).length + 63) / 64 = message.length / 64 + 1 := by
    rw [List.length_cons]
    omega
  have hfirst : (block key 1 nonce).bytes ≠ [] := by
    intro hnil
    have hlength := (block key 1 nonce).length_bytes
    rw [hnil] at hlength
    cases hlength
  obtain ⟨c, block, hblock⟩ := List.exists_cons_of_ne_nil hfirst
  rw [crypt, hblocks, keystream, List.range_succ_eq_map, List.flatMap_cons, hblock]
  rfl

/-- Keys with keystreams that begin differently do not open one blob to the same text. -/
theorem Key.decrypt_ne_of_block_ne {k k' : Key} {blob message : Bytes} {nonce : Octets 12}
    (hnonce : blob.take 12 = nonce.bytes) (hmessage : message ≠ [])
    (hblock : (ChaCha20.block k.encryption 1 nonce).bytes.head?
      ≠ (ChaCha20.block k'.encryption 1 nonce).bytes.head?)
    (h : k.decrypt blob = .ok message) : k'.decrypt blob ≠ .ok message := by
  intro h'
  obtain ⟨b, rest, rfl⟩ := List.exists_cons_of_ne_nil hmessage
  have hcipher := Blob.crypt_of_decrypt (mapError_eq_ok_iff.1 h) hnonce
  have hcipher' := Blob.crypt_of_decrypt (mapError_eq_ok_iff.1 h') hnonce
  have hhead := congrArg List.head? (hcipher.trans hcipher'.symm)
  rw [ChaCha20.head?_crypt, ChaCha20.head?_crypt] at hhead
  refine hblock (Option.map_injective (fun x y hxy => ?_) hhead)
  exact (UInt8.xor_right_inj b).1 hxy

namespace Vault

variable {v : Vault} {c : Credentials} {e : Envelope} {bag : KeyBag} {held : Key}

/-! ### Adoption -/

/-- Credentials that open the pending bag are accepted if the name on the envelope is then held; the
key of this name becomes the default key. -/
theorem decryptPendingKeys_of_held (hopens : v.OpensPending c e bag)
    (hheld : (v.find? e.keyName).or (bag.find? e.keyName) = some held) :
    (v.decryptPendingKeys c).result = .ok () ∧
      (v.decryptPendingKeys c).state.defaultKey? = some (e.keyName, held) ∧
      (v.decryptPendingKeys c).state.pending = none := by
  have hmerged : (v.merge bag).state.find? e.keyName = some held :=
    (find?_merge v bag e.keyName).trans hheld
  obtain ⟨hresult, hstate⟩ := (Verdict.adopt hopens (hasKey_iff.2 ⟨held, hmerged⟩)).eq
  rw [hresult, hstate]
  exact ⟨rfl, defaultKey?_eq_some.2 ⟨rfl, hmerged⟩, rfl⟩

/-- Credentials that are accepted open the pending bag, and the name on the envelope is held
afterwards. -/
theorem exists_held_of_decryptPendingKeys (h : (v.decryptPendingKeys c).result = .ok ()) :
    ∃ e bag held, v.OpensPending c e bag ∧
      (v.find? e.keyName).or (bag.find? e.keyName) = some held := by
  have hverdict := v.verdict_decryptPendingKeys c
  rw [h] at hverdict
  generalize (v.decryptPendingKeys c).state = next at hverdict
  cases hverdict with
  | @adopt e bag hopens hheld =>
    obtain ⟨held, hfind⟩ := hasKey_iff.1 hheld
    exact ⟨e, bag, held, hopens, (find?_merge v bag e.keyName).symm.trans hfind⟩

/-- The default key after pending data have been opened is the key under the name on the envelope:
the one that was held, or else the one that the bag offers. The pending data open to the same bytes
as under the key of the credentials exactly if this key opens them so. This is certain if the two
keys encrypt alike, and what is encrypted from then on opens under either. -/
theorem adopted_key_is_the_one_named (hpending : v.pending = some e)
    (hok : (v.decryptPendingKeys c).result = .ok ()) :
    ∃ (k : Key) (plain : Bytes) (bag : KeyBag) (held : Key),
      v.derive c = .ok k ∧ k.decrypt e.blob = .ok plain ∧ Json.decode plain = .ok bag ∧
      (v.find? e.keyName).or (bag.find? e.keyName) = some held ∧
      let after := (v.decryptPendingKeys c).state
      after.defaultKey? = some (e.keyName, held) ∧ after.pending = none ∧
      ((after.decryptBytes e).result = .ok plain ↔ held.decrypt e.blob = .ok plain) ∧
      (k.Alike held → (after.decryptBytes e).result = .ok plain ∧
        ∀ text previous entropy, ∃ d, (after.encryptBytes text previous entropy).result = .ok d ∧
          d.keyName = e.keyName ∧ k.decrypt d.blob = .ok text) := by
  obtain ⟨e', bag, held, hopens, hheld⟩ := exists_held_of_decryptPendingKeys hok
  obtain rfl : e' = e := Option.some.inj (hopens.1.symm.trans hpending)
  obtain ⟨-, k, hderive, plain, hopen, hdecode⟩ := id hopens
  obtain ⟨-, hkey, hcleared⟩ := decryptPendingKeys_of_held hopens hheld
  have hfind := (defaultKey?_eq_some.1 hkey).2
  refine ⟨k, plain, bag, held, hderive, hopen, hdecode, hheld, hkey, hcleared, ?_, ?_⟩
  · rw [decryptBytes_eq_ok_iff, hfind]
    constructor
    · rintro ⟨k', hk', hread⟩
      rw [Option.some.inj hk']
      exact hread
    · exact fun hread => ⟨held, rfl, hread⟩
  · intro halike
    refine ⟨decryptBytes_of_find? hfind ((halike.decrypt e'.blob).trans hopen), ?_⟩
    intro text previous entropy
    obtain ⟨d, hdone, hname, hread⟩ := exists_encryptBytes hkey text previous entropy
    exact ⟨d, hdone, hname, (halike.decrypt d.blob).symm.trans hread⟩

/-- The bag of a peer, as the peer made it, brings the key that it is encrypted under. -/
theorem unchanged_bag_brings_its_own_key :
    let c : Credentials := ⟨"example.org", "user", "password"⟩
    let entropy : Entropy := ⟨fun _ => 0, 0⟩
    ∃ e v, ((signedIn c).getKeys entropy).result = .ok e ∧
      v = (Vault.empty .passthrough .standard).run [(.setPendingKeys e, entropy)] ∧
      v.pending = some e ∧ (v.decryptPendingKeys c).result = .ok () ∧
      ∃ k plain, v.derive c = .ok k ∧ k.decrypt e.blob = .ok plain ∧
        ((v.decryptPendingKeys c).state.decryptBytes e).result = .ok plain := by
  intro c entropy
  obtain ⟨secret, hderive, hkey⟩ := exists_defaultKey?_signedIn (c := c) (by decide)
  obtain ⟨e, hok, hname, hopen⟩ := exists_getKeys hkey entropy
  have hfind := (defaultKey?_eq_some.1 hkey).2
  rw [← hname] at hfind
  have hlacks : (Vault.empty .passthrough .standard).hasKey e.keyName = false := rfl
  obtain ⟨v, hv⟩ : ∃ v, v = ((Vault.empty .passthrough .standard).setPendingKeys e).state :=
    ⟨_, rfl⟩
  have hpending : v.pending = some e := by rw [hv, (setPendingKeys_of_lacks hlacks).2]
  have hlacks' : v.hasKey e.keyName = false := by
    rw [hv, (setPendingKeys_of_lacks hlacks).2]
    exact hlacks
  have hderive' : v.derive c = .ok secret := by
    rw [hv, (setPendingKeys_of_lacks hlacks).2]
    exact hderive
  obtain ⟨hdone, hown, -⟩ := decryptPendingKeys_of_peer hpending hlacks' hderive' hopen hfind
  obtain ⟨k, plain, bag, held, hk, hplain, -, -, hadopted, -, -, hread⟩ :=
    adopted_key_is_the_one_named hpending hdone
  obtain rfl : secret = k := Except.ok.inj (hderive'.symm.trans hk)
  obtain rfl : secret = held :=
    Option.some.inj (hown.symm.trans (defaultKey?_eq_some.1 hadopted).2)
  exact ⟨e, v, hok, hv, hpending, hdone, secret, plain, hk, hplain, (hread ⟨rfl, rfl⟩).1⟩

/-- A bag with two keys is encrypted under a third one, and the envelope is given the name of one of
the two. It is adopted, and cannot be read afterwards. -/
theorem renamed_bag_brings_another_key :
    let c : Credentials := ⟨"example.org", "user", "password"⟩
    ∃ e v, v = (Vault.empty .passthrough .standard).run [(.setPendingKeys e, ⟨fun _ => 0, 0⟩)] ∧
      v.pending = some e ∧ (v.decryptPendingKeys c).result = .ok () ∧
      ∃ k plain, v.derive c = .ok k ∧ k.decrypt e.blob = .ok plain ∧
        ((v.decryptPendingKeys c).state.decryptBytes e).result ≠ .ok plain := by
  intro c
  obtain ⟨k, hderive⟩ : ∃ k, Key.derive .standard c = .ok k := exists_derive (by decide) (by decide)
  let zeros : Key := ⟨.zero 32, .zero 32, .zero 32⟩
  let ones : Key := ⟨.zero 32, ⟨List.replicate 32 1, rfl⟩, .zero 32⟩
  let bag : KeyBag := ⟨[⟨"zeros", zeros.components⟩, ⟨"ones", ones.components⟩]⟩
  let plain : Bytes := Json.encode bag
  let blob : Bytes := k.encrypt (.zero 12) plain
  have hplain : plain ≠ [] := by
    intro hnil
    have hdecode := decode_bag bag
    rw [show Json.encode bag = [] from hnil] at hdecode
    cases hdecode
  have hblock : (ChaCha20.block zeros.encryption 1 (.zero 12)).bytes.head?
      ≠ (ChaCha20.block ones.encryption 1 (.zero 12)).bytes.head? := by decide +kernel
  -- At least one of the two keys does not open the blob to the bag.
  obtain ⟨name, held, hoffers, hcloses⟩ :
      ∃ name held, bag.find? name = some held ∧ held.decrypt blob ≠ .ok plain := by
    by_cases hzeros : zeros.decrypt blob = .ok plain
    · exact ⟨"ones", ones, rfl,
        Key.decrypt_ne_of_block_ne (Blob.take_encrypt _ _ _ _) hplain hblock hzeros⟩
    · exact ⟨"zeros", zeros, rfl, hzeros⟩
  let e : Envelope := ⟨name, blob⟩
  have hlacks : (Vault.empty .passthrough .standard).hasKey e.keyName = false := rfl
  obtain ⟨v, hv⟩ : ∃ v, v = ((Vault.empty .passthrough .standard).setPendingKeys e).state :=
    ⟨_, rfl⟩
  have hstate := hv.trans (setPendingKeys_of_lacks hlacks).2
  have hpending : v.pending = some e := by rw [hstate]
  have hderive' : v.derive c = .ok k := by rw [hstate]; exact hderive
  have hheld : (v.find? e.keyName).or (bag.find? e.keyName) = some held := by
    rw [hstate]
    exact hoffers
  have hopen : k.decrypt e.blob = .ok plain := k.decrypt_encrypt _ _
  obtain ⟨hdone, hkey, -⟩ :=
    decryptPendingKeys_of_held ⟨hpending, k, hderive', plain, hopen, decode_bag bag⟩ hheld
  refine ⟨e, v, hv, hpending, hdone, k, plain, hderive', hopen, fun hread => ?_⟩
  obtain ⟨k', hfind, hread⟩ := decryptBytes_eq_ok_iff.1 hread
  obtain rfl : held = k' := Option.some.inj ((defaultKey?_eq_some.1 hkey).2.symm.trans hfind)
  exact hcloses hread

end Vault

end KeyVault
