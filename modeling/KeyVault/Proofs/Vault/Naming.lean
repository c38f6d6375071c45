import KeyVault.Proofs.Vault.ManyBags

/-!
# Keys under their own names

A key that a vault derives, or takes from a token, gets the name that the key itself gives. A merge
takes the name that stands in the bag and does not check it. So keys stand under their own names as
long as no bag is merged that has a key under the name of another one.

## Main definitions

- `Vault.WellNamed`, `KeyBag.WellNamed` — keys stand under their own names
- `Operation.Merges` — the bag that an operation merges
- `Vault.MergesWellNamed` — all bags that a run merges are well-named

## Main statements

- `Operation.Effect.wellNamed`, `Vault.WellNamed.run` — what one step and a run preserve
- `Vault.keys_stay_under_their_own_names` — steps, exported bags and runs
-/

namespace KeyVault

/-- Each key of a bag stands under the name that it gives to a tag; entries that are no keys may
have any name. -/
def KeyBag.WellNamed (tag : String) (bag : KeyBag) : Prop :=
  ∀ e ∈ bag.keys, ∀ k, Key.ofComponents e.material = .ok k → e.name = k.name .password tag

theorem KeyBag.WellNamed.of_find? {tag name : String} {bag : KeyBag} {k : Key}
    (h : bag.WellNamed tag) (hfind : bag.find? name = some k) : name = k.name .password tag := by
  obtain ⟨e, he, rfl, hkey⟩ := KeyBag.exists_mem_of_find? hfind
  exact h e he k hkey

/-- Each key that a vault holds stands under its own name. -/
def Vault.WellNamed (v : Vault) : Prop := ∀ name k, v.find? name = some k → name = v.nameOf k

namespace Operation

/-- The bag that an operation merges. -/
inductive Merges (v : Vault) : Operation → KeyBag → Prop
  | installed {e : Envelope} {bag : KeyBag} (hopens : v.Opens e bag) : Merges v (installKeys e) bag
  | adopted {c : Credentials} {e : Envelope} {bag : KeyBag} (hopens : v.OpensPending c e bag) :
    Merges v (decryptPendingKeys c) bag

variable {v : Vault} {op : Operation}

/-- What an operation brings has its own name, if this is so in the bag that it merges. -/
theorem Brings.wellNamed {name : String} {k : Key} (h : op.Brings v name k)
    (hmerges : ∀ bag, op.Merges v bag → bag.WellNamed v.settings.keyNameTag) :
    name = v.nameOf k := by
  cases h with
  | installed => rfl
  | merged hopens hfind => exact (hmerges _ (.installed hopens)).of_find? hfind
  | adopted hopens hfind => exact (hmerges _ (.adopted hopens)).of_find? hfind

theorem Effect.wellNamed {result : Except VaultError Answer} {next : Vault}
    (h : Effect v op result next) (hnamed : v.WellNamed)
    (hmerges : ∀ bag, op.Merges v bag → bag.WellNamed v.settings.keyNameTag) :
    next.WellNamed := by
  intro name k hfind
  rw [Vault.nameOf, h.change.settings]
  rcases h.find?_or_brings hfind with hheld | hbrings
  · exact hnamed name k hheld
  · exact hbrings.wellNamed hmerges

end Operation

namespace Vault

variable {v : Vault}

/-- In every bag that a run merges, keys stand under their own names. -/
def MergesWellNamed (v : Vault) : List (Operation × Entropy) → Prop
  | [] => True
  | (op, entropy) :: later =>
    (∀ bag, op.Merges v bag → bag.WellNamed v.settings.keyNameTag) ∧
      MergesWellNamed (op.perform v entropy).state.1 later

theorem wellNamed_empty (protector : Protector) (settings : Settings) :
    (Vault.empty protector settings).WellNamed := by
  intro name k hfind
  cases hfind

theorem WellNamed.run {steps : List (Operation × Entropy)} (h : v.WellNamed)
    (hmerges : v.MergesWellNamed steps) : (v.run steps).WellNamed := by
  induction steps generalizing v with
  | nil => exact h
  | cons step later ih =>
    obtain ⟨op, entropy⟩ := step
    exact ih ((Operation.effect_perform v op entropy).wellNamed h hmerges.1) hmerges.2

/-- Each entry of an exported bag is a key under its own name. -/
theorem WellNamed.of_mem_bag {e : KeyEntry} (h : v.WellNamed) (he : e ∈ v.bag.keys) :
    ∃ k, e = ⟨v.nameOf k, k.components⟩ := by
  obtain ⟨⟨name, k⟩, hmem, rfl⟩ := List.mem_map.1 he
  have hname : name = v.nameOf k := h name k (Members.find?_of_mem v.keys.sorted hmem)
  exact ⟨k, hname ▸ rfl⟩

theorem WellNamed.bag (h : v.WellNamed) : v.bag.WellNamed v.settings.keyNameTag := by
  intro e he k hkey
  obtain ⟨k', rfl⟩ := h.of_mem_bag he
  obtain rfl := Except.ok.inj ((Key.ofComponents_components k').symm.trans hkey)
  rfl

/-- While every key that is held stands under its own name, every operation keeps it so, unless it
merges a bag that has a key under another name; and the bag that is exported has nothing but keys
under their own names, so that whoever merges it keeps it so as well. So all keys of a vault that
never merged such a bag stand under their own names, whatever else was done to it. -/
theorem keys_stay_under_their_own_names :
    (∀ (v : Vault) (op : Operation) (entropy : Entropy), v.WellNamed →
      (∀ bag, op.Merges v bag → bag.WellNamed v.settings.keyNameTag) →
      (op.perform v entropy).state.1.WellNamed) ∧
    (∀ (v : Vault) (name : String) (k : Key) (entropy : Entropy), v.WellNamed →
      v.defaultKey? = some (name, k) →
      ∃ e bag, (v.getKeys entropy).result = .ok e ∧ v.Opens e bag ∧
        bag.WellNamed v.settings.keyNameTag ∧
        ∀ entry ∈ bag.keys, ∃ k, entry = ⟨v.nameOf k, k.components⟩) ∧
    (∀ (protector : Protector) (settings : Settings) (steps : List (Operation × Entropy)),
      (Vault.empty protector settings).MergesWellNamed steps →
      ((Vault.empty protector settings).run steps).WellNamed) := by
  refine ⟨?_, ?_, ?_⟩
  · intro v op entropy hnamed hmerges
    exact (Operation.effect_perform v op entropy).wellNamed hnamed hmerges
  · intro v name k entropy hnamed hkey
    obtain ⟨e, hok, rfl, hopen⟩ := exists_getKeys hkey entropy
    have hfind : v.find? e.keyName = some k := (defaultKey?_eq_some.1 hkey).2
    exact ⟨e, v.bag, hok, ⟨k, hfind, _, hopen, decode_bag _⟩, hnamed.bag,
      fun _ => hnamed.of_mem_bag⟩
  · intro protector settings steps hmerges
    exact (wellNamed_empty protector settings).run hmerges

/-! ### A bag with one key -/

theorem mergesWellNamed_addKey_installKeys {c : Credentials} {e : Envelope} {bag : KeyBag}
    (hopens : (v.addKey c).state.Opens e bag) (hbag : bag.WellNamed v.settings.keyNameTag)
    (entropy : Entropy) :
    v.MergesWellNamed [(.addKey c, entropy), (.installKeys e, entropy)] := by
  refine ⟨nofun, fun bag' hmerges => ?_, trivial⟩
  change bag'.WellNamed (v.addKey c).state.settings.keyNameTag
  rw [(Operation.effect_addKey v c).change.settings]
  cases hmerges with
  | installed hopens' => exact hopens'.unique hopens ▸ hbag

/-- A vault gets a bag with a key of other credentials, and with an entry that is no key. -/
theorem merged_key_stands_under_its_own_name :
    let c : Credentials := ⟨"example.org", "user", "password"⟩
    let entropy : Entropy := ⟨fun _ => 0, 0⟩
    ∃ (other : Key) (e : Envelope) (v : Vault),
      let steps := [(.addKey c, entropy), (.installKeys e, entropy)]
      v = (Vault.empty .passthrough .standard).run steps ∧
        (Vault.empty .passthrough .standard).MergesWellNamed steps ∧ v.WellNamed ∧
        v.hasKey (v.nameOf other) = true ∧ (v.setKeystoreKey "secret").state.WellNamed ∧
        ∃ sent received, (v.getKeys entropy).result = .ok sent ∧ v.Opens sent received ∧
          received.WellNamed v.settings.keyNameTag ∧
          ∀ entry ∈ received.keys, ∃ k, entry = ⟨v.nameOf k, k.components⟩ := by
  intro c entropy
  obtain ⟨hstep, hexport, hreached⟩ := keys_stay_under_their_own_names
  replace hreached := hreached .passthrough .standard
  obtain ⟨k, hderive⟩ : ∃ k, (Vault.empty .passthrough .standard).derive c = .ok k :=
    exists_derive (by decide) (by decide)
  obtain ⟨other, -⟩ : ∃ k, Key.derive .standard ⟨"example.org", "user", "other"⟩ = .ok k :=
    exists_derive (by decide) (by decide)
  -- The two keys are never computed.
  obtain ⟨start, hstart⟩ : ∃ v, Vault.empty .passthrough .standard = v := ⟨_, rfl⟩
  rw [hstart] at hderive hreached
  rw [hstart]
  have hkey := defaultKey?_addKey hderive
  have hsettings := (Operation.effect_addKey start c).change.settings
  obtain ⟨hdefault, hfind⟩ := defaultKey?_eq_some.1 hkey
  let bag : KeyBag := ⟨[⟨start.nameOf other, other.components⟩, ⟨"broken", ⟨[], [], []⟩⟩]⟩
  let e : Envelope := ⟨start.nameOf k, k.encrypt (.zero 12) (Json.encode bag)⟩
  have hopens : (start.addKey c).state.Opens e bag :=
    ⟨k, hfind, _, k.decrypt_encrypt _ _, decode_bag _⟩
  have hbag : bag.WellNamed start.settings.keyNameTag := by
    intro entry hentry k' hmaterial
    rcases List.mem_cons.1 hentry with rfl | hentry
    · obtain rfl := Except.ok.inj ((Key.ofComponents_components other).symm.trans hmaterial)
      rfl
    · rw [List.mem_singleton.1 hentry] at hmaterial
      cases hmaterial
  have hmerges := mergesWellNamed_addKey_installKeys hopens hbag entropy
  have hmerge : (start.addKey c).state.installKeys e = (start.addKey c).state.merge bag :=
    installKeys_of_opens hopens
  have hrun : start.run [(.addKey c, entropy), (.installKeys e, entropy)]
      = ((start.addKey c).state.merge bag).state := by
    rw [← hmerge]
    rfl
  have hnamed := hreached _ hmerges
  rw [hrun] at hnamed
  refine ⟨other, e, _, hrun.symm, hmerges, hnamed, ?_, ?_, ?_⟩
  · have hname : ((start.addKey c).state.merge bag).state.nameOf other = start.nameOf other := by
      rw [nameOf, nameOf, ← hsettings]
      rfl
    have hoffers : bag.find? (start.nameOf other) = some other := by
      rw [KeyBag.find?, List.findSome?_cons, offers?_components, if_pos rfl]
    rw [hname, hasKey_iff, find?_merge, hoffers]
    cases (start.addKey c).state.find? (start.nameOf other) with
    | none => exact ⟨other, rfl⟩
    | some held => exact ⟨held, rfl⟩
  · refine hstep _ (.setKeystoreKey "secret") entropy hnamed fun received hmerged => ?_
    cases hmerged
  · refine hexport _ _ k entropy hnamed (defaultKey?_eq_some.2 ⟨hdefault, ?_⟩)
    exact find?_merge_of_find? hfind bag

end Vault

end KeyVault
