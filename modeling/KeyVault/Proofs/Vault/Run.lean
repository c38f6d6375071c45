import KeyVault.Proofs.Text.Base64
import KeyVault.Proofs.Vault.Effect

/-!
# Runs of a vault

A run performs operations one after another, on any arguments and with any entropy. Few things can
happen to the keys and references in one step, so what holds of all of these changes holds along
every run.

## Main definitions

- `Vault.Change` — how one operation can change a vault
- `Vault.run`, `Vault.Reachable` — many operations, and what they lead to from an empty vault
- `Vault.signedIn` — the vault that starts out with one key

## Main statements

- `Operation.change_perform` — every operation changes a vault in one of these ways
- `Vault.run_induction` — what every change preserves holds along a run
- `Vault.hasKey_run` — no name goes away
- `Operation.Effect.find?_of_find?`, `Operation.Effect.find?_or_brings` — what becomes of a held key
  in one step, and where the others come from
-/

namespace KeyVault

namespace Vault

/-! ### Changes -/

/-- How one operation can change a vault. -/
inductive Change (v : Vault) : Vault → Prop
  /-- Neither keys nor references nor pending data change. -/
  | forward (handler : Option NodeHandler) (forwarded : List NodeCall) :
    Change v { v with handler := handler, forwarded := forwarded }
  /-- A key is installed under its own name. -/
  | install (slot : Slot) (k : Key) : Change v (v.install slot k).state
  /-- A key that is held becomes the default key. -/
  | refer {name : String} (hheld : v.hasKey name = true) : Change v (v.refer .default name)
  /-- A bag is merged. -/
  | merge (bag : KeyBag) : Change v (v.merge bag).state
  /-- A bag under a name that is not held becomes pending. -/
  | hold {e : Envelope} (hnew : v.hasKey e.keyName = false) :
    Change v { v with pending := some e }
  /-- The pending bag is merged, and its key becomes the default key. -/
  | adopt {e : Envelope} {bag : KeyBag} (hpending : v.pending = some e)
    (hheld : (v.merge bag).state.hasKey e.keyName = true) :
    Change v { (v.merge bag).state with defaultName := some e.keyName, pending := none }

theorem Change.refl (v : Vault) : v.Change v := .forward v.handler v.forwarded

end Vault

namespace Operation

theorem Effect.change {v next : Vault} {op : Operation} {result : Except VaultError Answer}
    (h : Effect v op result next) : v.Change next := by
  cases h with
  | install => exact .install _ _
  | refer hheld => exact .refer hheld
  | merge => exact .merge _
  | skip | ignore | refuse | query => exact .refl v
  | hold hnew => exact .hold hnew
  | adopt hopens hheld => exact .adopt hopens.1 hheld
  | lack => exact .merge _
  | forward => exact .forward _ _

/-- Every operation changes a vault in one of these ways. -/
theorem change_perform (op : Operation) (v : Vault) (entropy : Entropy) :
    v.Change (op.perform v entropy).state.1 :=
  (effect_perform v op entropy).change

end Operation

namespace Vault

/-! ### Runs -/

/-- Many operations, each with some entropy of its own. -/
def run (v : Vault) (steps : List (Operation × Entropy)) : Vault :=
  steps.foldl (fun v step => (step.1.perform v step.2).state.1) v

/-- A state that a run leads to from an empty vault. -/
def Reachable (v : Vault) : Prop :=
  ∃ protector settings steps, v = (Vault.empty protector settings).run steps

theorem run_append (v : Vault) (past later : List (Operation × Entropy)) :
    v.run (past ++ later) = (v.run past).run later :=
  List.foldl_append

theorem Reachable.run {v : Vault} (h : v.Reachable) (steps : List (Operation × Entropy)) :
    (v.run steps).Reachable := by
  obtain ⟨protector, settings, past, rfl⟩ := h
  exact ⟨protector, settings, past ++ steps, (run_append _ past steps).symm⟩

/-- What every change preserves holds along a run. -/
theorem run_induction {p : Vault → Prop} (hstep : ∀ v next, p v → v.Change next → p next)
    {v : Vault} (h : p v) (steps : List (Operation × Entropy)) : p (v.run steps) := by
  induction steps generalizing v with
  | nil => exact h
  | cons step steps ih => exact ih (hstep v _ h (step.1.change_perform v step.2))

/-- What holds of empty vaults and is preserved by every change holds of all reachable states. -/
theorem Reachable.induction {p : Vault → Prop}
    (hempty : ∀ protector settings, p (Vault.empty protector settings))
    (hstep : ∀ v next, p v → v.Change next → p next) {v : Vault} (h : v.Reachable) : p v := by
  obtain ⟨protector, settings, steps, rfl⟩ := h
  exact run_induction hstep (hempty protector settings) steps

/-! ### Settings -/

theorem Change.protector {v next : Vault} (h : v.Change next) : next.protector = v.protector := by
  cases h with
  | forward | refer | merge | hold | adopt => rfl
  | install slot k => cases slot <;> rfl

theorem Change.settings {v next : Vault} (h : v.Change next) : next.settings = v.settings := by
  cases h with
  | forward | refer | merge | hold | adopt => rfl
  | install slot k => cases slot <;> rfl

theorem settings_run (v : Vault) (steps : List (Operation × Entropy)) :
    (v.run steps).settings = v.settings :=
  run_induction (p := fun w => w.settings = v.settings)
    (fun _ _ hsame hchange => hchange.settings.trans hsame) rfl steps

/-! ### Keys -/

theorem hasKey_iff {v : Vault} {name : String} :
    v.hasKey name = true ↔ ∃ k, v.find? name = some k :=
  NameMap.contains_iff

theorem find?_install (v : Vault) (slot : Slot) (k : Key) (name : String) :
    (v.install slot k).state.find? name = if name = v.nameOf k then some k else v.find? name := by
  cases slot <;> exact NameMap.find?_insert v.keys (v.nameOf k) name k

theorem hasKey_install (v : Vault) (slot : Slot) (k : Key) :
    (v.install slot k).state.hasKey (v.nameOf k) = true :=
  hasKey_iff.2 ⟨k, (find?_install v slot k _).trans (if_pos rfl)⟩

/-- No change takes a name away. -/
theorem Change.hasKey {v next : Vault} (h : v.Change next) {name : String}
    (hheld : v.hasKey name = true) : next.hasKey name = true := by
  obtain ⟨k, hfind⟩ := hasKey_iff.1 hheld
  cases h with
  | forward | refer | hold => exact hheld
  | install slot installed =>
    rw [hasKey_iff, find?_install]
    by_cases hname : name = v.nameOf installed
    · exact ⟨installed, if_pos hname⟩
    · exact ⟨k, (if_neg hname).trans hfind⟩
  | merge bag => exact hasKey_iff.2 ⟨k, find?_merge_of_find? hfind bag⟩
  | @adopt e bag hpending hadopted => exact hasKey_iff.2 ⟨k, find?_merge_of_find? hfind bag⟩

theorem hasKey_run {v : Vault} {name : String} (h : v.hasKey name = true)
    (steps : List (Operation × Entropy)) : (v.run steps).hasKey name = true :=
  run_induction (p := fun v => v.hasKey name = true) (fun _ _ hheld hchange => hchange.hasKey hheld)
    h steps

end Vault

namespace Operation

variable {v next : Vault} {op : Operation} {result : Except VaultError Answer} {name : String}
  {held : Key}

/-- A held key stays, unless the operation installs another one under its name. -/
theorem Effect.find?_of_find? (h : Effect v op result next) (hfind : v.find? name = some held) :
    next.find? name = some held ∨
      ∃ slot k, op.Installs v slot k ∧ v.nameOf k = name ∧ next.find? name = some k := by
  cases h with
  | refer | skip | hold | ignore | refuse | query | forward => exact .inl hfind
  | merge | adopt | lack => exact .inl (Vault.find?_merge_of_find? hfind _)
  | @install op slot k hinstalls =>
    by_cases hname : name = v.nameOf k
    · refine .inr ⟨slot, k, hinstalls, hname.symm, ?_⟩
      rw [Vault.find?_install, if_pos hname]
    · left
      rw [Vault.find?_install, if_neg hname, hfind]

theorem Effect.find?_of_not_installs (h : Effect v op result next)
    (hnone : ∀ slot k, ¬ op.Installs v slot k) (hfind : v.find? name = some held) :
    next.find? name = some held := by
  rcases h.find?_of_find? hfind with hsame | ⟨slot, k, hinstalls, -⟩
  · exact hsame
  · exact absurd hinstalls (hnone slot k)

/-- A key that is held after an operation was held before, or the operation brought it. -/
theorem Effect.find?_or_brings {k : Key} (h : Effect v op result next)
    (hfind : next.find? name = some k) : v.find? name = some k ∨ op.Brings v name k := by
  cases h with
  | refer | skip | hold | ignore | refuse | query | forward => exact .inl hfind
  | merge hopens =>
    rw [Vault.find?_merge] at hfind
    exact (Option.or_eq_some_iff.1 hfind).imp_right fun hnew => .merged hopens hnew.2
  | adopt hopens | lack hopens =>
    have hmerged := (Vault.find?_merge v _ name).symm.trans hfind
    exact (Option.or_eq_some_iff.1 hmerged).imp_right fun hnew => .adopted hopens hnew.2
  | @install op slot installed hinstalls =>
    rw [Vault.find?_install] at hfind
    by_cases hname : name = v.nameOf installed
    · rw [if_pos hname] at hfind
      obtain rfl := Option.some.inj hfind
      exact .inr (hname ▸ .installed hinstalls)
    · rw [if_neg hname] at hfind
      exact .inl hfind

end Operation

namespace Vault

/-- Each component of each key in a bag that a vault exports has 32 bytes. -/
theorem length_components_bag {v : Vault} {e : KeyEntry} (h : e ∈ v.bag.keys) :
    e.material.userKey.length = componentSize ∧ e.material.encryptionKey.length = componentSize ∧
      e.material.macKey.length = componentSize := by
  obtain ⟨⟨name, k⟩, -, rfl⟩ := List.mem_map.1 h
  exact ⟨k.user.length_bytes, k.encryption.length_bytes, k.mac.length_bytes⟩

/-! ### A vault with one key -/

/-- Credentials with a password yield a key, unless the cost is at fault. -/
theorem exists_derive {cost : StretchCost} {c : Credentials} (hpassword : c.HasPassword)
    (hcost : cost.fault? = none) : ∃ k, Key.derive cost c = .ok k := by
  simp only [Key.derive, if_neg hpassword.1, hcost, if_neg (Nat.not_lt.2 hpassword.2)]
  exact ⟨_, rfl⟩

theorem defaultKey?_addKey {v : Vault} {c : Credentials} {k : Key} (h : v.derive c = .ok k) :
    (v.addKey c).state.defaultKey? = some (v.nameOf k, k) := by
  rw [addKey, h, defaultKey?_eq_some]
  exact ⟨rfl, (find?_install v .default k _).trans (if_pos rfl)⟩

/-- The vault that starts out with the key of some credentials, at the usual settings. -/
def signedIn (c : Credentials) : Vault :=
  (Vault.empty .passthrough .standard).run [(.addKey c, ⟨fun _ => 0, 0⟩)]

theorem reachable_signedIn (c : Credentials) : (signedIn c).Reachable := ⟨_, _, _, rfl⟩

theorem settings_signedIn (c : Credentials) : (signedIn c).settings = .standard :=
  settings_run _ _

theorem exists_defaultKey?_signedIn {c : Credentials} (hpassword : c.HasPassword) :
    ∃ k, Key.derive .standard c = .ok k ∧
      (signedIn c).defaultKey? = some (k.name .password "nigori-key", k) := by
  obtain ⟨k, hk⟩ := exists_derive hpassword (show StretchCost.standard.fault? = none by decide)
  exact ⟨k, hk, defaultKey?_addKey hk⟩

theorem find?_signedIn {c : Credentials} {k : Key} (h : Key.derive .standard c = .ok k)
    (name : String) :
    (signedIn c).find? name = if name = k.name .password "nigori-key" then some k else none := by
  have hderive : (Vault.empty .passthrough .standard).derive c = .ok k := h
  change ((Vault.empty .passthrough .standard).addKey c).state.find? name = _
  rw [addKey, hderive]
  exact find?_install _ .default k name

/-- No key gives an empty name. -/
theorem hasKey_signedIn_empty {c : Credentials} {k : Key} (h : Key.derive .standard c = .ok k) :
    (signedIn c).hasKey "" = false := by
  have hhash : (Hmac.tag k.mac.bytes (NameKind.password.code :: Bytes.ofString "nigori-key")).bytes
      ≠ [] := List.ne_nil_of_length_pos (by rw [Octets.length_bytes]; decide)
  have hname : "" ≠ k.name .password "nigori-key" := (Base64.encode_ne_empty hhash).symm
  refine NameMap.contains_eq_false.2 ?_
  exact (find?_signedIn h "").trans (if_neg hname)

end Vault

end KeyVault
