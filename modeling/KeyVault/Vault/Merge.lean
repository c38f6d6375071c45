import KeyVault.Vault.Decrypt

/-!
# Merging key bags

Keys that come into a vault in the bag of another one. A key that is held already is never replaced,
and an entry that is no key is passed over.

## Main definitions

- `Merge` — the keys so far, how many of them are new, and what is reported
- `Vault.merge` — merges the entries of a bag
- `Vault.installKeys` — merges an encrypted bag
-/

namespace KeyVault

/-- A merge that is under way. -/
structure Merge where
  keys : NameMap Key
  /-- How many of them are new. -/
  installed : Nat
  events : List Event

/-- Adds an entry of a bag, if its name is new and its components are those of a key. -/
def Merge.add (m : Merge) (entry : KeyEntry) : Merge :=
  if m.keys.contains entry.name then m
  else
    match Key.ofComponents entry.material with
    | .ok k => { m with keys := m.keys.insert entry.name k, installed := m.installed + 1 }
    | .error error => { m with events := m.events ++ [.entryMalformed entry.name error] }

namespace Vault

/-- Merges the entries of a bag in their order; gives the number of new keys. -/
def merge (v : Vault) (bag : KeyBag) : Outcome Vault Nat :=
  let merged := bag.keys.foldl Merge.add ⟨v.keys, 0, []⟩
  { result := .ok merged.installed
    state := { v with keys := merged.keys }
    events := merged.events ++ [.bagMerged merged.installed bag.keys.length] }

/-- Merges an encrypted bag; gives the number of new keys, none if the bag does not open. -/
def installKeys (v : Vault) (e : Envelope) : Outcome Vault Nat :=
  if v.canDecrypt e then
    let opened : Outcome Unit KeyBag := v.decrypt e
    match opened.result with
    | .ok bag => v.merge bag
    | .error error => ⟨.ok 0, v, [.bagIgnored error]⟩
  else ⟨.ok 0, v, [.bagUnderUnknownKey e.keyName]⟩

end Vault

end KeyVault
