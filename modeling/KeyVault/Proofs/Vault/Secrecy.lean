import KeyVault.Proofs.Vault.Transfer
import Mathlib.Data.List.Forall2

/-!
# What a merge gives away

A vault shows the names of its keys and its references, and reports names, lengths and counts. No
byte of a key is among that. So two merges that differ in the bytes of keys only cannot be told
apart: not by what they give back, not by what they report, and not by the vaults that they leave
behind, as far as these can be seen.

## Main definitions

- `KeyMaterial.SameLengths`, `KeyEntry.SameShape`, `KeyBag.SameShape` — the same but for the bytes
  of the keys
- `Vault.SameOutline` — vaults that look alike from outside
- `Outcome.Indistinct` — outcomes that cannot be told apart

## Main statements

- `Merge.SameOutline.add`, `Merge.SameOutline.foldl` — one entry, and all entries
- `Vault.SameOutline.merge`, `Vault.SameOutline.adoptPending` — the bag once it is open
- `Vault.merges_hide_key_bytes` — encrypted bags and pending bags
-/

namespace KeyVault

/-! ### Shapes -/

/-- Components of the same lengths. -/
structure KeyMaterial.SameLengths (m n : KeyMaterial) : Prop where
  userKey : m.userKey.length = n.userKey.length
  encryptionKey : m.encryptionKey.length = n.encryptionKey.length
  macKey : m.macKey.length = n.macKey.length

/-- Entries of the same name, with components of the same lengths. -/
structure KeyEntry.SameShape (a b : KeyEntry) : Prop where
  name : a.name = b.name
  material : a.material.SameLengths b.material

/-- Bags whose entries have the same shapes, one after the other. -/
def KeyBag.SameShape (bag bag' : KeyBag) : Prop :=
  List.Forall₂ KeyEntry.SameShape bag.keys bag'.keys

namespace Key

theorem sameFault_component {a b : Bytes} (h : a.length = b.length) :
    SameFault (component a) (component b) := by
  by_cases hlength : a.length = 32
  · rw [component, component, Octets.ofBytes?, Octets.ofBytes?, dif_pos hlength,
      dif_pos (h ▸ hlength)]
    exact .ok _ _
  · rw [component, component, Octets.ofBytes?, Octets.ofBytes?, dif_neg hlength,
      dif_neg (h ▸ hlength), h]
    exact .error _

/-- Whether components are those of a key, and what is wrong with them, depends on their lengths. -/
theorem sameFault_ofComponents {m n : KeyMaterial} (h : m.SameLengths n) :
    SameFault (ofComponents m) (ofComponents n) := by
  refine (sameFault_component h.userKey).bind fun _ _ => ?_
  refine (sameFault_component h.encryptionKey).bind fun _ _ => ?_
  refine (sameFault_component h.macKey).bind fun _ _ => ?_
  exact .ok _ _

end Key

/-! ### Entries -/

/-- Merges that hold the same names, count alike and report the same. -/
structure Merge.SameOutline (m n : Merge) : Prop where
  names : ∀ name, m.keys.contains name = n.keys.contains name
  installed : m.installed = n.installed
  events : m.events = n.events

namespace Merge.SameOutline

variable {m n : Merge}

/-- What an entry does to the outline of a merge depends on the shape of the entry. -/
theorem add (h : m.SameOutline n) {a b : KeyEntry} (hshape : a.SameShape b) :
    (m.add a).SameOutline (n.add b) := by
  have hname := hshape.name
  cases hheld : m.keys.contains a.name with
  | true =>
    have hheld' : n.keys.contains b.name = true := by rw [← h.names, ← hname, hheld]
    rw [add_of_contains hheld, add_of_contains hheld']
    exact h
  | false =>
    have hnew : n.keys.contains b.name = false := by rw [← h.names, ← hname, hheld]
    have hfault := Key.sameFault_ofComponents hshape.material
    generalize hk : Key.ofComponents a.material = x at hfault
    generalize hk' : Key.ofComponents b.material = y at hfault
    cases hfault with
    | ok k k' =>
      rw [add_of_key hheld hk, add_of_key hnew hk']
      refine ⟨fun name => ?_, congrArg (· + 1) h.installed, h.events⟩
      rw [NameMap.contains, NameMap.contains, NameMap.find?_insert, NameMap.find?_insert, hname]
      by_cases hsame : name = b.name
      · rw [if_pos hsame, if_pos hsame]
        rfl
      · rw [if_neg hsame, if_neg hsame]
        exact h.names name
    | error error =>
      rw [add_of_error hheld hk, add_of_error hnew hk', hname]
      exact ⟨h.names, h.installed, congrArg (· ++ [.entryMalformed b.name error]) h.events⟩

/-- All entries, one after the other. -/
theorem foldl (h : m.SameOutline n) {entries entries' : List KeyEntry}
    (hshapes : List.Forall₂ KeyEntry.SameShape entries entries') :
    (entries.foldl Merge.add m).SameOutline (entries'.foldl Merge.add n) := by
  induction hshapes generalizing m n with
  | nil => exact h
  | cons hshape _ ih => exact ih (h.add hshape)

end Merge.SameOutline

/-! ### Vaults -/

/-- Vaults that look alike from outside: keys of the same names, the same references, pending data
under the same name, and a handler in both or in none. -/
structure Vault.SameOutline (v w : Vault) : Prop where
  names : ∀ name, v.hasKey name = w.hasKey name
  defaultName : v.defaultName = w.defaultName
  keystoreName : v.keystoreName = w.keystoreName
  pendingName : v.pending.map Envelope.keyName = w.pending.map Envelope.keyName
  handler : v.handler.isSome = w.handler.isSome

/-- Outcomes that cannot be told apart: the same result and the same events, hence the same levels
and texts, and vaults with the same names, references and debug text. -/
structure Outcome.Indistinct {α : Type} (o o' : Outcome Vault α) : Prop where
  result : o.result = o'.result
  events : o.events = o'.events
  names : o.state.keys.names = o'.state.keys.names
  outline : o.state.SameOutline o'.state
  debug : Debug.debug o.state = Debug.debug o'.state

namespace Vault

variable {v w : Vault} {bag bag' : KeyBag}

namespace SameOutline

theorem names_eq (h : v.SameOutline w) : v.keys.names = w.keys.names := NameMap.names_eq h.names

theorem hasPending_eq (h : v.SameOutline w) : v.hasPending = w.hasPending := by
  have hsome := congrArg Option.isSome h.pendingName
  rwa [Option.isSome_map, Option.isSome_map] at hsome

/-- Vaults that look alike have the same debug text. -/
theorem debug_eq (h : v.SameOutline w) : Debug.debug v = Debug.debug w := by
  change Debug.openFields _ _ = Debug.openFields _ _
  rw [h.names_eq, h.defaultName, h.keystoreName, h.hasPending_eq, h.handler]

/-- Outcomes with the same result, the same events and vaults that look alike. -/
theorem indistinct {α : Type} {o o' : Outcome Vault α} (h : o.state.SameOutline o'.state)
    (hresult : o.result = o'.result) (hevents : o.events = o'.events) : o.Indistinct o' :=
  ⟨hresult, hevents, h.names_eq, h, h.debug_eq⟩

/-- Bags of the same shape are merged alike. -/
theorem merge (h : v.SameOutline w) (hbags : bag.SameShape bag') :
    (v.merge bag).Indistinct (w.merge bag') := by
  have hstart : Merge.SameOutline ⟨v.keys, 0, []⟩ ⟨w.keys, 0, []⟩ := ⟨h.names, rfl, rfl⟩
  have hmerged := hstart.foldl hbags
  have hstate : (v.merge bag).state.SameOutline (w.merge bag').state :=
    ⟨hmerged.names, h.defaultName, h.keystoreName, h.pendingName, h.handler⟩
  have hlength : bag.keys.length = bag'.keys.length := hbags.length_eq
  refine hstate.indistinct (congrArg Except.ok hmerged.installed) ?_
  rw [Vault.merge, Vault.merge, hmerged.installed, hmerged.events, hlength]

/-- Bags of the same shape are adopted alike. -/
theorem adoptPending (h : v.SameOutline w) (hbags : bag.SameShape bag') (name : String) :
    (v.adoptPending name bag).Indistinct (w.adoptPending name bag') := by
  have hmerge := h.merge hbags
  have hnext := hmerge.outline
  cases hheld : (v.merge bag).state.hasKey name with
  | true =>
    have hheld' : (w.merge bag').state.hasKey name = true := by rw [← hnext.names, hheld]
    rw [adoptPending_of_hasKey hheld, adoptPending_of_hasKey hheld']
    have hstate : SameOutline
        { (v.merge bag).state with defaultName := some name, pending := none }
        { (w.merge bag').state with defaultName := some name, pending := none } :=
      ⟨hnext.names, rfl, hnext.keystoreName, rfl, hnext.handler⟩
    exact hstate.indistinct rfl hmerge.events
  | false =>
    have hlacks : (w.merge bag').state.hasKey name = false := by rw [← hnext.names, hheld]
    rw [adoptPending_of_lacks hheld, adoptPending_of_lacks hlacks]
    refine indistinct ?_ rfl ?_
    · exact hnext
    · exact congrArg (· ++ [.pendingOwnKeyMissing name]) hmerge.events

end SameOutline

/-- Two vaults that look alike, and two bags that differ in the bytes of their keys only, each of
which opens in its own vault. Installing them gives the same in both vaults, and so does opening
them as pending data, whatever credentials do that: the same result, the same events, and vaults
that look alike again, with the same debug text. -/
theorem merges_hide_key_bytes (h : v.SameOutline w) (hbags : bag.SameShape bag') :
    (∀ e e', v.Opens e bag → w.Opens e' bag' →
      (v.installKeys e).Indistinct (w.installKeys e')) ∧
    ∀ c c' e e', v.OpensPending c e bag → w.OpensPending c' e' bag' →
      (v.decryptPendingKeys c).Indistinct (w.decryptPendingKeys c') := by
  constructor
  · intro e e' hopens hopens'
    rw [installKeys_of_opens hopens, installKeys_of_opens hopens']
    exact h.merge hbags
  · intro c c' e e' hopens hopens'
    have hname : e.keyName = e'.keyName := by
      have hnames := h.pendingName
      rw [hopens.1, hopens'.1] at hnames
      exact Option.some.inj hnames
    rw [decryptPendingKeys_of_opens hopens, decryptPendingKeys_of_opens hopens', hname]
    exact h.adoptPending hbags e'.keyName

/-- Different keys under one name, and a bag of each of them: with an entry that is new, one that is
malformed, and the key that is pending. -/
theorem other_keys_make_no_difference :
    let c : Credentials := ⟨"example.org", "user", "password"⟩
    ∃ name k, (signedIn c).find? name = some k ∧
      let other : Key := ⟨.zero 32, .zero 32, .zero 32⟩
      let bag : KeyBag := ⟨[⟨"", k.components⟩, ⟨"broken", ⟨[1], [], []⟩⟩]⟩
      let bag' : KeyBag := ⟨[⟨"", other.components⟩, ⟨"broken", ⟨[2], [], []⟩⟩]⟩
      let e : Envelope := ⟨name, k.encrypt (.zero 12) (Json.encode bag)⟩
      let e' : Envelope := ⟨name, other.encrypt (.zero 12) (Json.encode bag')⟩
      let d : Envelope := ⟨"", k.encrypt (.zero 12) (Json.encode bag)⟩
      let d' : Envelope := ⟨"", k.encrypt (.zero 12) (Json.encode bag')⟩
      let v : Vault := { signedIn c with pending := some d }
      let w : Vault := { v with keys := v.keys.insert name other, pending := some d' }
      v.SameOutline w ∧ bag.SameShape bag' ∧ v.Opens e bag ∧ w.Opens e' bag' ∧
        v.OpensPending c d bag ∧ w.OpensPending c d' bag' ∧
        (v.installKeys e).Indistinct (w.installKeys e') ∧
        (v.decryptPendingKeys c).Indistinct (w.decryptPendingKeys c) := by
  intro c
  obtain ⟨k, hderive, hkey⟩ := exists_defaultKey?_signedIn (c := c) (by decide)
  have hfind := (defaultKey?_eq_some.1 hkey).2
  have hderive' : (signedIn c).derive c = .ok k := by
    rw [derive, settings_signedIn]
    exact hderive
  -- How the first vault has come about does not matter from here on.
  generalize signedIn c = start at hfind hderive' ⊢
  refine ⟨_, k, hfind, ?_⟩
  intro other bag bag' e e' d d' v w
  have houtline : v.SameOutline w := by
    -- The names are compared, never the blobs.
    have hwaiting : v.pending.map Envelope.keyName = some "" := rfl
    have hwaiting' : w.pending.map Envelope.keyName = some "" := rfl
    refine ⟨fun name => ?_, rfl, rfl, hwaiting.trans hwaiting'.symm, rfl⟩
    change v.keys.contains name = (v.keys.insert _ other).contains name
    rw [NameMap.contains, NameMap.contains, NameMap.find?_insert]
    by_cases hname : name = e.keyName
    · have hheld : v.keys.find? name = some k := hname ▸ hfind
      rw [if_pos hname, hheld]
      rfl
    · rw [if_neg hname]
  have hshape : bag.SameShape bag' := by
    have hfirst : k.components.SameLengths other.components :=
      ⟨k.user.length_bytes, k.encryption.length_bytes, k.mac.length_bytes⟩
    exact .cons ⟨rfl, hfirst⟩ <| .cons ⟨rfl, rfl, rfl, rfl⟩ .nil
  have hopens : v.Opens e bag := opens_encrypt hfind _ bag
  have hfind' : w.find? e'.keyName = some other := NameMap.find?_insert_self v.keys _ other
  have hopens' : w.Opens e' bag' := opens_encrypt hfind' _ bag'
  have hpending : v.OpensPending c d bag := opensPending_encrypt rfl hderive'
  have hsettings : w.settings = start.settings := rfl
  have hderive'' : w.derive c = .ok k := by
    rw [derive, hsettings]
    exact hderive'
  have hpending' : w.OpensPending c d' bag' := opensPending_encrypt rfl hderive''
  obtain ⟨hinstall, hdecrypt⟩ := merges_hide_key_bytes houtline hshape
  exact ⟨houtline, hshape, hopens, hopens', hpending, hpending', hinstall e e' hopens hopens',
    hdecrypt c c d d' hpending hpending'⟩

end Vault

end KeyVault
