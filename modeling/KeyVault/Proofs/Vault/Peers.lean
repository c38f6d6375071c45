import KeyVault.Proofs.Vault.Pending
import KeyVault.Proofs.Vault.Readable
import Mathlib.Logic.Function.Basic
import Mathlib.Logic.Relation

/-!
# Peers that exchange their keys

Any number of vaults send their bags to each other, and a bag arrives late, more than once, out of
order or not at all. Peers that agree on their keys go on doing so, and each message can be read
wherever the name of its key is known.

## Main definitions

- `Network` — the vaults, the bags that are on their way, and what has been encrypted
- `Network.Agree`, `Network.Known` — equal keys under equal names, and bags without new keys
- `Network.Step` — what one of the vaults does
- `Network.Sound` — what ties the vaults and the bags to the keys of the start

## Main statements

- `Network.Sound.step` — each step keeps the network sound
- `Network.peers_agree` — agreement, and messages that can be read
- `Network.earlier_bag_brings_new_key` — why the bags of before the start have to be looked at

## Implementation notes

A bag does not tell which key has sealed it, and `canDecrypt` compares names only. So a bag travels
with the key that sealed it, and all keys are compared with those of the start, which never change.
-/

namespace KeyVault

/-- A sealed bag, with the key that sealed it. -/
structure Parcel where
  envelope : Envelope
  key : Key

structure Network (ι : Type) where
  vaults : ι → Vault
  /-- Bags that were sealed before the start, by whomever. They can be pending, and nothing else. -/
  earlier : List Parcel
  /-- Bags that have been sent. None is ever taken away. -/
  inFlight : List Parcel
  /-- What encryption has given, with what was encrypted. -/
  messages : List (Envelope × Bytes)

namespace Network

variable {ι : Type}

/-! ### Keys of many vaults -/

/-- One of the vaults holds a key under a name. -/
def Held (vaults : ι → Vault) (name : String) (k : Key) : Prop :=
  ∃ i, (vaults i).find? name = some k

/-- Vaults that hold the same name hold the same key under it. -/
def Agree (vaults : ι → Vault) : Prop :=
  ∀ name k l, Held vaults name k → Held vaults name l → k = l

/-- All that a bag offers to who opens it with its key is held already. -/
def Known (vaults : ι → Vault) (p : Parcel) : Prop :=
  ∀ bag, p.key.Opens p.envelope.blob bag → ∀ name k, bag.find? name = some k → Held vaults name k

/-! ### Steps -/

def start (vaults : ι → Vault) (earlier : List Parcel) : Network ι := ⟨vaults, earlier, [], []⟩

def put [DecidableEq ι] (net : Network ι) (i : ι) (v : Vault) : Network ι :=
  { net with vaults := Function.update net.vaults i v }

/-- Credentials do not open the pending bag, or they give what sealed it. -/
def Fits (net : Network ι) (i : ι) (c : Credentials) : Prop :=
  ∀ e k plain, (net.vaults i).pending = some e → (net.vaults i).derive c = .ok k →
    k.decrypt e.blob = .ok plain →
    ∃ p, (p ∈ net.earlier ∨ p ∈ net.inFlight) ∧ p.envelope = e ∧ p.key.Alike k

theorem fits_of_derive {net : Network ι} {i : ι} {p : Parcel} {c : Credentials}
    (hsealed : p ∈ net.earlier ∨ p ∈ net.inFlight)
    (hpending : (net.vaults i).pending = some p.envelope)
    (hderive : (net.vaults i).derive c = .ok p.key) : net.Fits i c := by
  intro e k plain hpending' hderive' _
  rw [hpending] at hpending'
  rw [hderive] at hderive'
  obtain rfl : p.key = k := Except.ok.inj hderive'
  exact ⟨p, hsealed, Option.some.inj hpending', .refl p.key⟩

/-- One of the vaults does something. -/
inductive Step [DecidableEq ι] (net : Network ι) : Network ι → Prop
  | send {i : ι} {entropy : Entropy} {name : String} {k : Key} {e : Envelope}
    (hdefault : (net.vaults i).defaultKey? = some (name, k))
    (hsent : ((net.vaults i).getKeys entropy).result = .ok e) :
    Step net { net with inFlight := ⟨e, k⟩ :: net.inFlight }
  | encrypt {i : ι} {plain : Bytes} {previous : Option Envelope} {entropy : Entropy} {e : Envelope}
    (hdone : ((net.vaults i).encryptBytes plain previous entropy).result = .ok e) :
    Step net { net with messages := (e, plain) :: net.messages }
  | setDefault (i : ι) (name : String) :
    Step net (net.put i ((net.vaults i).setDefaultKey name).state)
  | deliver (i : ι) {p : Parcel} (hsent : p ∈ net.inFlight) :
    Step net (net.put i ((net.vaults i).installKeys p.envelope).state)
  | hold (i : ι) {p : Parcel} (hsent : p ∈ net.inFlight) :
    Step net (net.put i ((net.vaults i).setPendingKeys p.envelope).state)
  | attempt (i : ι) {c : Credentials} (hfits : net.Fits i c) :
    Step net (net.put i ((net.vaults i).decryptPendingKeys c).state)

/-! ### What every step preserves -/

/-- One of the vaults holds what it held at the start, and no key that nobody held. -/
structure Grown (initial : ι → Vault) (i : ι) (v : Vault) : Prop where
  kept : ∀ name k, (initial i).find? name = some k → v.find? name = some k
  origin : ∀ name k, v.find? name = some k → Held initial name k

/-- All keys, at the vaults and on their way, are those of the start. -/
structure Sound (initial : ι → Vault) (net : Network ι) : Prop where
  vaults : ∀ i, Grown initial i (net.vaults i)
  earlier : ∀ p ∈ net.earlier, Known initial p
  inFlight : ∀ p ∈ net.inFlight, Known initial p ∧ Held initial p.envelope.keyName p.key
  messages : ∀ e plain, (e, plain) ∈ net.messages →
    ∃ k, Held initial e.keyName k ∧ k.decrypt e.blob = .ok plain

section Sound

variable {initial : ι → Vault} {net : Network ι} {i : ι}

theorem Sound.start {earlier : List Parcel} (hearlier : ∀ p ∈ earlier, Known initial p) :
    Sound initial (start initial earlier) where
  vaults i := ⟨fun _ _ hfind => hfind, fun _ _ hfind => ⟨i, hfind⟩⟩
  earlier := hearlier
  inFlight := nofun
  messages := nofun

theorem Sound.known_of_getKeys (h : Sound initial net) {entropy : Entropy} {name : String} {k : Key}
    {e : Envelope} (hdefault : (net.vaults i).defaultKey? = some (name, k))
    (hsent : ((net.vaults i).getKeys entropy).result = .ok e) :
    Known initial ⟨e, k⟩ ∧ Held initial e.keyName k := by
  obtain ⟨e', hok, hname, hopen⟩ := Vault.exists_getKeys hdefault entropy
  obtain rfl : e' = e := Except.ok.inj (hok.symm.trans hsent)
  constructor
  · rintro bag ⟨plain, hplain, hdecode⟩ n l hfind
    obtain rfl : Json.encode (net.vaults i).bag = plain := Except.ok.inj (hopen.symm.trans hplain)
    obtain rfl : (net.vaults i).bag = bag :=
      Except.ok.inj ((Vault.decode_bag _).symm.trans hdecode)
    rw [Vault.find?_bag] at hfind
    exact (h.vaults i).origin n l hfind
  · rw [hname]
    exact (h.vaults i).origin name k (Vault.defaultKey?_eq_some.1 hdefault).2

theorem Sound.held_of_opens (hagree : Agree initial) (h : Sound initial net) {p : Parcel}
    (hsent : p ∈ net.inFlight) {bag : KeyBag} (hopens : (net.vaults i).Opens p.envelope bag)
    {name : String} {k : Key} (hfind : bag.find? name = some k) : Held initial name k := by
  obtain ⟨held, hheld, hopen⟩ := hopens
  obtain ⟨hknown, hsealed⟩ := h.inFlight p hsent
  -- The vault tries the key of that name. As all agree, it is the one that sealed the bag.
  obtain rfl : held = p.key := hagree _ _ _ ((h.vaults i).origin _ held hheld) hsealed
  exact hknown bag hopen name k hfind

theorem Sound.held_of_opensPending (h : Sound initial net) {c : Credentials} (hfits : net.Fits i c)
    {e : Envelope} {bag : KeyBag} (hopens : (net.vaults i).OpensPending c e bag) {name : String}
    {k : Key} (hfind : bag.find? name = some k) : Held initial name k := by
  obtain ⟨hpending, secret, hderive, plain, hopen, hdecode⟩ := hopens
  obtain ⟨p, hp, rfl, halike⟩ := hfits e secret plain hpending hderive hopen
  have hknown : Known initial p := hp.elim (h.earlier p) fun hsent => (h.inFlight p hsent).1
  exact hknown bag ⟨plain, (halike.decrypt _).symm.trans hopen, hdecode⟩ name k hfind

theorem Sound.agree (hagree : Agree initial) (h : Sound initial net) : Agree net.vaults := by
  rintro name k l ⟨i, hk⟩ ⟨j, hl⟩
  exact hagree name k l ((h.vaults i).origin name k hk) ((h.vaults j).origin name l hl)

theorem Sound.decryptBytes (hagree : Agree initial) (h : Sound initial net) {e : Envelope}
    {plain : Bytes} (hmessage : (e, plain) ∈ net.messages)
    (hcan : (net.vaults i).canDecrypt e = true) :
    ((net.vaults i).decryptBytes e).result = .ok plain := by
  obtain ⟨k, hheld, hopen⟩ := h.messages e plain hmessage
  obtain ⟨l, hfind⟩ := Vault.hasKey_iff.1 hcan
  obtain rfl : k = l := hagree _ _ _ hheld ((h.vaults i).origin _ l hfind)
  exact Vault.decryptBytes_of_find? hfind hopen

end Sound

/-! ### Runs -/

variable [DecidableEq ι] {initial : ι → Vault} {net next : Network ι} {earlier : List Parcel}
  {i : ι}

/-- An operation that installs no key of its own keeps the network sound if what it brings is
known. -/
theorem Sound.put {op : Operation} {result : Except VaultError Answer} {v : Vault}
    (h : Sound initial net) (heffect : op.Effect (net.vaults i) result v)
    (hnone : ∀ slot k, ¬ op.Installs (net.vaults i) slot k)
    (hbrings : ∀ name k, op.Brings (net.vaults i) name k → Held initial name k) :
    Sound initial (net.put i v) := by
  have hgrown : Grown initial i v := by
    refine ⟨fun name k hfind => ?_, fun name k hfind => ?_⟩
    · exact heffect.find?_of_not_installs hnone ((h.vaults i).kept name k hfind)
    · exact (heffect.find?_or_brings hfind).elim ((h.vaults i).origin name k) (hbrings name k)
  refine { h with vaults := ?_ }
  exact (Function.forall_update_iff net.vaults (Grown initial)).2 ⟨hgrown, fun j _ => h.vaults j⟩

/-- Each step keeps the network sound. -/
theorem Sound.step (hagree : Agree initial) (h : Sound initial net) (hstep : net.Step next) :
    Sound initial next := by
  -- The first two leave the vaults alone, the others change one of them by an operation.
  cases hstep with
  | send hdefault hsent =>
    refine { h with inFlight := fun p hp => ?_ }
    rcases List.mem_cons.1 hp with rfl | hp
    · exact h.known_of_getKeys hdefault hsent
    · exact h.inFlight p hp
  | @encrypt i plain previous entropy e hdone =>
    refine { h with messages := fun e' plain' hmessage => ?_ }
    rcases List.mem_cons.1 hmessage with heq | hmessage
    · obtain ⟨rfl, rfl⟩ := Prod.mk.inj heq
      obtain ⟨k, hfind, hopen⟩ := Vault.encryptBytes_eq_ok hdone
      exact ⟨k, (h.vaults i).origin _ k hfind, hopen⟩
    · exact h.messages e' plain' hmessage
  | setDefault i name =>
    refine h.put (Operation.effect_setDefaultKey _ name) nofun fun name k hbrings => ?_
    cases hbrings with
    | installed hinstalls => cases hinstalls
  | deliver i hsent =>
    refine h.put (Operation.effect_installKeys _ _) nofun fun name k hbrings => ?_
    cases hbrings with
    | installed hinstalls => cases hinstalls
    | merged hopens hfind => exact h.held_of_opens hagree hsent hopens hfind
  | hold i hsent =>
    refine h.put (Operation.effect_setPendingKeys _ _) nofun fun name k hbrings => ?_
    cases hbrings with
    | installed hinstalls => cases hinstalls
  | attempt i hfits =>
    refine h.put (Operation.effect_decryptPendingKeys _ _) nofun fun name k hbrings => ?_
    cases hbrings with
    | installed hinstalls => cases hinstalls
    | adopted hopens hfind => exact h.held_of_opensPending hfits hopens hfind

theorem Sound.run (hagree : Agree initial) (h : Sound initial net)
    (hrun : Relation.ReflTransGen Step net next) : Sound initial next := by
  induction hrun with
  | refl => exact h
  | tail _ hstep ih => exact ih.step hagree hstep

/-- Peers that agree on their keys at the start do so at any later time, whatever they do and in
whichever order their bags arrive. Nobody loses a key that was there at the start, nobody gets one
that nobody had, and whoever holds the name of a message's key reads the message as it was
written. A bag that is pending at the start already must hold no key that is new to all peers. -/
theorem peers_agree (hagree : Agree initial) (hearlier : ∀ p ∈ earlier, Known initial p)
    (hrun : Relation.ReflTransGen Step (start initial earlier) net) :
    Agree net.vaults ∧
    (∀ i name k, (initial i).find? name = some k → (net.vaults i).find? name = some k) ∧
    (∀ name k, Held net.vaults name k → Held initial name k) ∧
    ∀ e plain, (e, plain) ∈ net.messages → ∀ i, (net.vaults i).canDecrypt e = true →
      ((net.vaults i).decryptBytes e).result = .ok plain := by
  have hsound : Sound initial net := (Sound.start hearlier).run hagree hrun
  refine ⟨hsound.agree hagree, fun i => (hsound.vaults i).kept, ?_,
    fun e plain hmessage i hcan => ?_⟩
  · rintro name k ⟨i, hfind⟩
    exact (hsound.vaults i).origin name k hfind
  · exact hsound.decryptBytes hagree hmessage hcan

/-- A newcomer holds the bag of a peer until the password is given, and then reads what the peer
wrote before. -/
theorem newcomer_reads_older_message :
    let c : Credentials := ⟨"example.org", "user", "password"⟩
    let vaults : Bool → Vault := fun host =>
      bif host then Vault.signedIn c else Vault.empty .passthrough .standard
    ∃ p d net, Agree vaults ∧ Known vaults p ∧
      Relation.ReflTransGen Step (start vaults [p]) net ∧ (d, [1, 2, 3]) ∈ net.messages ∧
      (net.vaults false).canDecrypt d = true ∧
      ((net.vaults false).decryptBytes d).result = .ok [1, 2, 3] := by
  intro c vaults
  obtain ⟨k, hderive, hkey⟩ := Vault.exists_defaultKey?_signedIn (c := c) (by decide)
  obtain ⟨d, hwritten, hname, -⟩ := Vault.exists_encryptBytes hkey [1, 2, 3] none ⟨fun _ => 0, 0⟩
  obtain ⟨e, hsent, hsealed, hopen⟩ := Vault.exists_getKeys hkey ⟨fun _ => 0, 0⟩
  have hagree : Agree vaults := by
    rintro name l m ⟨i, hl⟩ ⟨j, hm⟩
    cases i with
    | false => cases hl
    | true =>
      cases j with
      | false => cases hm
      | true => exact Option.some.inj (hl.symm.trans hm)
  have hstart : Sound vaults (start vaults []) := .start (List.forall_mem_nil _)
  have hknown : Known vaults ⟨e, k⟩ := (hstart.known_of_getKeys (i := true) hkey hsent).1
  let sent : Network Bool := ⟨vaults, [⟨e, k⟩], [⟨e, k⟩], [(d, [1, 2, 3])]⟩
  -- It is the bag sent now that becomes pending; the same bag was sealed before the start as well.
  let held := sent.put false ((sent.vaults false).setPendingKeys e).state
  let opened := held.put false ((held.vaults false).decryptPendingKeys c).state
  have hbag : (⟨e, k⟩ : Parcel) ∈ sent.inFlight := List.mem_singleton_self _
  have hfits : held.Fits false c := fits_of_derive (p := ⟨e, k⟩) (.inr hbag) rfl hderive
  have hrun : Relation.ReflTransGen Step (start vaults [⟨e, k⟩]) opened :=
    .tail (.tail (.tail (.single (.encrypt (i := true) hwritten)) (.send (i := true) hkey hsent))
      (.hold false hbag)) (.attempt false hfits)
  have hfind : (Vault.signedIn c).find? e.keyName = some k :=
    hsealed ▸ (Vault.defaultKey?_eq_some.1 hkey).2
  have hnew : (opened.vaults false).find? d.keyName = some k := by
    rw [hname, ← hsealed]
    exact (Vault.decryptPendingKeys_of_peer (v := held.vaults false) rfl rfl hderive hopen
      hfind).2.1
  have hcan : (opened.vaults false).canDecrypt d = true := Vault.hasKey_iff.2 ⟨k, hnew⟩
  have hmessage : (d, [1, 2, 3]) ∈ opened.messages := List.mem_singleton_self _
  obtain ⟨-, -, -, hread⟩ := peers_agree hagree (List.forall_mem_singleton.2 hknown) hrun
  exact ⟨⟨e, k⟩, d, opened, hagree, hknown, hrun, hmessage, hcan, hread d _ hmessage false hcan⟩

/-- A bag that is pending already may come from somebody else. The password opens it, and brings a
key that none of the peers held. -/
theorem earlier_bag_brings_new_key :
    let c : Credentials := ⟨"example.org", "user", "password"⟩
    let outsider := Vault.signedIn c
    ∃ name k e v net, outsider.defaultKey? = some (name, k) ∧
      (outsider.getKeys ⟨fun _ => 0, 0⟩).result = .ok e ∧
      v = ((Vault.empty .passthrough .standard).setPendingKeys e).state ∧ v.Reachable ∧
      Agree (fun _ : Unit => v) ∧
      Relation.ReflTransGen Step (start (fun _ : Unit => v) [⟨e, k⟩]) net ∧
      (net.vaults ()).find? name = some k ∧ ¬ Held (fun _ : Unit => v) name k := by
  intro c outsider
  obtain ⟨k, hderive, hkey⟩ := Vault.exists_defaultKey?_signedIn (c := c) (by decide)
  obtain ⟨e, hsent, hsealed, hopen⟩ := Vault.exists_getKeys hkey ⟨fun _ => 0, 0⟩
  let v := ((Vault.empty .passthrough .standard).setPendingKeys e).state
  have hempty : ∀ name l, ¬ Held (fun _ : Unit => v) name l := by
    rintro name l ⟨i, hl⟩
    cases hl
  have hfits : (start (fun _ : Unit => v) [⟨e, k⟩]).Fits () c :=
    fits_of_derive (p := ⟨e, k⟩) (.inl (List.mem_singleton_self _)) rfl hderive
  have hfind : outsider.find? e.keyName = some k :=
    hsealed ▸ (Vault.defaultKey?_eq_some.1 hkey).2
  have hnew : (v.decryptPendingKeys c).state.find? e.keyName = some k :=
    (Vault.decryptPendingKeys_of_peer (v := v) rfl rfl hderive hopen hfind).2.1
  rw [hsealed] at hnew
  exact ⟨_, k, e, v, _, hkey, hsent, rfl, ⟨_, _, [(.setPendingKeys e, ⟨fun _ => 0, 0⟩)], rfl⟩,
    fun name l _ hl => absurd hl (hempty name l), .single (.attempt () hfits), hnew, hempty _ k⟩

end Network

end KeyVault
