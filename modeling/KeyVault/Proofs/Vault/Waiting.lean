import KeyVault.Proofs.Vault.Pending

/-!
# Pending data that can be read

Pending data are accepted while their key is not held, and only an attempt at them clears them. A
key of their name that comes in another way makes them readable and leaves them pending.

## Main definitions

- `Operation.Supplies` — an operation puts a key under a name, other than by an attempt at the
  pending data
- `Vault.StaysPending`, `Vault.Supplied` — a run never lets go of pending data, a run supplies a
  name

## Main statements

- `Vault.canDecrypt_perform_iff` — one step
- `Vault.stays_pending_or_accepted` — where the pending data of a run come from
- `Vault.pending_readable_iff_supplied` — pending data along every run
- `Vault.added_key_leaves_bag_pending` — pending data that can be read
-/

namespace KeyVault

namespace Operation

/-- An operation puts a key under a name: it installs one, or merges the bag that it is given. -/
inductive Supplies (v : Vault) (name : String) : Operation → Prop
  | installed {op : Operation} {slot : Slot} {k : Key} (hinstalls : op.Installs v slot k)
    (hname : v.nameOf k = name) : Supplies v name op
  | merged {e : Envelope} {bag : KeyBag} {k : Key} (hopens : v.Opens e bag)
    (hfind : bag.find? name = some k) : Supplies v name (installKeys e)

variable {v : Vault} {op : Operation}

/-- What is supplied is held. -/
theorem Supplies.hasKey {name : String} (h : op.Supplies v name) (entropy : Entropy) :
    (op.perform v entropy).state.1.hasKey name = true := by
  cases h with
  | @installed _ slot k hinstalls hname =>
    rw [hinstalls.state_perform, ← hname]
    exact Vault.hasKey_install v slot k
  | @merged e bag k hopens hfind =>
    change (v.installKeys e).state.hasKey name = true
    rw [Vault.installKeys_of_opens hopens, Vault.hasKey_iff, Vault.find?_merge]
    cases hheld : v.find? name with
    | none => exact ⟨k, hfind⟩
    | some held => exact ⟨held, rfl⟩

/-- Whoever holds pending data after a step has just accepted them, or held them before. -/
theorem Effect.accepted_or_pending {next : Vault} {result : Except VaultError Answer}
    {e : Envelope} (h : Effect v op result next) (hpending : next.pending = some e) :
    op = setPendingKeys e ∧ v.canDecrypt e = false ∨ v.pending = some e := by
  cases h with
  | @install _ slot k => cases slot <;> exact .inr hpending
  | hold hnew =>
    obtain rfl := Option.some.inj hpending
    exact .inl ⟨rfl, hnew⟩
  | adopt => cases hpending
  | refer | merge | skip | lack | ignore | refuse | query | forward => exact .inr hpending

end Operation

namespace Vault

variable {v : Vault} {e : Envelope}

/-! ### One step -/

/-- An attempt that leaves the data pending does not bring their own key. -/
theorem canDecrypt_of_attempt {c : Credentials} {bag : KeyBag} {entropy : Entropy}
    (hopens : v.OpensPending c e bag)
    (hkept : (Operation.perform (.decryptPendingKeys c) v entropy).state.1.pending = some e) :
    (Operation.perform (.decryptPendingKeys c) v entropy).state.1.canDecrypt e = false := by
  change (v.decryptPendingKeys c).state.pending = some e at hkept
  change (v.decryptPendingKeys c).state.canDecrypt e = false
  cases hheld : (v.merge bag).state.hasKey e.keyName with
  | true =>
    rw [(Verdict.adopt hopens hheld).eq.2] at hkept
    cases hkept
  | false =>
    rw [(Verdict.lack hopens hheld).eq.2]
    exact hheld

/-- While data stay pending, a step makes them readable exactly if it supplies their name. -/
theorem canDecrypt_perform_iff {op : Operation} {entropy : Entropy} (hpending : v.pending = some e)
    (hkept : (op.perform v entropy).state.1.pending = some e) :
    (op.perform v entropy).state.1.canDecrypt e = true ↔
      v.canDecrypt e = true ∨ op.Supplies v e.keyName := by
  have heffect := Operation.effect_perform v op entropy
  constructor
  · intro hreadable
    obtain ⟨k, hfind⟩ := hasKey_iff.1 hreadable
    rcases heffect.find?_or_brings hfind with hheld | hbrings
    · exact .inl (hasKey_iff.2 ⟨k, hheld⟩)
    · right
      generalize hname : e.keyName = name at hbrings
      cases hbrings with
      | installed hinstalls => exact .installed hinstalls rfl
      | merged hopens hnew => exact .merged hopens hnew
      | @adopted c e' bag _ _ hopens hnew =>
        obtain rfl : e' = e := Option.some.inj (hopens.1.symm.trans hpending)
        rw [canDecrypt_of_attempt hopens hkept] at hreadable
        cases hreadable
  · rintro (hheld | hsupplies)
    · exact heffect.change.hasKey hheld
    · exact hsupplies.hasKey entropy

/-! ### Runs -/

/-- A run never lets go of pending data. -/
def StaysPending (e : Envelope) (v : Vault) : List (Operation × Entropy) → Prop
  | [] => v.pending = some e
  | (op, entropy) :: later =>
    v.pending = some e ∧ StaysPending e (op.perform v entropy).state.1 later

/-- A run has an operation that supplies a name. -/
def Supplied (name : String) (v : Vault) : List (Operation × Entropy) → Prop
  | [] => False
  | (op, entropy) :: later =>
    op.Supplies v name ∨ Supplied name (op.perform v entropy).state.1 later

theorem StaysPending.pending {steps : List (Operation × Entropy)} (h : StaysPending e v steps) :
    v.pending = some e := by
  cases steps with
  | nil => exact h
  | cons step later => exact h.1

/-- While data stay pending, a run makes them readable exactly if it supplies their name. -/
theorem canDecrypt_run_iff {steps : List (Operation × Entropy)} (h : StaysPending e v steps) :
    (v.run steps).canDecrypt e = true ↔ v.canDecrypt e = true ∨ Supplied e.keyName v steps := by
  induction steps generalizing v with
  | nil => exact (or_iff_left id).symm
  | cons step later ih =>
    obtain ⟨op, entropy⟩ := step
    obtain ⟨hpending, hlater⟩ := h
    change ((op.perform v entropy).state.1.run later).canDecrypt e = true ↔ _
    rw [ih hlater, canDecrypt_perform_iff hpending hlater.pending, or_assoc]
    rfl

/-- Data that are pending after a run have been pending all along, or have been accepted on the way
and stayed from then on. -/
theorem stays_pending_or_accepted {steps : List (Operation × Entropy)}
    (h : (v.run steps).pending = some e) :
    StaysPending e v steps ∨
      ∃ past entropy later, steps = past ++ (.setPendingKeys e, entropy) :: later ∧
        (v.run past).canDecrypt e = false ∧
        StaysPending e ((v.run past).setPendingKeys e).state later := by
  induction steps generalizing v with
  | nil => exact .inl h
  | cons step later ih =>
    obtain ⟨op, entropy⟩ := step
    rcases ih (v := (op.perform v entropy).state.1) h with
      hstays | ⟨past, drawn, rest, rfl, hnew, hstays⟩
    · rcases (Operation.effect_perform v op entropy).accepted_or_pending hstays.pending with
        ⟨rfl, hnew⟩ | hpending
      · exact .inr ⟨[], entropy, later, rfl, hnew, hstays⟩
      · exact .inl ⟨hpending, hstays⟩
    · exact .inr ⟨(op, entropy) :: past, drawn, rest, rfl, hnew, hstays⟩

/-- Pending data have been accepted while no key of their name was held, and have stayed since. They
can be read exactly if a later step installed a key of their name, or merged a bag that has one. -/
theorem pending_readable_iff_supplied {protector : Protector} {settings : Settings}
    {steps : List (Operation × Entropy)}
    (h : ((Vault.empty protector settings).run steps).pending = some e) :
    ∃ past entropy later, steps = past ++ (.setPendingKeys e, entropy) :: later ∧
      let before := (Vault.empty protector settings).run past
      let held := (before.setPendingKeys e).state
      before.canDecrypt e = false ∧ held.canDecrypt e = false ∧ StaysPending e held later ∧
      (((Vault.empty protector settings).run steps).canDecrypt e = true ↔
        Supplied e.keyName held later) := by
  rcases stays_pending_or_accepted h with hstays | ⟨past, entropy, later, rfl, hnew, hstays⟩
  · -- A vault without keys has no pending data.
    cases hstays.pending
  · have hheld : (((Vault.empty protector settings).run past).setPendingKeys e).state.canDecrypt e
        = false := by
      rw [(setPendingKeys_of_lacks hnew).2]
      exact hnew
    refine ⟨past, entropy, later, rfl, hnew, hheld, hstays, ?_⟩
    have hlast := canDecrypt_run_iff hstays
    rw [hheld, or_iff_right (by decide)] at hlast
    rw [run_append]
    exact hlast

/-! ### A key that is added -/

/-- Credentials that are added, and not tried on the pending data, leave them pending. -/
theorem addKey_leaves_pending {c : Credentials} {k : Key} (hpending : v.pending = some e)
    (hderive : v.derive c = .ok k) (hname : v.nameOf k = e.keyName) :
    (v.addKey c).state.pending = some e ∧ (v.addKey c).state.canDecrypt e = true := by
  rw [addKey, hderive]
  refine ⟨hpending, ?_⟩
  rw [canDecrypt, ← hname]
  exact hasKey_install v .default k

/-- A new vault holds the bag of a peer, and then gets the credentials of the peer. -/
theorem exists_readable_pending {c : Credentials} (hpassword : c.HasPassword)
    (entropy : Entropy) :
    ∃ e v, ((signedIn c).getKeys entropy).result = .ok e ∧
      v = (Vault.empty .passthrough .standard).run
        [(.setPendingKeys e, entropy), (.addKey c, entropy)] ∧
      v.pending = some e ∧ v.canDecrypt e = true := by
  obtain ⟨k, hderive, hkey⟩ := exists_defaultKey?_signedIn hpassword
  obtain ⟨e, hok, hname, -⟩ := exists_getKeys hkey entropy
  have hlacks : (Vault.empty .passthrough .standard).hasKey e.keyName = false := rfl
  refine ⟨e, (((Vault.empty .passthrough .standard).setPendingKeys e).state.addKey c).state, hok,
    rfl, ?_⟩
  rw [(setPendingKeys_of_lacks hlacks).2]
  exact addKey_leaves_pending rfl hderive hname.symm

/-- The password of the peer is added, the bag of the peer can be read, and the vault goes on
waiting for it. -/
theorem added_key_leaves_bag_pending :
    let c : Credentials := ⟨"example.org", "user", "password"⟩
    let entropy : Entropy := ⟨fun _ => 0, 0⟩
    ∃ e v, ((signedIn c).getKeys entropy).result = .ok e ∧
      v = (Vault.empty .passthrough .standard).run
        [(.setPendingKeys e, entropy), (.addKey c, entropy)] ∧
      v.pending = some e ∧ v.canDecrypt e = true ∧ v.isReady = false := by
  intro c entropy
  obtain ⟨e, v, hok, hv, hpending, hreadable⟩ :=
    exists_readable_pending (c := c) (by decide) entropy
  refine ⟨e, v, hok, hv, hpending, hreadable, ?_⟩
  rw [isReady, hasPending, hpending]
  exact Bool.and_false _

/-- In the same run, the later step that supplies the name is found. -/
theorem added_key_is_supplied :
    let c : Credentials := ⟨"example.org", "user", "password"⟩
    let entropy : Entropy := ⟨fun _ => 0, 0⟩
    ∃ e past drawn later, ((signedIn c).getKeys entropy).result = .ok e ∧
      [(.setPendingKeys e, entropy), (.addKey c, entropy)]
        = past ++ (.setPendingKeys e, drawn) :: later ∧
      ((Vault.empty .passthrough .standard).run
        [(.setPendingKeys e, entropy), (.addKey c, entropy)]).pending = some e ∧
      Supplied e.keyName
        (((Vault.empty .passthrough .standard).run past).setPendingKeys e).state later := by
  intro c entropy
  obtain ⟨e, v, hok, rfl, hpending, hreadable⟩ :=
    exists_readable_pending (c := c) (by decide) entropy
  obtain ⟨past, drawn, later, hsteps, -, -, -, hiff⟩ := pending_readable_iff_supplied hpending
  exact ⟨e, past, drawn, later, hok, hsteps, hpending, hiff.1 hreadable⟩

end Vault

end KeyVault
