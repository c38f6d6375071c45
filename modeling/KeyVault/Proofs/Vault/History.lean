import KeyVault.Proofs.Vault.Restart

/-!
# What a run makes of references and pending data

The default reference, the keystore reference and the pending data are what the last step made them
that was asked to and succeeded. All other steps leave them alone, whether they fail or do something
else.

## Main definitions

- `Operation.slot?` — the reference that an operation is asked to set
- `Operation.chosen?` — the name that a step chooses for a reference
- `Operation.pendingChange?` — what a step makes of the pending data
- `Vault.trace` — what can be said of the steps of a run, in their order

## Main statements

- `Operation.Effect.reference`, `Operation.Effect.pending` — one step
- `Vault.run_eq_last` — the last step of which something can be said decides
- `Vault.references_follow_history` — references and pending data along every run
-/

namespace KeyVault

namespace Operation

/-! ### One step -/

/-- The reference that an operation is asked to set. -/
def slot? : Operation → Option Slot
  | addKey _ | addKeyFromToken _ | bootstrap _ | setDefaultKey _ | decryptPendingKeys _ =>
    some .default
  | setKeystoreKey _ | bootstrapKeystoreKey _ => some .keystore
  | _ => none

/-- The name that the key of a token gets in a vault. -/
def tokenName? (v : Vault) (token : String) : Option String :=
  (Token.read v.protector token).toOption.map v.nameOf

/-- The name that a step chooses for a reference, given what the vault was before and what the step
gave back: the own name of a key that it installs, the name it is given, or that of the pending
data. -/
def chosen? (slot : Slot) (op : Operation) (v : Vault) : Except VaultError Answer → Option String
  | .error _ => none
  | .ok _ =>
    match slot, op with
    | .default, addKey c => (v.derive c).toOption.map v.nameOf
    | .default, addKeyFromToken token => tokenName? v token
    | .default, bootstrap token => if v.isInitialized then none else tokenName? v token
    | .default, setDefaultKey name => some name
    | .default, decryptPendingKeys _ => v.pending.map Envelope.keyName
    | .keystore, setKeystoreKey secret =>
      (v.derive ⟨v.settings.keystoreHostname, v.settings.keystoreUsername, secret⟩).toOption.map
        v.nameOf
    | .keystore, bootstrapKeystoreKey token =>
      if v.hasKeystoreKey then none else tokenName? v token
    | _, _ => none

/-- What a step makes of the pending data, if it succeeds. -/
def pendingChange? (op : Operation) (_ : Vault) :
    Except VaultError Answer → Option (Option Envelope)
  | .error _ => none
  | .ok _ =>
    match op with
    | setPendingKeys e => some (some e)
    | decryptPendingKeys _ => some none
    | _ => none

variable {v next : Vault} {op : Operation} {result : Except VaultError Answer} {slot : Slot}

theorem tokenName?_of_read {token : String} {k : Key} (h : Token.read v.protector token = .ok k) :
    tokenName? v token = some (v.nameOf k) := by
  rw [tokenName?, h]
  rfl

theorem tokenName?_eq_none {token : String} (h : ∀ k, Token.read v.protector token ≠ .ok k) :
    tokenName? v token = none := by
  rw [tokenName?]
  cases hread : Token.read v.protector token with
  | ok k => exact absurd hread (h k)
  | error fault => rfl

theorem Installs.chosen?_eq {installed : Slot} {k : Key} (h : op.Installs v installed k) :
    op.chosen? slot v (.ok .done) = if slot = installed then some (v.nameOf k) else none := by
  cases h with
  | addKey hderive | setKeystoreKey _ hderive =>
    cases slot <;> simp [chosen?, hderive, Except.toOption]
  | addKeyFromToken hread => cases slot <;> simp [chosen?, tokenName?_of_read hread]
  | bootstrap hfirst hread | bootstrapKeystoreKey hfirst hread =>
    cases slot <;> simp [chosen?, hfirst, tokenName?_of_read hread]

/-- A restart that comes too late, or whose token holds no key, chooses nothing. -/
theorem chosen?_of_not_installs (hkind : op.kind = .restart)
    (hnone : ∀ slot k, ¬ op.Installs v slot k) : op.chosen? slot v (.ok .done) = none := by
  cases op with
  | bootstrap token =>
    cases slot with
    | keystore => rfl
    | default =>
      refine ite_eq_left_iff.2 fun hfirst => tokenName?_eq_none fun k hread => ?_
      exact hnone .default k (.bootstrap (Bool.not_eq_true _ ▸ hfirst) hread)
  | bootstrapKeystoreKey token =>
    cases slot with
    | default => rfl
    | keystore =>
      refine ite_eq_left_iff.2 fun hfirst => tokenName?_eq_none fun k hread => ?_
      exact hnone .keystore k (.bootstrapKeystoreKey (Bool.not_eq_true _ ▸ hfirst) hread)
  | _ => cases hkind

theorem result_perform_of_restart (hkind : op.kind = .restart) (entropy : Entropy) :
    (op.perform v entropy).result = .ok .done := by
  have hread : ∀ slot token, (v.installFromToken slot token).result = .ok () := by
    intro slot token
    rw [Vault.installFromToken]
    cases Token.read v.protector token <;> rfl
  cases op with
  | bootstrap token =>
    change (v.bootstrap token).result.map _ = _
    rw [Vault.bootstrap]
    cases v.isInitialized with
    | true => rfl
    | false => exact congrArg _ (hread .default token)
  | bootstrapKeystoreKey token =>
    change (v.bootstrapKeystoreKey token).result.map _ = _
    rw [Vault.bootstrapKeystoreKey]
    cases v.hasKeystoreKey with
    | true => rfl
    | false => exact congrArg _ (hread .keystore token)
  | _ => cases hkind

theorem chosen?_of_kind (h : op.kind = .query ∨ op.kind = .node) :
    op.chosen? slot v result = none := by
  cases result with
  | error error => rfl
  | ok answer => cases op <;> cases slot <;> first | rfl | simp [kind] at h

theorem pendingChange?_of_kind (h : op.kind ≠ .change) : op.pendingChange? v result = none := by
  cases result with
  | error error => rfl
  | ok answer => cases op <;> first | rfl | simp [kind] at h

/-- An operation that tells success from failure chooses a name when it succeeds. -/
theorem Effect.chosen?_ne_none (h : Effect v op result next) (hresult : result = .ok .done)
    (hslot : op.slot? = some slot) (hkind : op.kind = .change) :
    op.chosen? slot v result ≠ none := by
  cases h with
  | @install op installed k hinstalls =>
    obtain rfl : slot = installed := by
      cases hinstalls <;> exact (Option.some.inj hslot).symm
    simp [hinstalls.chosen?_eq]
  | refer =>
    obtain rfl := Option.some.inj hslot
    simp [chosen?]
  | adopt hopens =>
    obtain rfl := Option.some.inj hslot
    simp [chosen?, hopens.1]
  | merge | skip | hold => cases hslot
  | lack | refuse => cases hresult
  | ignore hrestart | query hrestart | forward hrestart => simp [hrestart] at hkind

/-- A step sets a reference to the name that it chooses, and leaves it if it chooses none. -/
theorem Effect.reference (h : Effect v op result next) (slot : Slot) :
    next.reference slot = (op.chosen? slot v result).or (v.reference slot) := by
  cases h with
  | @install op installed k hinstalls =>
    rw [hinstalls.chosen?_eq]
    cases installed <;> cases slot <;> rfl
  | refer | merge | skip | hold => cases slot <;> rfl
  | adopt hopens =>
    cases slot with
    | default => simp [chosen?, hopens.1, Vault.reference]
    | keystore => rfl
  | lack | refuse => cases slot <;> rfl
  | ignore hkind hnone => rw [chosen?_of_not_installs hkind hnone, Option.none_or]
  | query hkind => rw [chosen?_of_kind (.inl hkind), Option.none_or]
  | forward hkind =>
    rw [chosen?_of_kind (.inr hkind), Option.none_or]
    cases slot <;> rfl

/-- A step leaves the pending data, holds new ones or clears them. -/
theorem Effect.pending (h : Effect v op result next) :
    next.pending = (op.pendingChange? v result).getD v.pending := by
  cases h with
  | @install op installed k hinstalls => cases hinstalls <;> rfl
  | refer | merge | skip | hold | adopt | lack | refuse => rfl
  | ignore hkind | query hkind | forward hkind =>
    rw [pendingChange?_of_kind (by simp [hkind])]
    rfl

/-- Merges, queries and calls that are passed on leave references and pending data alone. -/
theorem perform_keeps_references
    (hop : (∃ e, op = .installKeys e) ∨ op.kind = .query ∨ op.kind = .node) (entropy : Entropy) :
    (∀ slot, (op.perform v entropy).state.1.reference slot = v.reference slot) ∧
      (op.perform v entropy).state.1.pending = v.pending := by
  have heffect := effect_perform v op entropy
  rw [heffect.pending]
  constructor
  · intro slot
    rw [heffect.reference]
    rcases hop with ⟨e, rfl⟩ | hkind
    · cases (perform _ v entropy).result <;> cases slot <;> rfl
    · rw [chosen?_of_kind hkind, Option.none_or]
  · rcases hop with ⟨e, rfl⟩ | hkind
    · cases (perform _ v entropy).result <;> rfl
    · rw [pendingChange?_of_kind (by rcases hkind with h | h <;> simp [h])]
      rfl

end Operation

namespace Vault

/-! ### Runs -/

/-- What `f` says of the steps of a run, in their order. It sees an operation, the vault before, and
what has been given back; of many steps it says nothing. -/
def trace {α : Type} (f : Operation → Vault → Except VaultError Answer → Option α) (v : Vault) :
    List (Operation × Entropy) → List α
  | [] => []
  | (op, entropy) :: later =>
    (f op v (op.perform v entropy).result).toList
      ++ trace f (op.perform v entropy).state.1 later

/-- If each step makes of a part of the state what `f` says, the last step of which `f` says
something decides what a run makes of it. -/
theorem run_eq_last {α β : Type} {f : Operation → Vault → Except VaultError Answer → Option α}
    (part : Vault → β) (read : α → β)
    (hstep : ∀ {v next op result}, Operation.Effect v op result next →
      part next = ((f op v result).map read).getD (part v))
    (v : Vault) (steps : List (Operation × Entropy)) :
    part (v.run steps) = ((v.trace f steps).getLast?.map read).getD (part v) := by
  induction steps generalizing v with
  | nil => rfl
  | cons step steps ih =>
    obtain ⟨op, entropy⟩ := step
    have hhead := hstep (Operation.effect_perform v op entropy)
    change part ((op.perform v entropy).state.1.run steps) = _
    rw [ih, hhead, trace]
    cases f op v (op.perform v entropy).result with
    | none => rfl
    | some a =>
      -- The last of the later steps decides, and this one if they say nothing.
      cases hlast : (trace f (op.perform v entropy).state.1 steps).getLast? <;>
        simp [List.getLast?_cons, hlast]

theorem getD_map_some {α : Type} (x y : Option α) : (x.map some).getD y = x.or y := by
  cases x <;> rfl

theorem reference_run (v : Vault) (slot : Slot) (steps : List (Operation × Entropy)) :
    (v.run steps).reference slot
      = (v.trace (Operation.chosen? slot) steps).getLast?.or (v.reference slot) := by
  rw [← getD_map_some]
  refine run_eq_last (fun w => w.reference slot) some (fun h => ?_) v steps
  rw [getD_map_some]
  exact h.reference slot

theorem reference_run_empty (protector : Protector) (settings : Settings) (slot : Slot)
    (steps : List (Operation × Entropy)) :
    ((Vault.empty protector settings).run steps).reference slot
      = ((Vault.empty protector settings).trace (Operation.chosen? slot) steps).getLast? := by
  have hnone : (Vault.empty protector settings).reference slot = none := by cases slot <;> rfl
  rw [reference_run, hnone, Option.or_none]

theorem pending_run (v : Vault) (steps : List (Operation × Entropy)) :
    (v.run steps).pending = (v.trace Operation.pendingChange? steps).getLast?.getD v.pending := by
  have hlast := run_eq_last (f := Operation.pendingChange?) pending id
    (fun h => by rw [Option.map_id]; exact h.pending) v steps
  rw [Option.map_id] at hlast
  exact hlast

/-- What a run has set stays set. -/
theorem reference_run_ne_none {v : Vault} {slot : Slot} (h : v.reference slot ≠ none)
    (steps : List (Operation × Entropy)) : (v.run steps).reference slot ≠ none := by
  rw [reference_run]
  cases hlast : (v.trace (Operation.chosen? slot) steps).getLast? <;> simp [h]

/-- Along every run that starts without keys, each reference is the name that the last step chose
that chose one for it, and the pending data are those that were held last, unless they have been
opened since. An operation that is asked to set a reference and succeeds does choose a name for it;
restarts always succeed, and choose one if they come in time and their token holds a key. Merges,
queries and calls that are passed on change nothing, and a reference that has been set stays set. -/
theorem references_follow_history (protector : Protector) (settings : Settings)
    (steps : List (Operation × Entropy)) :
    let start := Vault.empty protector settings
    let v := start.run steps
    (∀ slot, v.reference slot = (start.trace (Operation.chosen? slot) steps).getLast?) ∧
    v.pending = (start.trace Operation.pendingChange? steps).getLast?.join ∧
    (∀ (w : Vault) (op : Operation) (entropy : Entropy) slot, op.slot? = some slot →
      (op.kind = .change → (op.perform w entropy).result = .ok .done →
        op.chosen? slot w (op.perform w entropy).result ≠ none) ∧
      (op.kind = .restart → (op.perform w entropy).result = .ok .done)) ∧
    (∀ (w : Vault) (op : Operation) (entropy : Entropy),
      (∃ e, op = .installKeys e) ∨ op.kind = .query ∨ op.kind = .node →
      (∀ slot, (op.perform w entropy).state.1.reference slot = w.reference slot) ∧
        (op.perform w entropy).state.1.pending = w.pending) ∧
    ∀ slot past later, steps = past ++ later → (start.run past).reference slot ≠ none →
      v.reference slot ≠ none := by
  intro start v
  refine ⟨fun slot => ?_, ?_, fun w op entropy slot hslot => ⟨fun hkind hok => ?_, fun hkind => ?_⟩,
    fun w op entropy hop => ?_, ?_⟩
  · exact reference_run_empty protector settings slot steps
  · rw [pending_run]
    cases (start.trace Operation.pendingChange? steps).getLast? <;> rfl
  · exact (Operation.effect_perform w op entropy).chosen?_ne_none hok hslot hkind
  · exact Operation.result_perform_of_restart hkind entropy
  · exact Operation.perform_keeps_references hop entropy
  · rintro slot past later rfl hset
    have hrun : v = (start.run past).run later := run_append start past later
    rw [hrun]
    exact reference_run_ne_none hset later

end Vault

end KeyVault
