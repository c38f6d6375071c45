import KeyVault.Proofs.Vault.Transfer

/-!
# Readable data stays readable

What a vault can decrypt, it can decrypt for as long as nobody installs another key under the name
of the one that is needed. Merges, pending bags and moves of the default reference replace no key,
whatever they are given.

## Main definitions

- `Operation.Spares`, `Vault.Spares` — an operation, and each one of a run, installs no other key
  under a name

## Main statements

- `Vault.find?_run_of_spares` — what becomes of a held key along a run
- `Vault.readable_data_stays_readable` — what can be read stays readable
-/

namespace KeyVault

theorem Key.Alike.refl (k : Key) : k.Alike k := ⟨rfl, rfl⟩

theorem Key.Alike.trans {k l m : Key} (h : k.Alike l) (h' : l.Alike m) : k.Alike m :=
  ⟨h'.1.trans h.1, h'.2.trans h.2⟩

namespace Operation

variable {v next : Vault} {op : Operation} {result : Except VaultError Answer} {name : String}
  {held : Key}

/-- If an operation installs a key under a name that is held, it encrypts like the one held. -/
def Spares (op : Operation) (v : Vault) (name : String) : Prop :=
  ∀ slot k held, op.Installs v slot k → v.nameOf k = name → v.find? name = some held →
    held.Alike k

theorem Effect.exists_alike (h : Effect v op result next) (hspares : op.Spares v name)
    (hfind : v.find? name = some held) : ∃ k, next.find? name = some k ∧ held.Alike k := by
  rcases h.find?_of_find? hfind with hsame | ⟨slot, k, hinstalls, hname, hnew⟩
  · exact ⟨held, hsame, .refl held⟩
  · exact ⟨k, hnew, hspares slot k held hinstalls hname hfind⟩

end Operation

namespace Vault

variable {v : Vault} {name : String} {held : Key} {steps : List (Operation × Entropy)}

/-- No step of a run replaces the key under a name by one that encrypts differently. -/
def Spares (v : Vault) (name : String) (steps : List (Operation × Entropy)) : Prop :=
  ∀ past op entropy later, steps = past ++ (op, entropy) :: later → op.Spares (v.run past) name

theorem spares_cons {op : Operation} {entropy : Entropy} :
    v.Spares name ((op, entropy) :: steps) ↔
      op.Spares v name ∧ (op.perform v entropy).state.1.Spares name steps := by
  constructor
  · intro h
    refine ⟨h [] op entropy steps rfl, ?_⟩
    rintro past op' entropy' later rfl
    exact h ((op, entropy) :: past) op' entropy' later rfl
  · rintro ⟨hop, hsteps⟩ past op' entropy' later heq
    cases past with
    | nil =>
      obtain ⟨hstep, -⟩ := List.cons.inj heq
      obtain ⟨rfl, -⟩ := Prod.mk.inj hstep
      exact hop
    | cons first past =>
      obtain ⟨rfl, hrest⟩ := List.cons.inj heq
      exact hsteps past op' entropy' later hrest

theorem Spares.of_append {past later : List (Operation × Entropy)}
    (h : v.Spares name (past ++ later)) : v.Spares name past := by
  rintro before op entropy after rfl
  exact h before op entropy (after ++ later) (by simp)

/-- Along a run that spares a held key, a key that encrypts like it is held under its name. -/
theorem find?_run_of_spares (hspares : v.Spares name steps) (hfind : v.find? name = some held) :
    ∃ k, (v.run steps).find? name = some k ∧ held.Alike k := by
  -- The held key may be replaced at each step, by one that encrypts like it.
  induction steps generalizing v held with
  | nil => exact ⟨held, hfind, .refl held⟩
  | cons step steps ih =>
    obtain ⟨op, entropy⟩ := step
    obtain ⟨hop, hsteps⟩ := spares_cons.1 hspares
    obtain ⟨k, hnext, halike⟩ := (Operation.effect_perform v op entropy).exists_alike hop hfind
    obtain ⟨last, hlast, halike'⟩ := ih hsteps hnext
    exact ⟨last, hlast, halike.trans halike'⟩

theorem decryptBytes_run_of_spares {d : Envelope} {plain : Bytes}
    (hread : (v.decryptBytes d).result = .ok plain) (hspares : v.Spares d.keyName steps) :
    ((v.run steps).decryptBytes d).result = .ok plain := by
  obtain ⟨held, hfind, hopen⟩ := decryptBytes_eq_ok_iff.1 hread
  obtain ⟨k, hlast, halike⟩ := find?_run_of_spares hspares hfind
  exact decryptBytes_of_find? hlast ((halike.decrypt d.blob).trans hopen)

/-- Merges, pending bags and moves of the default reference replace no key. -/
theorem find?_of_find?_of_not_installed (hfind : v.find? name = some held) :
    (∀ e, (v.installKeys e).state.find? name = some held) ∧
    (∀ e, (v.setPendingKeys e).state.find? name = some held) ∧
    (∀ c, (v.decryptPendingKeys c).state.find? name = some held) ∧
    (∀ n, (v.setDefaultKey n).state.find? name = some held) := by
  refine ⟨fun e => ?_, fun e => ?_, fun c => ?_, fun n => ?_⟩
  · exact (Operation.effect_installKeys v e).find?_of_not_installs nofun hfind
  · exact (Operation.effect_setPendingKeys v e).find?_of_not_installs nofun hfind
  · exact (Operation.effect_decryptPendingKeys v c).find?_of_not_installs nofun hfind
  · exact (Operation.effect_setDefaultKey v n).find?_of_not_installs nofun hfind

/-- What a vault can decrypt, it can decrypt in every state of every run in which no installed key
takes the place of the one that is needed and encrypts differently. In no state does a merge, a
pending bag or a move of the default reference change the key under any name. -/
theorem readable_data_stays_readable {d : Envelope} {plain : Bytes}
    (hread : (v.decryptBytes d).result = .ok plain) (hspares : v.Spares d.keyName steps) :
    (∀ past later, steps = past ++ later → ((v.run past).decryptBytes d).result = .ok plain) ∧
    ∀ (w : Vault) name held, w.find? name = some held →
      (∀ e, (w.installKeys e).state.find? name = some held) ∧
      (∀ e, (w.setPendingKeys e).state.find? name = some held) ∧
      (∀ c, (w.decryptPendingKeys c).state.find? name = some held) ∧
      (∀ n, (w.setDefaultKey n).state.find? name = some held) := by
  constructor
  · rintro past later rfl
    exact decryptBytes_run_of_spares hread hspares.of_append
  · intro w name held hfind
    exact find?_of_find?_of_not_installed hfind

theorem spares_nil : v.Spares name [] := by
  rintro past op entropy later heq
  cases past <;> cases heq

theorem spares_addKey {c : Credentials} {k : Key} (hderive : v.derive c = .ok k)
    (hfind : v.find? (v.nameOf k) = some k) : (Operation.addKey c).Spares v name := by
  rintro slot installed held ⟨hinstalled⟩ rfl hheld
  obtain rfl : k = installed := Except.ok.inj (hderive.symm.trans hinstalled)
  obtain rfl : k = held := Option.some.inj (hfind.symm.trans hheld)
  exact .refl k

theorem spares_installKeys_addKey {e : Envelope} {c : Credentials} {k : Key} {entropy : Entropy}
    (hderive : v.derive c = .ok k) (hfind : v.find? (v.nameOf k) = some k) :
    v.Spares name [(.installKeys e, entropy), (.addKey c, entropy)] := by
  refine spares_cons.2 ⟨nofun, spares_cons.2 ⟨?_, spares_nil⟩⟩
  have hsettings : (v.installKeys e).state.settings = v.settings :=
    (Operation.effect_installKeys v e).change.settings
  have hderive' : (v.installKeys e).state.derive c = .ok k := by
    rw [derive, hsettings]
    exact hderive
  apply spares_addKey hderive'
  rw [nameOf, hsettings]
  exact (find?_of_find?_of_not_installed hfind).1 e

/-- A forged bag comes in, and the password is entered once more: the data of before is readable. -/
theorem data_is_readable_after_forged_bag :
    let c : Credentials := ⟨"example.org", "user", "password"⟩
    let entropy : Entropy := ⟨fun _ => 0, 0⟩
    let steps := [(.installKeys ⟨"forged", []⟩, entropy), (.addKey c, entropy)]
    ∃ d, ((signedIn c).encryptBytes [1, 2, 3] none entropy).result = .ok d ∧
      ((signedIn c).decryptBytes d).result = .ok [1, 2, 3] ∧ (signedIn c).Spares d.keyName steps ∧
      (((signedIn c).run steps).decryptBytes d).result = .ok [1, 2, 3] := by
  intro c entropy steps
  obtain ⟨k, hderive, hkey⟩ := exists_defaultKey?_signedIn (c := c) (by decide)
  obtain ⟨d, hok, hname, hopen⟩ := exists_encryptBytes hkey [1, 2, 3] none entropy
  have hfind := (defaultKey?_eq_some.1 hkey).2
  have hread : ((signedIn c).decryptBytes d).result = .ok [1, 2, 3] :=
    decryptBytes_of_find? (hname ▸ hfind) hopen
  have hsettings := settings_signedIn c
  have hspares : (signedIn c).Spares d.keyName steps := by
    apply spares_installKeys_addKey (k := k)
    · rw [derive, hsettings]
      exact hderive
    · rw [nameOf, hsettings]
      exact hfind
  have hlater := (readable_data_stays_readable hread hspares).1 steps [] (List.append_nil _).symm
  exact ⟨d, hok, hread, hspares, hlater⟩

end Vault

end KeyVault
