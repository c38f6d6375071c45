import KeyVault.Proofs.Vault.Transfer

/-!
# Merging many bags

Bags that are merged one after the other add to a vault what they offer and it lacks; for each name
the first of them decides. Whether a bag opens does not depend on the others, since no merge
replaces a key. So if bags agree on the keys of new names, neither their order nor repetitions make
a difference.

## Main definitions

- `Vault.offered?` — the key that an envelope offers to a vault under a name
- `Vault.installAll` — merges encrypted bags one after the other, and counts the new keys of all
- `Vault.AgreeOnNewNames` — bags that do not contradict each other

## Main statements

- `Vault.find?_installKeys`, `Vault.find?_installAll` — what is held after one bag and after many
- `Vault.merging_order_is_irrelevant` — any order of the same bags
-/

namespace KeyVault

namespace Vault

variable {v w : Vault} {e : Envelope} {bag : KeyBag} {es : List Envelope}

/-! ### One bag -/

/-- The bag that an envelope opens to. -/
def opened? (v : Vault) (e : Envelope) : Option KeyBag :=
  (v.decrypt e : Outcome Unit KeyBag).result.toOption

/-- The key that an envelope offers to a vault under a name. -/
def offered? (v : Vault) (name : String) (e : Envelope) : Option Key :=
  (v.opened? e).bind fun bag => bag.find? name

theorem opened?_eq_some : v.opened? e = some bag ↔ v.Opens e bag := by
  rw [← decrypt_eq_ok_iff, opened?]
  cases (v.decrypt e : Outcome Unit KeyBag).result <;> simp [Except.toOption]

theorem Opens.unique {bag' : KeyBag} (h : v.Opens e bag) (h' : v.Opens e bag') : bag = bag' :=
  Option.some.inj ((opened?_eq_some.2 h).symm.trans (opened?_eq_some.2 h'))

theorem offered?_eq_some {name : String} {k : Key} :
    v.offered? name e = some k ↔ ∃ bag, v.Opens e bag ∧ bag.find? name = some k := by
  rw [offered?, Option.bind_eq_some_iff]
  exact exists_congr fun bag => and_congr_left' opened?_eq_some

theorem isSome_offered?_iff {name : String} :
    (v.offered? name e).isSome = true ↔ ∃ bag, v.Opens e bag ∧
      ∃ entry ∈ bag.keys, entry.name = name ∧ entry.material.Whole := by
  simp only [Option.isSome_iff_exists, offered?_eq_some, ← KeyBag.isSome_find?_iff]
  constructor
  · rintro ⟨k, bag, hopens, hoffers⟩
    exact ⟨bag, hopens, k, hoffers⟩
  · rintro ⟨bag, hopens, k, hoffers⟩
    exact ⟨k, bag, hopens, hoffers⟩

/-- What an envelope offers depends on the key that it names, and on no other. -/
theorem offered?_congr (h : w.find? e.keyName = v.find? e.keyName) (name : String) :
    w.offered? name e = v.offered? name e := by
  rw [offered?, offered?, opened?, opened?, decrypt, decrypt, decryptBytes, decryptBytes, h]

/-- What is held under each name after a bag has been merged. -/
theorem find?_installKeys (v : Vault) (e : Envelope) (name : String) :
    (v.installKeys e).state.find? name = (v.find? name).or (v.offered? name e) := by
  rcases v.installKeys_cases e with ⟨bag, hopens, hmerge⟩ | ⟨hcloses, -, hstate⟩
  · rw [hmerge, find?_merge, offered?, opened?_eq_some.2 hopens, Option.bind_some]
  · have hnone : v.offered? name e = none := by
      refine Option.eq_none_iff_forall_ne_some.2 fun k hoffered => ?_
      obtain ⟨bag, hopens, -⟩ := offered?_eq_some.1 hoffered
      exact hcloses bag hopens
    rw [hstate, hnone, Option.or_none]

theorem find?_installKeys_of_hasKey {name : String} (h : v.hasKey name = true) (e : Envelope) :
    (v.installKeys e).state.find? name = v.find? name := by
  obtain ⟨k, hfind⟩ := hasKey_iff.1 h
  rw [find?_installKeys, hfind, Option.some_or]

/-- A bag gives the number of keys by which the vault grows, and changes nothing but the keys. -/
theorem exists_installKeys (v : Vault) (e : Envelope) :
    ∃ n keys, (v.installKeys e).result = .ok n ∧ (v.installKeys e).state = { v with keys := keys } ∧
      keys.size = v.keyCount + n := by
  rcases v.installKeys_cases e with ⟨bag, -, hmerge⟩ | ⟨-, hresult, hstate⟩
  · obtain ⟨n, hresult, hcount⟩ := v.exists_result_merge bag
    rw [hmerge]
    exact ⟨n, (v.merge bag).state.keys, hresult, rfl, hcount⟩
  · exact ⟨0, v.keys, hresult, hstate, rfl⟩

/-! ### Many bags -/

/-- Merges encrypted bags one after the other; gives the number of new keys of all of them. -/
def installAll (v : Vault) : List Envelope → Outcome Vault Nat
  | [] => ⟨.ok 0, v, []⟩
  | e :: es =>
    let first := v.installKeys e
    let others := first.state.installAll es
    { result := do return (← first.result) + (← others.result)
      state := others.state
      events := first.events ++ others.events }

/-- What is held under each name after many bags: the first that offers a key decides. -/
theorem find?_installAll (hheld : ∀ e ∈ es, v.canDecrypt e = true) (name : String) :
    (v.installAll es).state.find? name = (v.find? name).or (es.findSome? (v.offered? name)) := by
  -- No key is replaced on the way, so what a bag offers is what it offers at the start.
  suffices h : ∀ w : Vault, (∀ e ∈ es, w.find? e.keyName = v.find? e.keyName) →
      (w.installAll es).state.find? name = (w.find? name).or (es.findSome? (v.offered? name)) from
    h v fun _ _ => rfl
  induction es with
  | nil => exact fun w _ => (Option.or_none).symm
  | cons e es ih =>
    intro w hw
    obtain ⟨he, hes⟩ := List.forall_mem_cons.1 hw
    obtain ⟨-, hheld⟩ := List.forall_mem_cons.1 hheld
    have hnext : ∀ d ∈ es, (w.installKeys e).state.find? d.keyName = v.find? d.keyName := by
      intro d hd
      obtain ⟨k, hfind⟩ := hasKey_iff.1 (hheld d hd)
      have hsame := hes d hd
      rw [find?_installKeys_of_hasKey (hasKey_iff.2 ⟨k, hsame.trans hfind⟩), hsame]
    change ((w.installKeys e).state.installAll es).state.find? name = _
    rw [ih hheld _ hnext, find?_installKeys, offered?_congr he, Option.or_assoc,
      List.findSome?_cons]
    cases v.offered? name e <;> rfl

/-- A name is held after many bags exactly if it was held before, or one of the bags that open has a
well-formed entry of this name. -/
theorem hasKey_installAll_iff (hheld : ∀ e ∈ es, v.canDecrypt e = true) {name : String} :
    (v.installAll es).state.hasKey name = true ↔ v.hasKey name = true ∨
      ∃ e ∈ es, ∃ bag, v.Opens e bag ∧
        ∃ entry ∈ bag.keys, entry.name = name ∧ entry.material.Whole := by
  rw [hasKey_eq_isSome, hasKey_eq_isSome, find?_installAll hheld, Option.isSome_or,
    Bool.or_eq_true, List.findSome?_isSome_iff]
  simp only [isSome_offered?_iff]

/-- Many bags give the number of keys by which the vault grows, and change nothing but the keys. -/
theorem exists_installAll (v : Vault) (es : List Envelope) :
    ∃ n keys, (v.installAll es).result = .ok n ∧ (v.installAll es).state = { v with keys := keys } ∧
      keys.size = v.keyCount + n := by
  induction es generalizing v with
  | nil => exact ⟨0, v.keys, rfl, rfl, rfl⟩
  | cons e es ih =>
    obtain ⟨n, keys, hresult, hstate, hsize⟩ := v.exists_installKeys e
    obtain ⟨m, keys', hresult', hstate', hsize'⟩ := ih (v.installKeys e).state
    rw [hstate] at hstate' hsize'
    refine ⟨n + m, keys', ?_, ?_, ?_⟩
    · simp only [installAll, hresult, hresult', bind, Except.bind]
      rfl
    · rw [installAll, hstate]
      exact hstate'
    · change keys'.size = keys.size + m at hsize'
      omega

/-! ### Any order -/

/-- Where the elements of a list agree on what they give, order and repetitions do not matter. -/
theorem findSome?_eq_of_same_members {α β : Type} {f : α → Option β} {l order : List α}
    (hagree : ∀ a ∈ l, ∀ b ∈ l, ∀ x y, f a = some x → f b = some y → x = y)
    (hsame : ∀ a, a ∈ order ↔ a ∈ l) : order.findSome? f = l.findSome? f := by
  cases hl : l.findSome? f with
  | none =>
    rw [List.findSome?_eq_none_iff] at hl ⊢
    exact fun a ha => hl a ((hsame a).1 ha)
  | some y =>
    obtain ⟨b, hb, hy⟩ := List.exists_of_findSome?_eq_some hl
    cases horder : order.findSome? f with
    | none =>
      have hnone := List.findSome?_eq_none_iff.1 horder b ((hsame b).2 hb)
      rw [hnone] at hy
      cases hy
    | some x =>
      obtain ⟨a, ha, hx⟩ := List.exists_of_findSome?_eq_some horder
      rw [hagree a ((hsame a).1 ha) b hb x y hx hy]

/-- The bags that open agree on the components of the entries that count under new names. -/
def AgreeOnNewNames (v : Vault) (es : List Envelope) : Prop :=
  ∀ d ∈ es, ∀ e ∈ es, ∀ bag bag', v.Opens d bag → v.Opens e bag' →
    ∀ entry entry', bag.First entry → bag'.First entry' → entry.name = entry'.name →
      v.hasKey entry.name = false → entry.material = entry'.material

theorem AgreeOnNewNames.offered?_eq (h : v.AgreeOnNewNames es) {name : String}
    (hnew : v.hasKey name = false) {d e : Envelope} (hd : d ∈ es) (he : e ∈ es) {k k' : Key}
    (hk : v.offered? name d = some k) (hk' : v.offered? name e = some k') : k = k' := by
  obtain ⟨bag, hopens, hoffers⟩ := offered?_eq_some.1 hk
  obtain ⟨bag', hopens', hoffers'⟩ := offered?_eq_some.1 hk'
  obtain ⟨entry, hfirst, rfl, hmaterial⟩ := KeyBag.find?_eq_some_iff.1 hoffers
  obtain ⟨entry', hfirst', hname, hmaterial'⟩ := KeyBag.find?_eq_some_iff.1 hoffers'
  have hsame : entry.material = entry'.material :=
    h d hd e he bag bag' hopens hopens' entry entry' hfirst hfirst' hname.symm hnew
  exact Key.components_injective (hmaterial.symm.trans (hsame.trans hmaterial'))

/-- The same bags in any order, and any number of times, lead to the same state. -/
theorem state_installAll_of_same_members (hheld : ∀ e ∈ es, v.canDecrypt e = true)
    (hagree : v.AgreeOnNewNames es) {order : List Envelope} (hsame : ∀ e, e ∈ order ↔ e ∈ es) :
    (v.installAll order).state = (v.installAll es).state := by
  obtain ⟨n, keys, -, hstate, -⟩ := v.exists_installAll es
  obtain ⟨m, keys', -, hstate', -⟩ := v.exists_installAll order
  have heq : keys' = keys := by
    refine NameMap.ext_find? fun name => ?_
    have hfind := find?_installAll hheld name
    have hfind' := find?_installAll (fun e he => hheld e ((hsame e).1 he)) name
    rw [hstate] at hfind
    rw [hstate'] at hfind'
    refine hfind'.trans (Eq.trans ?_ hfind.symm)
    cases hname : v.find? name with
    | some k => rw [Option.some_or, Option.some_or]
    | none =>
      have hnew : v.hasKey name = false := NameMap.contains_eq_false.2 hname
      rw [findSome?_eq_of_same_members (fun d hd e he _ _ => hagree.offered?_eq hnew hd he) hsame]
  rw [hstate, hstate', heq]

/-- What many bags give is determined by the state that they lead to. -/
theorem result_installAll_of_state {order : List Envelope}
    (h : (v.installAll order).state = (v.installAll es).state) :
    (v.installAll order).result = (v.installAll es).result := by
  obtain ⟨n, keys, hresult, hstate, hsize⟩ := v.exists_installAll es
  obtain ⟨m, keys', hresult', hstate', hsize'⟩ := v.exists_installAll order
  have hkeys : keys' = keys := congrArg Vault.keys (hstate'.symm.trans (h.trans hstate))
  rw [hkeys] at hsize'
  obtain rfl : m = n := by omega
  rw [hresult, hresult']

/-- Many bags give the number of the names by which the vault grows. -/
theorem exists_names_installAll (hheld : ∀ e ∈ es, v.canDecrypt e = true) :
    ∃ names : List String, names.Nodup ∧
      (∀ name, name ∈ names ↔
        v.hasKey name = false ∧ (v.installAll es).state.hasKey name = true) ∧
      (v.installAll es).result = .ok names.length := by
  obtain ⟨n, keys, hresult, hstate, hsize⟩ := v.exists_installAll es
  have hgrows (name : String) (hname : v.keys.contains name = true) :
      keys.contains name = true := by
    have hkept := (hasKey_installAll_iff hheld).2 (.inl hname)
    rwa [hstate] at hkept
  let names := keys.names.filter fun name => !v.keys.contains name
  have hcount : keys.size = v.keys.size + names.length := by
    rw [NameMap.size_eq_add_countP hgrows, List.countP_eq_length_filter]
  obtain rfl : names.length = n := Nat.add_left_cancel (hcount.symm.trans hsize)
  refine ⟨names, keys.nodup_names.filter _, fun name => ?_, hresult⟩
  rw [List.mem_filter, NameMap.mem_names, Bool.not_eq_true', and_comm, hstate]
  rfl

/-- Bags under keys that are held, which agree on the components of each name that is new, can be
merged in any order and any number of times: the vault ends in the same state, and the counts add up
to the number of the new names, those under which some bag has a well-formed entry. -/
theorem merging_order_is_irrelevant (hheld : ∀ e ∈ es, v.canDecrypt e = true)
    (hagree : v.AgreeOnNewNames es) :
    ∃ (last : Vault) (names : List String), names.Nodup ∧
      (∀ name, name ∈ names ↔ v.hasKey name = false ∧
        ∃ e ∈ es, ∃ bag, v.Opens e bag ∧
          ∃ entry ∈ bag.keys, entry.name = name ∧ entry.material.Whole) ∧
      ∀ order : List Envelope, (∀ e, e ∈ order ↔ e ∈ es) →
        (v.installAll order).state = last ∧ (v.installAll order).result = .ok names.length := by
  obtain ⟨names, hnodup, hnames, hresult⟩ := exists_names_installAll hheld
  refine ⟨(v.installAll es).state, names, hnodup, fun name => ?_, fun order hsame => ?_⟩
  · rw [hnames, hasKey_installAll_iff hheld]
    refine and_congr_right fun hnew => ?_
    rw [hnew, or_iff_right Bool.false_ne_true]
  · have hstate := state_installAll_of_same_members hheld hagree hsame
    exact ⟨hstate, (result_installAll_of_state hstate).trans hresult⟩

/-- Two bags under the default key share a key, and one of them has an entry that is none. -/
theorem two_bags_merge_in_both_orders :
    let v := signedIn ⟨"example.org", "user", "password"⟩
    ∃ name k, v.find? name = some k ∧
      let one : KeyBag := ⟨[⟨"shared", k.components⟩, ⟨"broken", ⟨[], [], []⟩⟩]⟩
      let other : KeyBag := ⟨[⟨"own", k.components⟩, ⟨"shared", k.components⟩]⟩
      let d : Envelope := ⟨name, k.encrypt (.zero 12) (Json.encode one)⟩
      let e : Envelope := ⟨name, k.encrypt (.zero 12) (Json.encode other)⟩
      v.Opens d one ∧ v.Opens e other ∧ v.AgreeOnNewNames [d, e] ∧
        (v.installAll [d, e]).state = (v.installAll [e, d, e]).state ∧
        (v.installAll [d, e]).result = (v.installAll [e, d, e]).result := by
  intro v
  obtain ⟨k, -, hkey⟩ :=
    exists_defaultKey?_signedIn (c := ⟨"example.org", "user", "password"⟩) (by decide)
  have hfind := (defaultKey?_eq_some.1 hkey).2
  refine ⟨_, k, hfind, ?_⟩
  intro one other d e
  have hone : v.Opens d one := opens_encrypt hfind _ one
  have hother : v.Opens e other := opens_encrypt hfind _ other
  -- Whatever counts in one of the bags has the components of the one key.
  have honly : ∀ bag, bag = one ∨ bag = other → ∀ entry, bag.First entry →
      entry.material = k.components := by
    rintro bag hbag entry ⟨hwhole, past, later, hkeys, -⟩
    have hentry : entry ∈ bag.keys := hkeys ▸ List.mem_append_right past List.mem_cons_self
    have hentries : entry.material = k.components ∨ entry.material = ⟨[], [], []⟩ := by
      rcases hbag with rfl | rfl <;>
        rcases List.mem_cons.1 hentry with rfl | hentry <;>
        simp_all
    refine hentries.resolve_right fun hempty => ?_
    rw [hempty] at hwhole
    exact absurd hwhole.1 (by decide)
  have hopened : ∀ x ∈ [d, e], ∀ bag, v.Opens x bag → bag = one ∨ bag = other := by
    intro x hx bag hopens
    rcases List.mem_cons.1 hx with rfl | hx
    · exact Or.inl (hopens.unique hone)
    · exact Or.inr (hopens.unique (List.mem_singleton.1 hx ▸ hother))
  have hheld : ∀ x ∈ [d, e], v.canDecrypt x = true := by
    intro x hx
    rcases List.mem_cons.1 hx with rfl | hx
    · exact hasKey_iff.2 ⟨k, hfind⟩
    · exact hasKey_iff.2 ⟨k, List.mem_singleton.1 hx ▸ hfind⟩
  have hagree : v.AgreeOnNewNames [d, e] := by
    intro x hx y hy bag bag' hopens hopens' entry entry' hfirst hfirst' _ _
    rw [honly bag (hopened x hx bag hopens) entry hfirst,
      honly bag' (hopened y hy bag' hopens') entry' hfirst']
  obtain ⟨last, names, -, -, horder⟩ := merging_order_is_irrelevant hheld hagree
  obtain ⟨hstate, hresult⟩ := horder [d, e] fun _ => Iff.rfl
  obtain ⟨hstate', hresult'⟩ := horder [e, d, e] fun x => by simp [or_comm]
  exact ⟨hone, hother, hagree, hstate.trans hstate'.symm, hresult.trans hresult'.symm⟩

end Vault

end KeyVault
