import KeyVault.Proofs.Text.Base64
import KeyVault.Proofs.Vault.Sealing
import Mathlib.Logic.Function.Basic

/-!
# Fresh bytes on one host

All vaults and protectors of a host draw from one stream. Each nonce and each key of the machine is
the window of the stream that comes next, so that no byte is used twice; whatever gives nothing new
draws nothing.

## Main definitions

- `Product` — what is made from fresh bytes, and which of its bytes these are
- `Host`, `Host.Call` — vaults with their stream, and what can be asked of them and of protectors
- `Host.product?`, `Host.products` — what a call, or a run of calls, makes from fresh bytes
- `Draws` — a product has the next bytes, and without a product nothing is drawn
- `Operation.GivesNothingNew` — failures, kept envelopes, and operations that make nothing

## Main statements

- `Operation.draws_perform`, `Host.draws_perform` — one operation, one call
- `Host.fresh_bytes_are_consecutive` — the fresh bytes of every run

## Implementation notes

Products are found in what the calls give back, and not by looking at what has been drawn: a nonce
is the head of a blob, and the bytes of a token are decoded.
-/

namespace KeyVault

/-- What is made from fresh bytes. -/
inductive Product
  | blob (b : Bytes)
  | token (t : String)
  | localKey (key : Octets 32)

namespace Product

/-- The bytes of a product that have to be fresh: a nonce, or a whole key. -/
def fresh : Product → Bytes
  | blob b => b.take 12
  | token t => ((Base64.decode? t).getD []).take 12
  | localKey key => key.bytes

def size : Product → Nat
  | blob _ | token _ => 12
  | localKey _ => 32

/-- The number of bytes that some products have used up. -/
def total : List Product → Nat
  | [] => 0
  | p :: made => p.size + total made

theorem total_append (made later : List Product) :
    total (made ++ later) = total made + total later := by
  induction made with
  | nil => simp [total]
  | cons p made ih =>
    simp only [List.cons_append, total, ih]
    omega

end Product

/-- A product has the next bytes of the entropy, and without a product nothing is drawn. -/
inductive Draws (entropy : Entropy) : Option Product → Entropy → Prop
  | nothing : Draws entropy none entropy
  | next {p : Product} (hfresh : p.fresh = (entropy.draw p.size).1.bytes) :
    Draws entropy (some p) (entropy.draw p.size).2

theorem Draws.after_eq {entropy after : Entropy} {made : Option Product}
    (h : Draws entropy made after) :
    after = ⟨entropy.stream, entropy.position + Product.total made.toList⟩ := by
  cases h with
  | nothing | next => rfl

theorem Draws.fresh_eq {entropy after : Entropy} {p : Product} (h : Draws entropy (some p) after) :
    p.fresh = (List.range' entropy.position p.size).map entropy.stream := by
  cases h with
  | next hfresh => rw [hfresh, Entropy.bytes_draw]

/-! ### Protectors -/

/-- What a protector has made from fresh bytes. Only one with a key of the machine needs any. -/
def Protector.product? {α : Type} (p : Protector) (make : α → Product)
    (result : Except ProtectorError α) : Option Product :=
  match p with
  | localKey _ => result.toOption.map make
  | passthrough | platform _ _ => none

theorem Protector.draws_protect (p : Protector) (plain : Bytes) (entropy : Entropy) :
    Draws entropy (p.product? .blob (p.protect plain entropy).1) (p.protect plain entropy).2 := by
  cases p with
  | passthrough | platform => exact .nothing
  | localKey key => exact .next (p := .blob _) (Blob.take_encrypt key [] _ plain)

theorem Token.draws_write (p : Protector) (k : Key) (entropy : Entropy) :
    Draws entropy (p.product? .token (Token.write p k entropy).1) (Token.write p k entropy).2 := by
  cases p with
  | passthrough | platform => exact .nothing
  | localKey key =>
    refine .next (p := .token _) ?_
    simp only [Product.fresh, Base64.decode?_encode]
    exact Blob.take_encrypt key [] _ _

/-! ### Operations on a vault -/

namespace Operation

/-- The token that an operation exports. -/
def token? (op : Operation) (result : Except VaultError Answer) : Option String :=
  match op, result with
  | bootstrapToken, .ok (.token t) | keystoreToken, .ok (.token t) => some t
  | _, _ => none

/-- What an operation on a vault with some protector has made from fresh bytes: a new envelope, or
a token that is encrypted under a key of the machine. -/
def product? (op : Operation) (p : Protector) (result : Except VaultError Answer) :
    Option Product :=
  match op.sealed? result with
  | some e => some (.blob e.blob)
  | none => (op.token? result).bind fun t => p.product? .token (.ok t)

variable {op : Operation}

/-- An operation fails, gives back the earlier envelope, or neither encrypts nor exports. -/
def GivesNothingNew (op : Operation) (result : Except VaultError Answer) : Prop :=
  (∃ error, result = .error error) ∨
    (∃ e, op.earlier? = some (some e) ∧ result = .ok (.envelope e)) ∨
    op.earlier? = none ∧ op ≠ bootstrapToken ∧ op ≠ keystoreToken

theorem GivesNothingNew.product?_eq_none {result : Except VaultError Answer}
    (h : op.GivesNothingNew result) (p : Protector) : op.product? p result = none := by
  rcases h with ⟨error, rfl⟩ | ⟨e, hearlier, rfl⟩ | ⟨hearlier, hdefault, hkeystore⟩
  · cases op <;> rfl
  · cases op <;> simp_all [earlier?, product?, sealed?, token?]
  · cases op <;> simp_all [earlier?, product?, sealed?, token?]

theorem draws_of_earlier? {previous : Option Envelope} (hearlier : op.earlier? = some previous)
    (v : Vault) (entropy : Entropy) :
    Draws entropy (op.product? v.protector (op.perform v entropy).result)
      (op.perform v entropy).state.2 := by
  cases hsealed : op.sealed? (op.perform v entropy).result with
  | some e =>
    obtain ⟨k, plain, -, hblob, hstate⟩ := sealed?_eq_some hsealed
    rw [product?, hsealed, hstate]
    refine .next (p := .blob e.blob) ?_
    rw [Product.fresh, hblob]
    exact Blob.take_encrypt _ _ _ _
  | none =>
    rw [product?, hsealed, entropy_of_sealed?_eq_none hearlier hsealed]
    cases op with
    | encryptText | encryptBytes | getKeys => exact .nothing
    | _ => cases hearlier

theorem product?_token (htoken : op = bootstrapToken ∨ op = keystoreToken) (p : Protector)
    (result : Except VaultError String) :
    op.product? p (result.map .token)
      = result.toOption.bind fun t => p.product? .token (.ok t) := by
  rcases htoken with rfl | rfl <;> cases result <;> rfl

theorem draws_tokenOf (v : Vault) (k : Key) (entropy : Entropy) :
    Draws entropy
      ((v.tokenOf k entropy).result.toOption.bind fun t => v.protector.product? .token (.ok t))
      (v.tokenOf k entropy).state := by
  have hdraws := Token.draws_write v.protector k entropy
  rw [Vault.tokenOf]
  cases hwrite : Token.write v.protector k entropy with
  | mk written rest =>
    rw [hwrite] at hdraws
    cases written with
    | ok token => exact hdraws
    | error fault =>
      have hnone : v.protector.product? Product.token (.error fault) = none := by
        cases v.protector <;> rfl
      rw [hnone] at hdraws
      exact hdraws

theorem draws_perform (op : Operation) (v : Vault) (entropy : Entropy) :
    Draws entropy (op.product? v.protector (op.perform v entropy).result)
      (op.perform v entropy).state.2 := by
  cases op with
  | encryptText | encryptBytes | getKeys => exact draws_of_earlier? rfl v entropy
  | bootstrapToken =>
    change Draws entropy (product? _ _ ((v.bootstrapToken entropy).result.map _))
      (v.bootstrapToken entropy).state
    rw [product?_token (.inl rfl), Vault.bootstrapToken]
    cases v.defaultKey? with
    | none => exact .nothing
    | some named => exact draws_tokenOf v named.2 entropy
  | keystoreToken =>
    change Draws entropy (product? _ _ ((v.keystoreToken entropy).result.map _))
      (v.keystoreToken entropy).state
    rw [product?_token (.inr rfl), Vault.keystoreToken]
    cases v.keystoreKey? with
    | none => exact .nothing
    | some named => exact draws_tokenOf v named.2 entropy
  | _ => exact .nothing

end Operation

/-! ### A host -/

/-- Vaults that draw from one stream. -/
structure Host (ι : Type) where
  vaults : ι → Vault
  entropy : Entropy

namespace Host

/-- What is asked of a host: something of a vault, a new vault in place of an old one, a key of the
machine, and what is done with protectors apart from vaults. -/
inductive Call (ι : Type)
  | ask (i : ι) (op : Operation)
  | create (i : ι) (p : Protector) (settings : Settings)
  | generate
  | protect (p : Protector) (plain : Bytes)
  | writeToken (p : Protector) (k : Key)

variable {ι : Type} [DecidableEq ι]

def perform (h : Host ι) : Call ι → Host ι
  | .ask i op =>
    let (v, entropy) := (op.perform (h.vaults i) h.entropy).state
    ⟨Function.update h.vaults i v, entropy⟩
  | .create i p settings => { h with vaults := Function.update h.vaults i (.empty p settings) }
  | .generate => { h with entropy := (Protector.generate h.entropy).2 }
  | .protect p plain => { h with entropy := (p.protect plain h.entropy).2 }
  | .writeToken p k => { h with entropy := (Token.write p k h.entropy).2 }

/-- What a call makes from fresh bytes, as it is given back. -/
def product? (h : Host ι) : Call ι → Option Product
  | .ask i op =>
    op.product? (h.vaults i).protector (op.perform (h.vaults i) h.entropy).result
  | .create _ _ _ => none
  | .generate => some (.localKey (Protector.generate h.entropy).1)
  | .protect p plain => p.product? .blob (p.protect plain h.entropy).1
  | .writeToken p k => p.product? .token (Token.write p k h.entropy).1

def run (h : Host ι) (calls : List (Call ι)) : Host ι := calls.foldl perform h

/-- What a run makes from fresh bytes, in the order in which it is made. -/
def products (h : Host ι) : List (Call ι) → List Product
  | [] => []
  | call :: calls => (h.product? call).toList ++ (h.perform call).products calls

theorem draws_perform (h : Host ι) (call : Call ι) :
    Draws h.entropy (h.product? call) (h.perform call).entropy := by
  cases call with
  | ask i op => exact op.draws_perform (h.vaults i) h.entropy
  | create => exact .nothing
  | generate => exact .next (p := .localKey _) rfl
  | protect p plain => exact p.draws_protect plain h.entropy
  | writeToken p k => exact Token.draws_write p k h.entropy

/-! ### Runs -/

theorem entropy_run (h : Host ι) (calls : List (Call ι)) :
    (h.run calls).entropy
      = ⟨h.entropy.stream, h.entropy.position + Product.total (h.products calls)⟩ := by
  induction calls generalizing h with
  | nil => rfl
  | cons call calls ih =>
    change ((h.perform call).run calls).entropy = _
    rw [ih, (h.draws_perform call).after_eq, products, Product.total_append, Nat.add_assoc]

/-- The fresh bytes of a product follow those of all earlier ones. -/
theorem fresh_of_products {h : Host ι} {calls : List (Call ι)} {past later : List Product}
    {p : Product} (hmade : h.products calls = past ++ p :: later) :
    p.fresh = (List.range' (h.entropy.position + Product.total past) p.size).map
      h.entropy.stream := by
  induction calls generalizing h past with
  | nil => simp [products] at hmade
  | cons call calls ih =>
    have hdraws := h.draws_perform call
    have hafter := hdraws.after_eq
    rw [products] at hmade
    cases hfirst : h.product? call with
    | none =>
      rw [hfirst] at hafter hmade
      have hrest := ih hmade
      rw [hafter] at hrest
      exact hrest
    | some q =>
      rw [hfirst] at hdraws hafter hmade
      cases past with
      | nil =>
        obtain ⟨rfl, -⟩ := List.cons.inj hmade
        exact hdraws.fresh_eq
      | cons first past =>
        obtain ⟨rfl, hlater⟩ := List.cons.inj hmade
        have hrest := ih hlater
        rw [hafter] at hrest
        simpa [Product.total, Nat.add_assoc] using hrest

/-- The nonces of all new blobs and tokens and all new keys of the machine are consecutive windows
of the stream, from its first byte on and in the order in which they are made: each one starts where
the ones before it end, and the run has used nothing else. A call that makes nothing new draws
nothing. So it is with failures, with earlier envelopes that are given back, and with everything but
encryption and export. -/
theorem fresh_bytes_are_consecutive (vaults : ι → Vault) (stream : Nat → UInt8)
    (calls : List (Call ι)) :
    let start : Host ι := ⟨vaults, ⟨stream, 0⟩⟩
    let made := start.products calls
    (∀ past p later, made = past ++ p :: later →
      p.fresh = (List.range' (Product.total past) p.size).map stream) ∧
    (start.run calls).entropy = ⟨stream, Product.total made⟩ ∧
    (∀ (h : Host ι) (call : Call ι), h.product? call = none →
      (h.perform call).entropy = h.entropy) ∧
    ∀ (h : Host ι) (i : ι) (op : Operation),
      op.GivesNothingNew (op.perform (h.vaults i) h.entropy).result →
      (h.perform (.ask i op)).entropy = h.entropy := by
  intro start made
  have hnothing : ∀ (h : Host ι) (call : Call ι), h.product? call = none →
      (h.perform call).entropy = h.entropy := by
    intro h call hnone
    have hafter := (h.draws_perform call).after_eq
    rw [hnone] at hafter
    exact hafter
  refine ⟨fun past p later hmade => ?_, ?_, hnothing, fun h i op hnew => ?_⟩
  · have hfresh := fresh_of_products hmade
    rw [Nat.zero_add] at hfresh
    exact hfresh
  · rw [entropy_run, Nat.zero_add]
  · exact hnothing h (.ask i op) (hnew.product?_eq_none (h.vaults i).protector)

end Host

end KeyVault
