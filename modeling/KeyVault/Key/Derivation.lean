import KeyVault.Hash.Argon2id
import KeyVault.Key

/-!
# Key derivation

A key from credentials: the account gives a salt, the password is stretched with it at a chosen
cost, and the stretched secret is expanded into the three components.

## Main definitions

- `Credentials` — host name, user name and password
- `Credentials.HasPassword` — with a password that a key can come from
- `StretchCost` — what stretching a password costs
- `saltInput`, `accountSalt` — the bytes that determine an account's salt, and the salt
- `Key.derive` — the key of credentials

## Design notes

The salt input gives each part behind its length, so that no two accounts share it.
-/

namespace KeyVault

/-- What a key is derived from. -/
structure Credentials where
  hostname : String
  username : String
  password : String
  deriving DecidableEq

/-- There is a password, and it is short enough to be stretched. -/
def Credentials.HasPassword (c : Credentials) : Prop :=
  c.password ≠ "" ∧ c.password.utf8ByteSize ≤ Argon2id.greatestPassword

instance (c : Credentials) : Decidable c.HasPassword := inferInstanceAs (Decidable (_ ∧ _))

/-- What stretching a password costs. -/
structure StretchCost where
  memory : UInt32
  passes : UInt32
  lanes : UInt32
  deriving DecidableEq

namespace StretchCost

def standard : StretchCost := ⟨19456, 2, 1⟩

/-- The least cost that is accepted. -/
def least : StretchCost := ⟨8, 1, 1⟩

/-- What is wrong with a cost. -/
def fault? (cost : StretchCost) : Option DerivationFault :=
  if cost.memory.toNat < 8 ∨ cost.memory.toNat < 8 * cost.lanes.toNat then some .littleMemory
  else if cost.passes = 0 then some .noPasses
  else if cost.lanes = 0 then some .noLanes
  else if cost.lanes > 0xffffff then some .manyLanes
  else none

/-- The secret of a password and a salt. -/
def stretch (cost : StretchCost) (password salt : Bytes) : Bytes :=
  Argon2id.digest ⟨cost.memory.toNat, cost.passes.toNat, cost.lanes.toNat⟩ componentSize password
    salt

end StretchCost

def saltSize : Nat := 16

/-- A text behind its length in bytes. -/
def framed (part : String) : Bytes :=
  Bytes.bigEndian 8 (Bytes.ofString part).length ++ Bytes.ofString part

/-- The bytes that determine an account's salt. -/
def saltInput (hostname username : String) : Bytes :=
  Bytes.ofString "keysync-nigori-salt-v1" ++ framed hostname ++ framed username

/-- The salt of an account. -/
def accountSalt (hostname username : String) : Bytes :=
  (Sha256.digest (saltInput hostname username)).bytes.take saltSize

namespace Key

/-- The key of credentials. That there is a password is checked before the cost, and its length only
when it is stretched. -/
def derive (cost : StretchCost) (c : Credentials) : Except KeyError Key :=
  if c.password = "" then .error (.derivation .emptyPassword)
  else
    match cost.fault? with
    | some fault => .error (.derivation fault)
    | none =>
      if Argon2id.greatestPassword < c.password.utf8ByteSize then
        .error (.derivation .longPassword)
      else
        let salt := accountSalt c.hostname c.username
        let master := Hkdf.extract salt (cost.stretch (Bytes.ofString c.password) salt)
        let part (label : String) := Hkdf.expand master (Bytes.ofString label)
        .ok
          { user := part "keysync-nigori-user-key"
            encryption := part "keysync-nigori-encryption-key"
            mac := part "keysync-nigori-mac-key" }

end Key

end KeyVault
