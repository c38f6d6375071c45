import KeyVault.Token

/-!
# Outcomes

What an operation on a vault gives: a result or an error, the next state, and the events that it
reports on the way.

## Main definitions

- `VaultError` — why an operation fails
- `Event` — what an operation reports, with its level and text
- `Outcome` — result, next state and events

## Design notes

Errors and events are causes; their texts are made from them in one place each. Only names, lengths
and causes go into a text, never the bytes of a key or a message.
-/

namespace KeyVault

/-- A state that callers of a vault have to rule out. -/
inductive InternalFault
  | protection (error : ProtectorError)
  | notABag
  | ownKeyMissing (name : String)
  deriving DecidableEq, Repr

/-- Why an operation on a vault fails. -/
inductive VaultError
  | notReady
  | keyNotFound (name : String)
  | noKeystoreKey
  | emptyKeystoreKey
  | noPendingKeys
  | incorrectCredentials
  | alreadyDecryptable (name : String)
  | invalidToken
  | noNodeHandler
  | internal (fault : InternalFault)
  | serialization (failure : Json.Failure)
  | crypto (error : KeyError)
  deriving DecidableEq, Repr

namespace InternalFault

def message : InternalFault → String
  | protection error => "encrypting bootstrap token failed: " ++ error.message
  | notABag => "pending keys are not a key bag"
  | ownKeyMissing name => "pending key bag does not contain key " ++ name

end InternalFault

namespace VaultError

def message : VaultError → String
  | notReady => "cryptographer not ready: no default key"
  | keyNotFound name => "no key named " ++ name ++ " in the key bag"
  | noKeystoreKey => "no keystore key installed"
  | emptyKeystoreKey => "keystore key is empty"
  | noPendingKeys => "no pending keys to decrypt"
  | incorrectCredentials => "pending keys could not be decrypted with the supplied credentials"
  | alreadyDecryptable name =>
    "key " ++ name ++ " is already in the key bag; install the bag instead"
  | invalidToken => "bootstrap token is invalid or unreadable"
  | noNodeHandler => "no nigori handler registered"
  | internal fault => "internal invariant violated: " ++ fault.message
  | serialization _ => "serialization error"
  | crypto error => "crypto error: " ++ error.message

end VaultError

/-- What an operation reports. -/
inductive Event
  | derivationFailed (error : KeyError)
  | keystoreDerivationFailed (error : KeyError)
  | installedKey (name : String)
  | alreadyInitialized
  | keystoreKeyHeld
  | tokenNotDecoded
  | tokenNotRevealed (error : ProtectorError)
  | tokenNotParsed
  | tokenUnusable (error : KeyError)
  | tokenNotProtected (error : ProtectorError)
  | bagUnderUnknownKey (name : String)
  | bagIgnored (error : VaultError)
  | entryMalformed (name : String) (error : KeyError)
  | bagMerged (installed total : Nat)
  | unknownDefault (name : String)
  | pendingReadable (name : String)
  | pendingReplaced (name : String)
  | pendingNotDecrypted (error : KeyError)
  | pendingNotABag
  | pendingOwnKeyMissing (name : String)
  | notReady
  | notSerialized
  | alreadyEncrypted
  | previousUnreadable (error : KeyError)
  | unknownKey (name : String)
  deriving DecidableEq, Repr

/-- How much an event matters. -/
inductive Level
  | error
  | warn
  | debug
  deriving DecidableEq, Repr

namespace Event

/-- The level of an event. -/
def level : Event → Level
  | derivationFailed _ | keystoreDerivationFailed _ | alreadyInitialized | keystoreKeyHeld
  | tokenUnusable _ | tokenNotProtected _ | bagUnderUnknownKey _ | unknownDefault _
  | pendingReadable _ | pendingNotABag | pendingOwnKeyMissing _ | notReady | notSerialized
  | unknownKey _ => .error
  | tokenNotDecoded | tokenNotRevealed _ | tokenNotParsed | entryMalformed _ _ => .warn
  | installedKey _ | bagIgnored _ | bagMerged _ _ | pendingReplaced _ | pendingNotDecrypted _
  | alreadyEncrypted | previousUnreadable _ => .debug

/-- The text of an event. -/
def text : Event → String
  | derivationFailed error => "failed to derive key from credentials: " ++ error.message
  | keystoreDerivationFailed error => "failed to derive keystore key: " ++ error.message
  | installedKey name => "installed key " ++ name
  | alreadyInitialized => "bootstrap called on an initialized cryptographer, ignoring"
  | keystoreKeyHeld => "keystore key already installed, ignoring bootstrap"
  | tokenNotDecoded => "could not decode bootstrap token"
  | tokenNotRevealed error => "decryption of bootstrap token failed: " ++ error.message
  | tokenNotParsed => "parsing of bootstrap token failed"
  | tokenUnusable error => "bootstrap token holds unusable key material: " ++ error.message
  | tokenNotProtected error => "encrypting bootstrap token failed: " ++ error.message
  | bagUnderUnknownKey name => "install_keys called with a bag under unknown key " ++ name
  | bagIgnored error => "ignoring key bag that failed to decrypt: " ++ error.message
  | entryMalformed name error =>
    "skipping malformed key " ++ name ++ " in bag: " ++ error.message
  | bagMerged installed total =>
    "installed " ++ toString installed ++ " of " ++ toString total ++ " keys from bag"
  | unknownDefault name => "set_default_key called with unknown key " ++ name
  | pendingReadable name => "set_pending_keys called with decryptable bag under " ++ name
  | pendingReplaced name => "replacing pending keys with bag under " ++ name
  | pendingNotDecrypted error =>
    "pending keys did not decrypt with supplied credentials: " ++ error.message
  | pendingNotABag => "decrypted pending keys are not a key bag"
  | pendingOwnKeyMissing name => "pending key bag does not contain its own key " ++ name
  | notReady => "cryptographer not ready, failed to encrypt"
  | notSerialized => "message failed to serialize"
  | alreadyEncrypted => "re-encryption unnecessary, encrypted data already matches"
  | previousUnreadable error => "previous blob unreadable, re-encrypting: " ++ error.message
  | unknownKey name => "cannot decrypt, no key named " ++ name

/-- What is reported of a token without a key; nothing if there is no token. -/
def ofTokenFault : Token.Fault → List Event
  | .absent => []
  | .encoding => [tokenNotDecoded]
  | .protection error => [tokenNotRevealed error]
  | .record _ => [tokenNotParsed]
  | .material error => [tokenUnusable error]

end Event

/-- What an operation gives. -/
structure Outcome (σ α : Type) where
  result : Except VaultError α
  state : σ
  events : List Event

end KeyVault
