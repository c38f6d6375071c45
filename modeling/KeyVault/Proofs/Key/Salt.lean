import KeyVault.Key.Derivation

/-!
# Accounts and their salts

The bytes that determine a salt give each part of an account behind its length. Whoever reads them
knows where each part ends, so different accounts have different bytes, and only the hash of these
bytes can bring two salts together.

## Main definitions

- `SaltCollision` — different bytes whose hashes begin alike

## Main statements

- `framed_append_inj` — a text behind its length ends where its length says
- `accounts_determine_salt_inputs` — accounts are told apart before hashing, whatever their names
-/

namespace KeyVault

variable {hostname username hostname' username' : String}

/-- A text behind its length ends where its length says, whatever stands behind it. -/
theorem framed_append_inj {a b : String} {s t : Bytes} (ha : a.utf8ByteSize < UInt64.size)
    (hb : b.utf8ByteSize < UInt64.size) : framed a ++ s = framed b ++ t ↔ a = b ∧ s = t := by
  constructor
  · intro h
    rw [framed, framed, List.append_assoc, List.append_assoc] at h
    have hwidth : (Bytes.bigEndian 8 (Bytes.ofString a).length).length
        = (Bytes.bigEndian 8 (Bytes.ofString b).length).length := by
      rw [Bytes.length_bigEndian, Bytes.length_bigEndian]
    obtain ⟨hframe, hbody⟩ := List.append_inj h hwidth
    -- The lengths can be read back from their eight bytes, and say where the texts end.
    have hlength : (Bytes.ofString a).length = (Bytes.ofString b).length := by
      rw [← Bytes.length_ofString] at ha hb
      exact (Bytes.bigEndian_inj ha hb).1 hframe
    obtain ⟨htext, hrest⟩ := List.append_inj hbody hlength
    exact ⟨Bytes.ofString_injective htext, hrest⟩
  · rintro ⟨rfl, rfl⟩
    rfl

theorem saltInput_inj (hhost : hostname.utf8ByteSize < UInt64.size)
    (huser : username.utf8ByteSize < UInt64.size) (hhost' : hostname'.utf8ByteSize < UInt64.size)
    (huser' : username'.utf8ByteSize < UInt64.size) :
    saltInput hostname username = saltInput hostname' username' ↔
      hostname = hostname' ∧ username = username' := by
  have hlast : framed username = framed username' ↔ username = username' := by
    simpa using framed_append_inj (s := []) (t := []) huser huser'
  rw [saltInput, saltInput, List.append_assoc, List.append_assoc, List.append_cancel_left_eq,
    framed_append_inj hhost hhost', hlast]

/-- Different bytes whose hashes begin with the same bytes, as many as a salt has. -/
def SaltCollision (s t : Bytes) : Prop :=
  s ≠ t ∧ (Sha256.digest s).bytes.take saltSize = (Sha256.digest t).bytes.take saltSize

/-- The bytes that determine the salts of two accounts are the same only if host and user names are,
as long as these are shorter than 2^64 bytes. So two accounts share a salt exactly if they are the
same account, or else their bytes differ and collide under the shortened hash. -/
theorem accounts_determine_salt_inputs (hhost : hostname.utf8ByteSize < UInt64.size)
    (huser : username.utf8ByteSize < UInt64.size) (hhost' : hostname'.utf8ByteSize < UInt64.size)
    (huser' : username'.utf8ByteSize < UInt64.size) :
    (saltInput hostname username = saltInput hostname' username' ↔
      hostname = hostname' ∧ username = username') ∧
    (accountSalt hostname username = accountSalt hostname' username' ↔
      (hostname = hostname' ∧ username = username') ∨
        SaltCollision (saltInput hostname username) (saltInput hostname' username')) := by
  have hinput := saltInput_inj hhost huser hhost' huser'
  refine ⟨hinput, ?_⟩
  constructor
  · intro hsalt
    by_cases hsame : saltInput hostname username = saltInput hostname' username'
    · exact .inl (hinput.1 hsame)
    · exact .inr ⟨hsame, hsalt⟩
  · rintro (⟨rfl, rfl⟩ | ⟨-, hcollide⟩)
    · rfl
    · exact hcollide

/-- A name that looks like a text behind its length, as the host name and as the user name. -/
theorem imitated_length_is_told_apart :
    let name := "\x00\x00\x00\x00\x00\x00\x00\x01a"
    name.utf8ByteSize < UInt64.size ∧ "".utf8ByteSize < UInt64.size ∧
      saltInput name "" ≠ saltInput "" name ∧
      (accountSalt name "" = accountSalt "" name ↔
        SaltCollision (saltInput name "") (saltInput "" name)) := by
  intro name
  have hname : name.utf8ByteSize < UInt64.size := by decide
  have hempty : "".utf8ByteSize < UInt64.size := by decide
  obtain ⟨hinput, hsalt⟩ := accounts_determine_salt_inputs hname hempty hempty hname
  have hdiffer : ¬ (name = "" ∧ "" = name) := by decide
  refine ⟨hname, hempty, fun hsame => hdiffer (hinput.1 hsame), ?_⟩
  rw [hsalt, or_iff_right hdiffer]

end KeyVault
