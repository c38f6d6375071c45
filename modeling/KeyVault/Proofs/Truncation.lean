import KeyVault.Proofs.Json.Delimited
import KeyVault.Proofs.Token
import KeyVault.Proofs.Vault.Transfer

/-!
# Records that are cut off or go on

The text of an exchanged record is never taken for another record when bytes are missing at its end
or follow behind it. So a token or a bag that has been cut off is refused, and changes nothing.

## Main statements

- `delimited_keyBag` and its kin — the texts of exchanged records show where they end
- `Token.read_of_cut` — a token of a record that is cut off
- `Vault.installKeys_of_cut`, `Vault.decryptPendingKeys_of_cut` — a bag that is cut off
- `records_show_where_they_end` — all of it
-/

namespace KeyVault

open Json Json.Record

variable {part : Bytes}

/-! ### Fields -/

theorem starves_dataType (t : DataType) : Starves 0 t := by
  intro limits _ part h _
  left
  rcases Text.cut_write_cases h with rfl | ⟨rest, rfl, hrest⟩
  · rfl
  · change DataType.read limits (Bytes.ascii '"' :: rest) = _
    rw [DataType.read, skipBlanks_cons (by decide)]
    simp only [if_true, Text.read_of_cut hrest]
    rfl

theorem delimited_bytes (b : Bytes) : Delimited 1 b :=
  delimited_list (fun n _ => restores_byte n) fun n _ => starves_byte n

theorem starves_bytes (b : Bytes) : Starves 1 b := (delimited_bytes b).starves

theorem starves_textField (s : String) : Starves 1 s := (starves_string s).mono (by decide)

/-! ### Records -/

theorem delimited_keyMaterial (m : KeyMaterial) : Delimited 2 m :=
  Record.delimited (by decide) fieldsRestored_keyMaterial
    (.cons starves_bytes <| .cons starves_bytes <| .cons starves_bytes .nil) m

theorem delimited_keyEntry (e : KeyEntry) : Delimited 2 e :=
  Record.delimited (by decide) fieldsRestored_keyEntry (.cons starves_textField <|
    .cons starves_bytes <| .cons starves_bytes <| .cons starves_bytes .nil) e

theorem delimited_keyBag (b : KeyBag) : Delimited 4 b :=
  Record.delimited (by decide) fieldsRestored_keyBag
    (.cons (fun _ => (delimited_list (fun e _ => restores_keyEntry e)
      fun e _ => (delimited_keyEntry e).starves).starves) .nil) b

theorem delimited_envelope (e : Envelope) : Delimited 2 e :=
  Record.delimited (by decide) fieldsRestored_envelope
    (.cons starves_textField <| .cons starves_bytes .nil) e

theorem delimited_credentials (c : Credentials) : Delimited 1 c :=
  Record.delimited (by decide) fieldsRestored_credentials
    (.cons starves_string <| .cons starves_string <| .cons starves_string .nil) c

theorem delimited_stretchCost (c : StretchCost) : Delimited 1 c :=
  Record.delimited (by decide) fieldsRestored_stretchCost
    (.cons starves_word <| .cons starves_word <| .cons starves_word .nil) c

theorem delimited_settings (s : Settings) : Delimited 2 s :=
  Record.delimited (by decide) fieldsRestored_settings
    (.cons (fun c => (delimited_stretchCost c).starves) <| .cons starves_textField <|
      .cons starves_textField <| .cons starves_textField .nil) s

theorem delimited_dataTypeSet (s : DataTypeSet) : Delimited 1 s := by
  have hlist : Delimited 1 s.toList :=
    delimited_list (fun t _ => restores_dataType t) fun t _ => starves_dataType t
  refine ⟨fun limits hdepth hsize rest => ?_, fun limits hdepth part hcut hsize => ?_⟩
  · rw [DataTypeSet.read_eq, DataTypeSet.write_eq, hlist.reads limits hdepth hsize rest]
    simp only [bind, Except.bind, DataTypeSet.ofList_toList]
    rfl
  · rw [DataTypeSet.read_eq, hlist.ended limits hdepth part hcut hsize]
    rfl

theorem delimited_node (n : Node) : Delimited 3 n :=
  Record.delimited (by decide) fieldsRestored_node
    (.cons (fun e => (delimited_envelope e).starves) <|
      .cons (fun s => (delimited_dataTypeSet s).starves.mono (by decide)) <|
      .cons (fun b => (starves_bool b).mono (by decide)) .nil) n

/-! ### Tokens -/

/-- A token of a record that is cut off has no key. -/
theorem Token.read_of_cut {p : Protector} {m : KeyMaterial} {stored : Bytes}
    (hcut : Cut part (encode m)) (hreveal : p.reveal stored = .ok part) :
    (Token.read p (Base64.encode stored)).toOption = none := by
  have hdecode := (delimited_keyMaterial m).decode_of_cut (by decide) hcut
  cases hread : Token.read p (Base64.encode stored) with
  | error fault => rfl
  | ok k =>
    obtain ⟨stored', plain, hsame, hreveal', hplain⟩ := Token.exists_stored_of_read hread
    obtain rfl : stored' = stored := Base64.encode_injective hsame.symm
    obtain rfl : plain = part := Except.ok.inj (hreveal'.symm.trans hreveal)
    cases hplain.symm.trans hdecode

/-! ### Bags -/

namespace Vault

variable {v : Vault} {e : Envelope} {bag : KeyBag} {k : Key}

theorem decode_ne_of_cut (h : Cut part (encode bag)) (other : KeyBag) :
    Json.decode part ≠ .ok other := by
  rw [(delimited_keyBag bag).decode_of_cut (by decide) h]
  nofun

/-- A bag that is cut off is passed over. -/
theorem installKeys_of_cut (hfind : v.find? e.keyName = some k)
    (hopen : k.decrypt e.blob = .ok part) (hcut : Cut part (encode bag)) :
    (v.installKeys e).result = .ok 0 ∧ (v.installKeys e).state = v := by
  rcases v.installKeys_cases e with ⟨other, ⟨held, hheld, plain, hplain, hdecode⟩, -⟩ | ⟨-, hstays⟩
  · obtain rfl : held = k := Option.some.inj (hheld.symm.trans hfind)
    obtain rfl : plain = part := Except.ok.inj (hplain.symm.trans hopen)
    exact absurd hdecode (decode_ne_of_cut hcut other)
  · exact hstays

/-- A pending bag that is cut off stays pending. -/
theorem decryptPendingKeys_of_cut {c : Credentials} (hpending : v.pending = some e)
    (hderive : v.derive c = .ok k) (hopen : k.decrypt e.blob = .ok part)
    (hcut : Cut part (encode bag)) :
    (v.decryptPendingKeys c).result = .error (.internal .notABag) ∧
      (v.decryptPendingKeys c).state = v :=
  (Verdict.noBag hpending hderive hopen (decode_ne_of_cut hcut)).eq

end Vault

/-- The text of an exchanged record is refused for its end if bytes are missing there, and for what
follows if this is not blank. So a token with a part of a record has no key, and a bag of which only
a part has been sealed is passed over, or stays pending, and changes nothing. -/
theorem records_show_where_they_end :
    (SelfDelimiting Envelope ∧ SelfDelimiting Credentials ∧ SelfDelimiting KeyEntry ∧
      SelfDelimiting KeyBag ∧ SelfDelimiting KeyMaterial ∧ SelfDelimiting Node ∧
      SelfDelimiting DataTypeSet ∧ SelfDelimiting StretchCost ∧ SelfDelimiting Settings) ∧
    (∀ (p : Protector) (m : KeyMaterial) part, Cut part (encode m) →
      (∀ stored, p.reveal stored = .ok part →
        (Token.read p (Base64.encode stored)).toOption = none) ∧
      (p.Reliable → ∀ entropy, ∃ stored, (p.protect part entropy).1 = .ok stored ∧
        (Token.read p (Base64.encode stored)).toOption = none)) ∧
    (∀ (v : Vault) e k (bag : KeyBag) part, v.find? e.keyName = some k →
      k.decrypt e.blob = .ok part → Cut part (encode bag) →
      (v.installKeys e).result = .ok 0 ∧ (v.installKeys e).state = v) ∧
    ∀ (v : Vault) c e k (bag : KeyBag) part, v.pending = some e → v.derive c = .ok k →
      k.decrypt e.blob = .ok part → Cut part (encode bag) →
      (v.decryptPendingKeys c).result = .error (.internal .notABag) ∧
        (v.decryptPendingKeys c).state = v := by
  refine ⟨⟨?_, ?_, ?_, ?_, ?_, ?_, ?_, ?_, ?_⟩, fun p m part hcut => ⟨fun stored hreveal => ?_,
    fun hreliable entropy => ?_⟩, fun v e k bag part hfind hopen hcut => ?_,
    fun v c e k bag part hpending hderive hopen hcut => ?_⟩
  · exact selfDelimiting delimited_envelope (by decide)
  · exact selfDelimiting delimited_credentials (by decide)
  · exact selfDelimiting delimited_keyEntry (by decide)
  · exact selfDelimiting delimited_keyBag (by decide)
  · exact selfDelimiting delimited_keyMaterial (by decide)
  · exact selfDelimiting delimited_node (by decide)
  · exact selfDelimiting delimited_dataTypeSet (by decide)
  · exact selfDelimiting delimited_stretchCost (by decide)
  · exact selfDelimiting delimited_settings (by decide)
  · exact Token.read_of_cut hcut hreveal
  · obtain ⟨stored, hprotect, hreveal⟩ := hreliable part entropy
    exact ⟨stored, hprotect, Token.read_of_cut hcut hreveal⟩
  · exact Vault.installKeys_of_cut hfind hopen hcut
  · exact Vault.decryptPendingKeys_of_cut hpending hderive hopen hcut

/-- An envelope that ends inside of an escape or goes on, a token that ends behind a colon, and a
bag that ends in front of its brackets. -/
theorem cut_bag_changes_nothing :
    let e : Envelope := ⟨"\n", []⟩
    let part := Bytes.ofString "\x7b\"key_name\":\"\\"
    let record := Bytes.ofString "\x7b\"user_key\":"
    let bag := Bytes.ofString "\x7b\"keys\":["
    let v := Vault.signedIn ⟨"example.org", "user", "password"⟩
    Cut part (encode e) ∧ Cut record (encode (⟨[], [], []⟩ : KeyMaterial)) ∧
      Cut bag (encode (⟨[]⟩ : KeyBag)) ∧
      (decode part : Except Failure Envelope).mapError Failure.category = .error "eof" ∧
      decode (encode e ++ [0x20, 0x0a]) = .ok e ∧
      (decode (encode e ++ [0x20, 0x35]) : Except Failure Envelope).mapError Failure.category
        = .error "syntax" ∧
      (Token.read .passthrough (Base64.encode record)).toOption = none ∧
      ∃ name k, v.find? name = some k ∧
        let sealed : Envelope := ⟨name, k.encrypt (.zero 12) bag⟩
        (v.installKeys sealed).result = .ok 0 ∧ (v.installKeys sealed).state = v := by
  intro e part record bag v
  have hpart : Cut part (encode e) := ⟨Bytes.ofString "n\",\"blob\":[]\x7d", by decide, by decide⟩
  have hrecord : Cut record (encode (⟨[], [], []⟩ : KeyMaterial)) :=
    ⟨Bytes.ofString "[],\"encryption_key\":[],\"mac_key\":[]\x7d", by decide, by decide⟩
  have hbag : Cut bag (encode (⟨[]⟩ : KeyBag)) :=
    ⟨Bytes.ofString "]\x7d", by decide, by decide⟩
  obtain ⟨⟨henvelope, -⟩, htokens, hbags, -⟩ := records_show_where_they_end
  obtain ⟨hcut, hblank, hmore⟩ := henvelope e
  obtain ⟨k, -, hkey⟩ :=
    Vault.exists_defaultKey?_signedIn (c := ⟨"example.org", "user", "password"⟩) (by decide)
  have hfind := (Vault.defaultKey?_eq_some.1 hkey).2
  refine ⟨hpart, hrecord, hbag, hcut part hpart, hblank _ (by decide), hmore _ (by decide),
    (htokens .passthrough _ record hrecord).1 record rfl, _, k, hfind, ?_⟩
  exact hbags v _ k ⟨[]⟩ bag hfind (k.decrypt_encrypt _ _) hbag

end KeyVault
