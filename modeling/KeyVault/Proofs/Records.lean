import KeyVault.Proofs.DataTypeSet
import KeyVault.Proofs.Json.Record
import KeyVault.Record.KeyBag
import KeyVault.Record.Node
import KeyVault.Record.Settings

/-!
# Exchanged records are read back

Every record that a vault writes, receives or stores is read back from its text. The nesting of each
is known, and far below the depth at which reading stops.
-/

namespace KeyVault

open Json Json.Record

theorem restores_bytes (b : Bytes) : Restores 1 b :=
  Restores.list fun n _ => restores_byte n

/-- A text field beside byte strings. -/
theorem restores_textField (s : String) : Restores 1 s := (restores_string s).mono (by decide)

/-! ### Keys -/

theorem fieldsRestored_keyMaterial : FieldsRestored 1 (Record.fields KeyMaterial) :=
  .cons restores_bytes <| .cons restores_bytes <| .cons restores_bytes .nil

theorem restores_keyMaterial (m : KeyMaterial) : Restores 2 m :=
  Record.restores (by decide) fieldsRestored_keyMaterial m

theorem fieldsRestored_keyEntry : FieldsRestored 1 (Record.fields KeyEntry) :=
  .cons restores_textField <| .cons restores_bytes <| .cons restores_bytes <|
    .cons restores_bytes .nil

theorem restores_keyEntry (e : KeyEntry) : Restores 2 e :=
  Record.restores (by decide) fieldsRestored_keyEntry e

theorem fieldsRestored_keyBag : FieldsRestored 3 (Record.fields KeyBag) :=
  .cons (fun _ => Restores.list fun e _ => restores_keyEntry e) .nil

theorem restores_keyBag (b : KeyBag) : Restores 4 b :=
  Record.restores (by decide) fieldsRestored_keyBag b

theorem fieldsRestored_envelope : FieldsRestored 1 (Record.fields Envelope) :=
  .cons restores_textField <| .cons restores_bytes .nil

theorem restores_envelope (e : Envelope) : Restores 2 e :=
  Record.restores (by decide) fieldsRestored_envelope e

/-! ### Settings -/

theorem fieldsRestored_credentials : FieldsRestored 0 (Record.fields Credentials) :=
  .cons restores_string <| .cons restores_string <| .cons restores_string .nil

theorem restores_credentials (c : Credentials) : Restores 1 c :=
  Record.restores (by decide) fieldsRestored_credentials c

theorem fieldsRestored_stretchCost : FieldsRestored 0 (Record.fields StretchCost) :=
  .cons restores_word <| .cons restores_word <| .cons restores_word .nil

theorem restores_stretchCost (c : StretchCost) : Restores 1 c :=
  Record.restores (by decide) fieldsRestored_stretchCost c

theorem fieldsRestored_settings : FieldsRestored 1 (Record.fields Settings) :=
  .cons restores_stretchCost <| .cons restores_textField <| .cons restores_textField <|
    .cons restores_textField .nil

theorem restores_settings (s : Settings) : Restores 2 s :=
  Record.restores (by decide) fieldsRestored_settings s

/-! ### Nodes -/

theorem fieldsRestored_node : FieldsRestored 2 (Record.fields Node) :=
  .cons restores_envelope <| .cons (fun s => (restores_dataTypeSet s).mono (by decide)) <|
    .cons (fun b => (restores_bool b).mono (by decide)) .nil

theorem restores_node (n : Node) : Restores 3 n :=
  Record.restores (by decide) fieldsRestored_node n

end KeyVault
