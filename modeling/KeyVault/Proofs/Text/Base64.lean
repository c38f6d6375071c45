import KeyVault.Text.Base64

/-!
# Base64 texts are read back

An encoded text is read group by group: the digits of a group make up the number that its bytes make
up, and only the last group has padding. No other text is read at all: a group that is read is the
written form of its bytes, since the bits that belong to no byte have to be zero.

## Main statements

- `Base64.decode?_encode` — what has been encoded is decoded again
- `Base64.decode?_eq_some_iff` — and nothing else is
- `Base64.encode_injective` — so different bytes have different texts
-/

namespace KeyVault

namespace Base64

/-! ### Digits -/

theorem value?_digit {n : Nat} (h : n < 64) : value? (digit n) = some n := by
  revert n
  decide

theorem digit_ne_padding {n : Nat} (h : n < 64) : digit n ≠ '=' := by
  revert n
  decide

theorem digit_of_value? {c : Char} {n : Nat} (h : value? c = some n) : n < 64 ∧ digit n = c := by
  -- The cases are the ranges of the alphabet.
  have hchar : Char.ofNat c.toNat = c := Char.ofNat_toNat c
  revert h
  fun_cases value? c with
  | case1 hc =>
    rintro ⟨⟩
    have hback : 65 + (c.toNat - 65) = c.toNat := by omega
    rw [digit, if_pos (by omega), hback]
    exact ⟨by omega, hchar⟩
  | case2 _ hc =>
    rintro ⟨⟩
    have hback : 71 + (c.toNat - 71) = c.toNat := by omega
    rw [digit, if_neg (by omega), if_pos (by omega), hback]
    exact ⟨by omega, hchar⟩
  | case3 _ _ hc =>
    rintro ⟨⟩
    have hback : c.toNat + 4 - 4 = c.toNat := by omega
    rw [digit, if_neg (by omega), if_neg (by omega), if_pos (by omega), hback]
    exact ⟨by omega, hchar⟩
  | case4 _ _ _ hc =>
    rintro ⟨⟩
    exact ⟨by decide, hc.symm⟩
  | case5 _ _ _ _ hc =>
    rintro ⟨⟩
    exact ⟨by decide, hc.symm⟩
  | case6 => rintro ⟨⟩

/-! ### Groups -/

/-- A byte is what the number that holds it leaves modulo 256. -/
theorem toUInt8_eq {n : Nat} {a : UInt8} (h : n % 256 = a.toNat) : n.toUInt8 = a := by
  apply UInt8.toNat_inj.1
  rw [← h]
  rfl

theorem oneByte?_digit (a : UInt8) :
    oneByte? (digit (a.toNat * 16 / 64)) (digit (a.toNat * 16 % 64)) = some [a] := by
  have ha := a.toNat_lt
  have hwhole : a.toNat * 16 / 64 * 64 + a.toNat * 16 % 64 = a.toNat * 16 := by omega
  have hbyte : (a.toNat * 16 / 16).toUInt8 = a := toUInt8_eq (by omega)
  rw [oneByte?, value?_digit (by omega), value?_digit (by omega)]
  simp only [bind, Option.bind, hwhole, hbyte]
  rw [if_pos (by omega)]

theorem twoBytes?_digit (a b : UInt8) {n : Nat} (hn : n = (a.toNat * 256 + b.toNat) * 4) :
    twoBytes? (digit (n / 4096)) (digit (n / 64 % 64)) (digit (n % 64)) = some [a, b] := by
  have ha := a.toNat_lt
  have hb := b.toNat_lt
  have hwhole : (n / 4096 * 64 + n / 64 % 64) * 64 + n % 64 = n := by omega
  have hfirst : (n / 1024).toUInt8 = a := toUInt8_eq (by omega)
  have hsecond : (n / 4).toUInt8 = b := toUInt8_eq (by omega)
  rw [twoBytes?, value?_digit (by omega), value?_digit (by omega), value?_digit (by omega)]
  simp only [bind, Option.bind, hwhole, hfirst, hsecond]
  rw [if_pos (by omega)]

theorem threeBytes?_digit (a b c : UInt8) {n : Nat}
    (hn : n = (a.toNat * 256 + b.toNat) * 256 + c.toNat) :
    threeBytes? (digit (n / 262144)) (digit (n / 4096 % 64)) (digit (n / 64 % 64)) (digit (n % 64))
      = some [a, b, c] := by
  have ha := a.toNat_lt
  have hb := b.toNat_lt
  have hc := c.toNat_lt
  have hwhole : ((n / 262144 * 64 + n / 4096 % 64) * 64 + n / 64 % 64) * 64 + n % 64 = n := by
    omega
  have hfirst : (n / 65536).toUInt8 = a := toUInt8_eq (by omega)
  have hsecond : (n / 256).toUInt8 = b := toUInt8_eq (by omega)
  have hthird : n.toUInt8 = c := toUInt8_eq (by omega)
  rw [threeBytes?, value?_digit (by omega), value?_digit (by omega), value?_digit (by omega),
    value?_digit (by omega)]
  simp only [bind, Option.bind, hwhole, hfirst, hsecond, hthird]

/-- A group that is read is the written form of its byte. -/
theorem encodeChars_of_oneByte? {w x : Char} {group : Bytes} (h : oneByte? w x = some group) :
    [w, x, '=', '='] = encodeChars group := by
  simp only [oneByte?, bind, Option.bind_eq_some_iff] at h
  obtain ⟨i, hw, j, hx, h⟩ := h
  obtain ⟨hi, rfl⟩ := digit_of_value? hw
  obtain ⟨hj, rfl⟩ := digit_of_value? hx
  split at h
  next hrest =>
    obtain rfl := Option.some.inj h
    have hbyte : ((i * 64 + j) / 16).toUInt8.toNat = (i * 64 + j) / 16 :=
      Nat.mod_eq_of_lt (by omega)
    have hfirst : (i * 64 + j) / 16 * 16 / 64 = i := by omega
    have hsecond : (i * 64 + j) / 16 * 16 % 64 = j := by omega
    simp only [encodeChars, hbyte, hfirst, hsecond]
  next => cases h

theorem encodeChars_of_twoBytes? {w x y : Char} {group : Bytes}
    (h : twoBytes? w x y = some group) : [w, x, y, '='] = encodeChars group := by
  simp only [twoBytes?, bind, Option.bind_eq_some_iff] at h
  obtain ⟨i, hw, j, hx, k, hy, h⟩ := h
  obtain ⟨hi, rfl⟩ := digit_of_value? hw
  obtain ⟨hj, rfl⟩ := digit_of_value? hx
  obtain ⟨hk, rfl⟩ := digit_of_value? hy
  obtain ⟨n, hn⟩ : ∃ n, n = (i * 64 + j) * 64 + k := ⟨_, rfl⟩
  rw [← hn] at h
  split at h
  next hrest =>
    obtain rfl := Option.some.inj h
    have ha : (n / 1024).toUInt8.toNat = n / 1024 := Nat.mod_eq_of_lt (by omega)
    have hb : (n / 4).toUInt8.toNat = n / 4 % 256 := rfl
    have hwhole : (n / 1024 * 256 + n / 4 % 256) * 4 = n := by omega
    have hfirst : n / 4096 = i := by omega
    have hsecond : n / 64 % 64 = j := by omega
    have hthird : n % 64 = k := by omega
    simp only [encodeChars, ha, hb, hwhole, hfirst, hsecond, hthird]
  next => cases h

theorem encodeChars_of_threeBytes? {w x y z : Char} {group rest : Bytes}
    (h : threeBytes? w x y z = some group) :
    w :: x :: y :: z :: encodeChars rest = encodeChars (group ++ rest) := by
  simp only [threeBytes?, bind, Option.bind_eq_some_iff] at h
  obtain ⟨i, hw, j, hx, k, hy, l, hz, h⟩ := h
  obtain ⟨hi, rfl⟩ := digit_of_value? hw
  obtain ⟨hj, rfl⟩ := digit_of_value? hx
  obtain ⟨hk, rfl⟩ := digit_of_value? hy
  obtain ⟨hl, rfl⟩ := digit_of_value? hz
  obtain ⟨n, hn⟩ : ∃ n, n = ((i * 64 + j) * 64 + k) * 64 + l := ⟨_, rfl⟩
  rw [← hn] at h
  obtain rfl := Option.some.inj h
  have ha : (n / 65536).toUInt8.toNat = n / 65536 := Nat.mod_eq_of_lt (by omega)
  have hb : (n / 256).toUInt8.toNat = n / 256 % 256 := rfl
  have hc : n.toUInt8.toNat = n % 256 := rfl
  have hwhole : (n / 65536 * 256 + n / 256 % 256) * 256 + n % 256 = n := by omega
  have hfirst : n / 262144 = i := by omega
  have hsecond : n / 4096 % 64 = j := by omega
  have hthird : n / 64 % 64 = k := by omega
  have hfourth : n % 64 = l := by omega
  simp only [List.cons_append, List.nil_append, encodeChars, ha, hb, hc, hwhole, hfirst, hsecond,
    hthird, hfourth]

/-! ### Texts -/

/-- A group without padding is a full one, wherever it stands. -/
theorem decodeChars?_full {w x y z : Char} {rest : List Char} (hz : z ≠ '=') :
    decodeChars? (w :: x :: y :: z :: rest) = (do
      let group ← threeBytes? w x y z
      let bytes ← decodeChars? rest
      some (group ++ bytes)) := by
  rw [decodeChars?]
  · intro _ hpadding _
    exact hz hpadding
  · intro hpadding _
    exact hz hpadding

theorem decodeChars?_twoBytes {w x y : Char} (hy : y ≠ '=') :
    decodeChars? [w, x, y, '='] = twoBytes? w x y := by
  rw [decodeChars?]
  exact hy

theorem decodeChars?_encodeChars (b : Bytes) : decodeChars? (encodeChars b) = some b := by
  -- The cases are those of the encoder: nothing, one or two last bytes, and a group of three.
  induction b using encodeChars.induct with
  | case1 => rfl
  | case2 a => exact oneByte?_digit a
  | case3 a b =>
    have hdigit : digit ((a.toNat * 256 + b.toNat) * 4 % 64) ≠ '=' :=
      digit_ne_padding (Nat.mod_lt _ (by decide))
    exact (decodeChars?_twoBytes hdigit).trans (twoBytes?_digit a b rfl)
  | case4 a b c rest ih =>
    have hdigit : digit (((a.toNat * 256 + b.toNat) * 256 + c.toNat) % 64) ≠ '=' :=
      digit_ne_padding (Nat.mod_lt _ (by decide))
    rw [encodeChars, decodeChars?_full hdigit, threeBytes?_digit a b c rfl, ih]
    rfl

/-- Only what has been encoded is decoded. -/
theorem encodeChars_of_decodeChars? {cs : List Char} {b : Bytes} (h : decodeChars? cs = some b) :
    cs = encodeChars b := by
  -- The cases are those of the decoder: nothing, a last group with padding, and a full group.
  fun_induction decodeChars? cs generalizing b with
  | case1 =>
    obtain rfl := Option.some.inj h
    rfl
  | case2 w x => exact encodeChars_of_oneByte? h
  | case3 w x y => exact encodeChars_of_twoBytes? h
  | case4 w x y z rest _ _ ih =>
    simp only [bind, Option.bind_eq_some_iff] at h
    obtain ⟨group, hgroup, bytes, hbytes, h⟩ := h
    obtain rfl := Option.some.inj h
    rw [ih hbytes]
    exact encodeChars_of_threeBytes? hgroup
  | case5 => cases h

/-- What has been encoded is decoded again. -/
theorem decode?_encode (b : Bytes) : decode? (encode b) = some b := by
  rw [decode?, encode, String.toList_ofList, decodeChars?_encodeChars]

/-- A text is decoded exactly if it has been encoded, so a byte string has one text only. -/
theorem decode?_eq_some_iff {s : String} {b : Bytes} : decode? s = some b ↔ s = encode b := by
  constructor
  · intro h
    rw [encode, ← encodeChars_of_decodeChars? h, String.ofList_toList]
  · rintro rfl
    exact decode?_encode b

-- No padding, bits that are not zero, a blank, and the digits of the alphabet for file names.
example : ["+/8=", "+/8", "+/9=", "+/8= ", "-_8="].map decode?
    = [some [251, 255], none, none, none, none] := by decide

theorem encode_injective {a b : Bytes} (h : encode a = encode b) : a = b := by
  have ha := decode?_encode a
  rw [h, decode?_encode] at ha
  exact (Option.some.inj ha).symm

theorem encode_ne_empty {b : Bytes} (h : b ≠ []) : encode b ≠ "" := by
  intro hempty
  have hdecode := decode?_encode b
  rw [hempty] at hdecode
  exact h (Option.some.inj hdecode).symm

end Base64

end KeyVault
