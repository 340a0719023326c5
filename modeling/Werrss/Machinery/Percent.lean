import Werrss.Machinery.Std

/-!
# Machinery/Percent — UTF-8, percent-encoding and form decoding

    text ──asBytes──▸ bytes ──percentDecode──▸ bytes ──fromUtf8──▸ text
      c   or   %hi lo   ──────────────────────▸   c

A text is *spelled* when any of its characters are percent-encoded, in either hex case.  **Decoding
gives back the text of every spelling**, as a whole or between other bytes.
-/

namespace Machinery

/-! ## UTF-8 -/

/-- `str::as_bytes`. -/
def asBytes (text : String) : List UInt8 := text.toList.flatMap String.utf8EncodeChar

/-- `str::from_utf8`. -/
def fromUtf8 (bytes : List UInt8) : Option String := String.fromUTF8? bytes.toByteArray

theorem toByteArray_asBytes (text : String) : (asBytes text).toByteArray = text.toByteArray := by
  rw [← String.utf8Encode_toList, List.utf8Encode, asBytes]

theorem fromUtf8_asBytes (text : String) : fromUtf8 (asBytes text) = some text := by
  rw [fromUtf8, toByteArray_asBytes, String.fromUTF8?, dif_pos text.isValidUTF8]
  exact congrArg some (String.toByteArray_inj.mp rfl)

/-- **A text read from bytes has those bytes.** -/
theorem asBytes_of_fromUtf8 {bytes : List UInt8} {text : String} (h : fromUtf8 bytes = some text) :
    asBytes text = bytes := by
  rw [fromUtf8, String.fromUTF8?] at h
  split_ifs at h with hvalid
  obtain rfl := Option.some.inj h
  rw [← List.toByteArray_inj, toByteArray_asBytes]
  rfl

theorem asBytes_append (s t : String) : asBytes (s ++ t) = asBytes s ++ asBytes t := by
  rw [asBytes, String.toList_append, List.flatMap_append, asBytes, asBytes]

theorem asBytes_ofList (cs : List Char) :
    asBytes (String.ofList cs) = cs.flatMap String.utf8EncodeChar := by
  rw [asBytes, String.toList_ofList]

/-- An ASCII character is one byte. -/
theorem utf8EncodeChar_ascii {c : Char} (h : c.toNat < 128) :
    String.utf8EncodeChar c = [UInt8.ofNat c.toNat] := by
  have hsize : c.utf8Size = 1 := by
    rw [Char.utf8Size_eq_one_iff, UInt32.le_iff_toNat_le]
    exact Nat.le_of_lt_succ h
  exact String.utf8EncodeChar_eq_singleton hsize

/-- The bytes of an ASCII text. -/
theorem flatMap_ascii : ∀ {cs : List Char}, (∀ c ∈ cs, c.toNat < 128) →
    cs.flatMap String.utf8EncodeChar = cs.map fun c => UInt8.ofNat c.toNat
  | [], _ => rfl
  | c :: cs, h => by
    rw [List.flatMap_cons, utf8EncodeChar_ascii (h c List.mem_cons_self),
      flatMap_ascii fun d hd => h d (List.mem_cons_of_mem _ hd)]
    rfl

/-! ## Percent-encoding -/

/-- The value of a hexadecimal digit, in either case. -/
def hexOf (c : Char) : Option ℕ :=
  if '0' ≤ c ∧ c ≤ '9' then some (c.toNat - 48)
  else if 'a' ≤ c ∧ c ≤ 'f' then some (c.toNat - 87)
  else if 'A' ≤ c ∧ c ≤ 'F' then some (c.toNat - 55)
  else none

/-- The value of a byte that is a hexadecimal digit. -/
def hexValue (byte : UInt8) : Option ℕ := hexOf (Char.ofNat byte.toNat)

/-- The percent sign. -/
def percentByte : UInt8 := 37

/-- The byte that a percent sign and two digits stand for. -/
def unescape (byte high low : UInt8) : Option UInt8 :=
  if byte = percentByte then
    match hexValue high, hexValue low with
    | some h, some l => some (UInt8.ofNat (h * 16 + l))
    | _, _ => none
  else none

/-- `percent_encoding::percent_decode`: a percent sign without two digits stays. -/
def percentDecode : List UInt8 → List UInt8
  | byte :: high :: low :: rest =>
    match unescape byte high low with
    | some decoded => decoded :: percentDecode rest
    | none => byte :: percentDecode (high :: low :: rest)
  | bytes => bytes

/-- `percent_decode_str(..).decode_utf8()`. -/
def percentDecodeStr (text : String) : Option String := fromUtf8 (percentDecode (asBytes text))

/-- `+` stands for a space. -/
def plusToSpace (byte : UInt8) : UInt8 := if byte = 43 then 32 else byte

/-- A name or value of `application/x-www-form-urlencoded`, if it is UTF-8. -/
def formDecode (text : String) : Option String :=
  fromUtf8 (percentDecode ((asBytes text).map plusToSpace))

theorem percentDecode_nil : percentDecode [] = [] := rfl

theorem percentDecode_cons_of_ne {byte : UInt8} (h : byte ≠ percentByte) (rest : List UInt8) :
    percentDecode (byte :: rest) = byte :: percentDecode rest := by
  match rest with
  | [] => rfl
  | [_] => rfl
  | high :: low :: later => rw [percentDecode, unescape, if_neg h]

/-- Bytes without a percent sign stay. -/
theorem percentDecode_append : ∀ {bytes : List UInt8}, (∀ byte ∈ bytes, byte ≠ percentByte) →
    ∀ rest, percentDecode (bytes ++ rest) = bytes ++ percentDecode rest
  | [], _, _ => rfl
  | byte :: bytes, h, rest => by
    rw [List.cons_append, percentDecode_cons_of_ne (h byte List.mem_cons_self),
      percentDecode_append (fun b hb => h b (List.mem_cons_of_mem _ hb)) rest, List.cons_append]

theorem percentDecode_eq_self {bytes : List UInt8} (h : ∀ byte ∈ bytes, byte ≠ percentByte) :
    percentDecode bytes = bytes := by
  have happend := percentDecode_append h []
  rwa [List.append_nil, percentDecode_nil, List.append_nil] at happend

/-! ## Spellings -/

/-- **A spelling of a text**: any of its characters may be percent-encoded. -/
inductive Spells : List Char → List Char → Prop
  | nil : Spells [] []
  | plain (c : Char) {plain spelled : List Char} :
    Spells plain spelled → Spells (c :: plain) (c :: spelled)
  | encoded {c high low : Char} {h l : ℕ} {plain spelled : List Char} :
    hexOf high = some h → hexOf low = some l → c.toNat = h * 16 + l →
    Spells plain spelled → Spells (c :: plain) ('%' :: high :: low :: spelled)

/-- A text is a spelling of itself. -/
theorem Spells.refl : ∀ cs : List Char, Spells cs cs
  | [] => .nil
  | c :: cs => .plain c (refl cs)

/-- A hexadecimal digit is a digit or a letter. -/
theorem mem_of_hexOf {c : Char} {n : ℕ} (h : hexOf c = some n) :
    c ∈ "0123456789abcdefABCDEF".toList := by
  have hall : ∀ m < 128, (hexOf (Char.ofNat m)).isSome →
      Char.ofNat m ∈ "0123456789abcdefABCDEF".toList := by decide
  have hlt : c.toNat < 128 := by
    rw [hexOf] at h
    simp only [Char.le_def, UInt32.le_iff_toNat_le] at h
    split_ifs at h with h1 h2 h3
    · exact Nat.lt_of_le_of_lt h1.2 (by decide)
    · exact Nat.lt_of_le_of_lt h2.2 (by decide)
    · exact Nat.lt_of_le_of_lt h3.2 (by decide)
  have hc := hall c.toNat hlt
  rw [Char.ofNat_toNat, h] at hc
  exact hc rfl

/-- **What a spelling is written with.** -/
theorem Spells.mem {plain spelled : List Char} (hspells : Spells plain spelled) :
    ∀ c ∈ spelled, c ∈ plain ∨ c = '%' ∨ c ∈ "0123456789abcdefABCDEF".toList := by
  induction hspells with
  | nil => exact fun c hc => absurd hc List.not_mem_nil
  | plain d _ ih =>
    intro c hc
    rcases List.mem_cons.mp hc with rfl | hc
    · exact .inl List.mem_cons_self
    · exact (ih c hc).imp_left (List.mem_cons_of_mem _)
  | encoded hhigh hlow _ _ ih =>
    intro c hc
    rcases List.mem_cons.mp hc with rfl | hc
    · exact .inr (.inl rfl)
    rcases List.mem_cons.mp hc with rfl | hc
    · exact .inr (.inr (mem_of_hexOf hhigh))
    rcases List.mem_cons.mp hc with rfl | hc
    · exact .inr (.inr (mem_of_hexOf hlow))
    · exact (ih c hc).imp_left (List.mem_cons_of_mem _)

theorem hexDigits_lt : ∀ c ∈ "0123456789abcdefABCDEF".toList, c.toNat < 128 :=
  forall_mem_of_all (by decide)

theorem Spells.ascii {plain spelled : List Char} (hspells : Spells plain spelled)
    (h : ∀ c ∈ plain, c.toNat < 128) : ∀ c ∈ spelled, c.toNat < 128 := by
  intro c hc
  rcases hspells.mem c hc with hplain | rfl | hhex
  · exact h c hplain
  · decide
  · exact hexDigits_lt c hhex

/-- The byte of an ASCII character is the character again. -/
theorem ofNat_toNat_byte {c : Char} (h : c.toNat < 128) :
    Char.ofNat (UInt8.ofNat c.toNat).toNat = c := by
  rw [UInt8.toNat_ofNat_of_lt' (Nat.lt_trans h (by decide)), Char.ofNat_toNat]

theorem byte_ne {c d : Char} (hc : c.toNat < 128) (hd : d.toNat < 128) (h : c ≠ d) :
    UInt8.ofNat c.toNat ≠ UInt8.ofNat d.toNat := by
  intro heq
  refine h ?_
  rw [← ofNat_toNat_byte hc, heq, ofNat_toNat_byte hd]

/-- **Decoding a spelling**, whatever follows it. -/
theorem Spells.percentDecode {plain spelled : List Char} (hspells : Spells plain spelled)
    (h : ∀ c ∈ plain, c.toNat < 128 ∧ c ≠ '%') (rest : List UInt8) :
    Machinery.percentDecode ((spelled.map fun c => UInt8.ofNat c.toNat) ++ rest)
      = (plain.map fun c => UInt8.ofNat c.toNat) ++ Machinery.percentDecode rest := by
  induction hspells with
  | nil => rfl
  | @plain c plain spelled _ ih =>
    obtain ⟨hc, hplain⟩ := List.forall_mem_cons.mp h
    have hne : UInt8.ofNat c.toNat ≠ percentByte := byte_ne hc.1 (by decide : '%'.toNat < 128) hc.2
    rw [List.map_cons, List.map_cons, List.cons_append, percentDecode_cons_of_ne hne, ih hplain,
      List.cons_append]
  | @encoded c high low m n plain spelled hhigh hlow hvalue _ ih =>
    obtain ⟨-, hplain⟩ := List.forall_mem_cons.mp h
    have hhex : ∀ {d : Char} {k : ℕ}, hexOf d = some k →
        hexValue (UInt8.ofNat d.toNat) = some k := by
      intro d k hd
      rw [hexValue, ofNat_toNat_byte (hexDigits_lt d (mem_of_hexOf hd)), hd]
    rw [List.map_cons, List.map_cons, List.map_cons, List.map_cons, List.cons_append,
      List.cons_append, List.cons_append, Machinery.percentDecode, unescape, if_pos (by decide)]
    simp only [hhex hhigh, hhex hlow]
    rw [ih hplain, hvalue, List.cons_append]

end Machinery
