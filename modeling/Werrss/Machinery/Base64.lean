import Mathlib.Data.List.GetD
import Mathlib.Data.List.Nodup
import Mathlib.Data.List.TakeWhile

/-!
# Machinery/Base64 — unpadded base64 over any alphabet

    bytes ──sextets──▸ 0…63 ──alphabet──▸ text
    bytes ◂──bytes?─── 0…63 ◂──alphabet── text

Decoding is strict: a character outside the alphabet, a lonely last character and trailing bits that
are not zero are refused.  **Decoding inverts encoding**, so an encoding names its bytes.
-/

namespace Machinery

namespace Base64

/-! ## Sextets -/

/-- Three bytes are four sextets; one or two bytes left over are padded with zero bits. -/
def sextets : List UInt8 → List ℕ
  | a :: b :: c :: rest =>
    a.toNat / 4 :: (a.toNat % 4 * 16 + b.toNat / 16) :: (b.toNat % 16 * 4 + c.toNat / 64)
      :: c.toNat % 64 :: sextets rest
  | [a, b] => [a.toNat / 4, a.toNat % 4 * 16 + b.toNat / 16, b.toNat % 16 * 4]
  | [a] => [a.toNat / 4, a.toNat % 4 * 16]
  | [] => []

/-- The bytes of sextets, if they are the sextets of some bytes. -/
def bytes? : List ℕ → Option (List UInt8)
  | w :: x :: y :: z :: rest =>
    (bytes? rest).map fun tail =>
      UInt8.ofNat (w * 4 + x / 16) :: UInt8.ofNat (x % 16 * 16 + y / 4)
        :: UInt8.ofNat (y % 4 * 64 + z) :: tail
  | [w, x, y] =>
    if y % 4 = 0 then some [UInt8.ofNat (w * 4 + x / 16), UInt8.ofNat (x % 16 * 16 + y / 4)]
    else none
  | [w, x] => if x % 16 = 0 then some [UInt8.ofNat (w * 4 + x / 16)] else none
  | [_] => none
  | [] => some []

/-- A byte is put together again. -/
theorem ofNat_eq_of_toNat {n : ℕ} {a : UInt8} (h : n = a.toNat) : UInt8.ofNat n = a := by
  rw [h, UInt8.ofNat_toNat]

/-- **The bytes of the sextets of bytes.** -/
theorem bytes?_sextets (bs : List UInt8) : bytes? (sextets bs) = some bs := by
  fun_induction sextets bs with
  | case1 a b c rest ih =>
    have ha : a.toNat < 256 := a.toNat_lt
    have hb : b.toNat < 256 := b.toNat_lt
    have hc : c.toNat < 256 := c.toNat_lt
    rw [bytes?, ih, Option.map_some]
    have h1 : a.toNat / 4 * 4 + (a.toNat % 4 * 16 + b.toNat / 16) / 16 = a.toNat := by omega
    have h2 : (a.toNat % 4 * 16 + b.toNat / 16) % 16 * 16 + (b.toNat % 16 * 4 + c.toNat / 64) / 4
        = b.toNat := by omega
    have h3 : (b.toNat % 16 * 4 + c.toNat / 64) % 4 * 64 + c.toNat % 64 = c.toNat := by omega
    rw [ofNat_eq_of_toNat h1, ofNat_eq_of_toNat h2, ofNat_eq_of_toNat h3]
  | case2 a b =>
    have ha : a.toNat < 256 := a.toNat_lt
    have hb : b.toNat < 256 := b.toNat_lt
    have h1 : a.toNat / 4 * 4 + (a.toNat % 4 * 16 + b.toNat / 16) / 16 = a.toNat := by omega
    have h2 : (a.toNat % 4 * 16 + b.toNat / 16) % 16 * 16 + b.toNat % 16 * 4 / 4 = b.toNat := by
      omega
    rw [bytes?, if_pos (by omega), ofNat_eq_of_toNat h1, ofNat_eq_of_toNat h2]
  | case3 a =>
    have ha : a.toNat < 256 := a.toNat_lt
    have h1 : a.toNat / 4 * 4 + a.toNat % 4 * 16 / 16 = a.toNat := by omega
    rw [bytes?, if_pos (by omega), ofNat_eq_of_toNat h1]
  | case4 => rfl

theorem sextets_lt (bs : List UInt8) : ∀ n ∈ sextets bs, n < 64 := by
  fun_induction sextets bs with
  | case1 a b c rest ih =>
    have ha : a.toNat < 256 := a.toNat_lt
    have hb : b.toNat < 256 := b.toNat_lt
    have hc : c.toNat < 256 := c.toNat_lt
    intro n hn
    simp only [List.mem_cons] at hn
    rcases hn with rfl | rfl | rfl | rfl | hn
    · omega
    · omega
    · omega
    · omega
    · exact ih n hn
  | case2 a b =>
    have ha : a.toNat < 256 := a.toNat_lt
    have hb : b.toNat < 256 := b.toNat_lt
    intro n hn
    simp only [List.mem_cons, List.not_mem_nil, or_false] at hn
    omega
  | case3 a =>
    have ha : a.toNat < 256 := a.toNat_lt
    intro n hn
    simp only [List.mem_cons, List.not_mem_nil, or_false] at hn
    omega
  | case4 => exact fun n hn => absurd hn List.not_mem_nil

/-- **The sextets of the bytes of sextets.** -/
theorem sextets_of_bytes? {ns : List ℕ} (hlt : ∀ n ∈ ns, n < 64) {bs : List UInt8}
    (h : bytes? ns = some bs) : sextets bs = ns := by
  fun_induction bytes? ns generalizing bs with
  | case1 w x y z rest ih =>
    obtain ⟨tail, htail, rfl⟩ := Option.map_eq_some_iff.mp h
    simp only [List.forall_mem_cons] at hlt
    obtain ⟨hw, hx, hy, hz, hrest⟩ := hlt
    rw [sextets, ih hrest htail]
    simp only [UInt8.toNat_ofNat']
    have h1 : (w * 4 + x / 16) % 2 ^ 8 / 4 = w := by omega
    have h2 : (w * 4 + x / 16) % 2 ^ 8 % 4 * 16 + (x % 16 * 16 + y / 4) % 2 ^ 8 / 16 = x := by omega
    have h3 : (x % 16 * 16 + y / 4) % 2 ^ 8 % 16 * 4 + (y % 4 * 64 + z) % 2 ^ 8 / 64 = y := by omega
    have h4 : (y % 4 * 64 + z) % 2 ^ 8 % 64 = z := by omega
    rw [h1, h2, h3, h4]
  | case2 w x y hzero =>
    obtain rfl := Option.some.inj h
    simp only [List.forall_mem_cons] at hlt
    obtain ⟨hw, hx, hy, -⟩ := hlt
    rw [sextets]
    simp only [UInt8.toNat_ofNat']
    have h1 : (w * 4 + x / 16) % 2 ^ 8 / 4 = w := by omega
    have h2 : (w * 4 + x / 16) % 2 ^ 8 % 4 * 16 + (x % 16 * 16 + y / 4) % 2 ^ 8 / 16 = x := by omega
    have h3 : (x % 16 * 16 + y / 4) % 2 ^ 8 % 16 * 4 = y := by omega
    rw [h1, h2, h3]
  | case3 => exact nomatch h
  | case4 w x hzero =>
    obtain rfl := Option.some.inj h
    simp only [List.forall_mem_cons] at hlt
    obtain ⟨hw, hx, -⟩ := hlt
    rw [sextets]
    simp only [UInt8.toNat_ofNat']
    have h1 : (w * 4 + x / 16) % 2 ^ 8 / 4 = w := by omega
    have h2 : (w * 4 + x / 16) % 2 ^ 8 % 4 * 16 = x := by omega
    rw [h1, h2]
  | case5 => exact nomatch h
  | case6 => exact nomatch h
  | case7 =>
    obtain rfl := Option.some.inj h
    rfl

theorem sextets_ne_nil {bs : List UInt8} (h : bs ≠ []) : sextets bs ≠ [] := by
  fun_cases sextets bs with
  | case1 | case2 | case3 => exact List.cons_ne_nil _ _
  | case4 => exact absurd rfl h

/-! ## Alphabets -/

/-- Sixty-four different characters. -/
structure Alphabet where
  chars : List Char
  length_eq : chars.length = 64
  nodup : chars.Nodup

namespace Alphabet

variable (alphabet : Alphabet)

/-- The character of a sextet. -/
def char (n : ℕ) : Char := alphabet.chars.getD n 'A'

/-- The sextet of a character. -/
def value (c : Char) : Option ℕ := if c ∈ alphabet.chars then some (alphabet.chars.idxOf c) else none

theorem char_mem {n : ℕ} (h : n < 64) : alphabet.char n ∈ alphabet.chars := by
  rw [char, List.getD_eq_getElem _ _ (alphabet.length_eq ▸ h)]
  exact List.getElem_mem _

theorem value_char {n : ℕ} (h : n < 64) : alphabet.value (alphabet.char n) = some n := by
  have hlt : n < alphabet.chars.length := alphabet.length_eq ▸ h
  rw [value, if_pos (alphabet.char_mem h), char, List.getD_eq_getElem _ _ hlt,
    alphabet.nodup.idxOf_getElem]

/-- **Unpadded encoding.** -/
def encode (bs : List UInt8) : String := String.ofList ((sextets bs).map alphabet.char)

/-- **Strict decoding.** -/
def decode (text : String) : Option (List UInt8) :=
  (text.toList.mapM alphabet.value).bind bytes?

theorem mapM_value_char : ∀ {ns : List ℕ}, (∀ n ∈ ns, n < 64) →
    (ns.map alphabet.char).mapM alphabet.value = some ns
  | [], _ => rfl
  | n :: ns, h => by
    have htail := mapM_value_char fun m hm => h m (List.mem_cons_of_mem _ hm)
    rw [List.map_cons, List.mapM_cons, alphabet.value_char (h n List.mem_cons_self), htail]
    rfl

/-- **Decoding inverts encoding.** -/
theorem decode_encode (bs : List UInt8) : alphabet.decode (alphabet.encode bs) = some bs := by
  rw [decode, encode, String.toList_ofList, alphabet.mapM_value_char (sextets_lt bs),
    Option.bind_some, bytes?_sextets]

/-- An encoding names its bytes. -/
theorem encode_injective : Function.Injective alphabet.encode := fun bs bs' h => by
  have hdecode := alphabet.decode_encode bs
  rw [h, alphabet.decode_encode] at hdecode
  exact (Option.some.inj hdecode).symm

theorem mem_encode {bs : List UInt8} {c : Char} (h : c ∈ (alphabet.encode bs).toList) :
    c ∈ alphabet.chars := by
  rw [encode, String.toList_ofList] at h
  obtain ⟨n, hn, rfl⟩ := List.mem_map.mp h
  exact alphabet.char_mem (sextets_lt bs n hn)

theorem encode_ne_empty {bs : List UInt8} (h : bs ≠ []) : alphabet.encode bs ≠ "" := by
  intro hempty
  have hlist := congrArg String.toList hempty
  rw [encode, String.toList_ofList] at hlist
  exact sextets_ne_nil h (List.map_eq_nil_iff.mp hlist)

/-! ### Decoded texts are encodings -/

theorem char_of_value {c : Char} {n : ℕ} (h : alphabet.value c = some n) :
    n < 64 ∧ alphabet.char n = c := by
  rw [value] at h
  split_ifs at h with hmem
  obtain rfl := Option.some.inj h
  have hlt := List.idxOf_lt_length_iff.mpr hmem
  refine ⟨alphabet.length_eq ▸ hlt, ?_⟩
  rw [char, List.getD_eq_getElem _ _ hlt, List.getElem_idxOf hlt]

theorem map_char_of_mapM_value : ∀ {cs : List Char} {ns : List ℕ},
    cs.mapM alphabet.value = some ns → (∀ n ∈ ns, n < 64) ∧ ns.map alphabet.char = cs
  | [], ns, h => by
    obtain rfl : [] = ns := Option.some.inj h
    exact ⟨fun n hn => absurd hn List.not_mem_nil, rfl⟩
  | c :: cs, ns, h => by
    rw [List.mapM_cons] at h
    obtain ⟨n, hn, h⟩ := Option.bind_eq_some_iff.mp h
    obtain ⟨tail, htail, h⟩ := Option.bind_eq_some_iff.mp h
    obtain rfl : n :: tail = ns := Option.some.inj h
    obtain ⟨hlt, hchar⟩ := alphabet.char_of_value hn
    obtain ⟨hrest, hmap⟩ := map_char_of_mapM_value htail
    exact ⟨List.forall_mem_cons.mpr ⟨hlt, hrest⟩, by rw [List.map_cons, hchar, hmap]⟩

/-- **What decodes is the encoding of its bytes.** -/
theorem encode_of_decode {text : String} {bs : List UInt8} (h : alphabet.decode text = some bs) :
    alphabet.encode bs = text := by
  obtain ⟨ns, hns, hbytes⟩ := Option.bind_eq_some_iff.mp h
  obtain ⟨hlt, hmap⟩ := alphabet.map_char_of_mapM_value hns
  rw [encode, sextets_of_bytes? hlt hbytes, hmap, String.ofList_toList]

/-! ### Padding -/

/-- The padding of a text of some length. -/
def padding (length : ℕ) : List Char := List.replicate ((4 - length % 4) % 4) '='

/-- **Padded encoding.** -/
def encodePadded (bs : List UInt8) : String :=
  String.ofList ((alphabet.encode bs).toList ++ padding (alphabet.encode bs).toList.length)

/-- A text without the padding signs at its end. -/
def unpadded (text : String) : List Char := (text.toList.reverse.dropWhile (· = '=')).reverse

/-- **Strict padded decoding**: the padding is the one the length asks for. -/
def decodePadded (text : String) : Option (List UInt8) :=
  if text.toList = unpadded text ++ padding (unpadded text).length then
    alphabet.decode (String.ofList (unpadded text))
  else none

theorem unpadded_append {cs : List Char} (h : '=' ∉ cs) (n : ℕ) :
    unpadded (String.ofList (cs ++ List.replicate n '=')) = cs := by
  rw [unpadded, String.toList_ofList, List.reverse_append, List.reverse_replicate,
    List.dropWhile_append_of_pos (by simp), List.dropWhile_eq_self_iff.mpr, List.reverse_reverse]
  intro hlength heq
  refine h ?_
  have hmem := List.getElem_mem hlength
  rw [of_decide_eq_true heq] at hmem
  exact List.mem_reverse.mp hmem

/-- **Decoding inverts encoding, with padding.** -/
theorem decodePadded_encodePadded (halphabet : '=' ∉ alphabet.chars) (bs : List UInt8) :
    alphabet.decodePadded (alphabet.encodePadded bs) = some bs := by
  have hfree : '=' ∉ (alphabet.encode bs).toList := fun h => halphabet (alphabet.mem_encode h)
  have hunpadded : unpadded (alphabet.encodePadded bs) = (alphabet.encode bs).toList :=
    unpadded_append hfree _
  rw [decodePadded, hunpadded, encodePadded, String.toList_ofList, if_pos rfl, String.ofList_toList,
    decode_encode]

/-- **What decodes with padding is the padded encoding of its bytes.** -/
theorem encodePadded_of_decodePadded {text : String} {bs : List UInt8}
    (h : alphabet.decodePadded text = some bs) : alphabet.encodePadded bs = text := by
  rw [decodePadded] at h
  split_ifs at h with hpadding
  rw [encodePadded, alphabet.encode_of_decode h, String.toList_ofList, ← hpadding,
    String.ofList_toList]

end Alphabet

/-- The standard alphabet. -/
def standard : Alphabet where
  chars := "ABCDEFGHIJKLMNOPQRSTUVWXYZabcdefghijklmnopqrstuvwxyz0123456789+/".toList
  length_eq := by decide
  nodup := by decide

/-- The URL-safe alphabet. -/
def urlSafe : Alphabet where
  chars := "ABCDEFGHIJKLMNOPQRSTUVWXYZabcdefghijklmnopqrstuvwxyz0123456789-_".toList
  length_eq := by decide
  nodup := by decide

end Base64

end Machinery
