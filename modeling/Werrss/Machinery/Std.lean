import Mathlib.Algebra.Order.Ring.Int
import Mathlib.Data.List.Basic
import Mathlib.Data.List.Forall2
import Mathlib.Data.Nat.Basic

/-!
# Machinery/Std — the standard-library values the development rests on

Text is `String`; a *blank* text is one `str::trim` empties, so it is made of Unicode `White_Space`
only.  Instants and durations are integers in nanoseconds, instants inside `chrono`'s calendar;
counters are `UInt32` with checked addition.
-/

namespace Machinery

/-- An opaque 128-bit identifier. -/
structure Uuid where
  value : ℕ
deriving DecidableEq, Repr

/-- The all-zero identifier. -/
def Uuid.nil : Uuid := ⟨0⟩

/-- A digit of the hexadecimal alphabet. -/
def hexDigit (n : ℕ) : Char := "0123456789abcdef".toList.getD n '0'

/-- The last `count` hexadecimal digits of a number. -/
def hexDigits : ℕ → ℕ → List Char
  | 0, _ => []
  | count + 1, n => hexDigits count (n / 16) ++ [hexDigit (n % 16)]

/-- `Uuid::to_string`: lower-case digits in five groups. -/
def Uuid.toText (id : Uuid) : String :=
  let digits := hexDigits 32 id.value
  String.ofList (digits.take 8 ++ '-' :: ((digits.drop 8).take 4 ++ '-' :: ((digits.drop 12).take 4
    ++ '-' :: ((digits.drop 16).take 4 ++ '-' :: digits.drop 20))))

/-- A decidable property of all characters of a text that computes, checked one by one. -/
theorem forall_mem_of_all {P : Char → Prop} [DecidablePred P] {l : List Char}
    (h : (l.all fun c => decide (P c)) = true) : ∀ c ∈ l, P c := fun c hc =>
  of_decide_eq_true (List.all_eq_true.mp h c hc)

theorem mem_hexDigits {c : Char} : ∀ {count n : ℕ}, c ∈ hexDigits count n →
    c ∈ "0123456789abcdef".toList
  | 0, _, h => by cases h
  | count + 1, n, h => by
    rcases List.mem_append.mp h with h | h
    · exact mem_hexDigits h
    · have hdigit : ∀ k < 16, hexDigit k ∈ "0123456789abcdef".toList := by decide
      rw [List.mem_singleton.mp h]
      exact hdigit _ (Nat.mod_lt _ (by decide))

/-- An identifier is written with digits and hyphens. -/
theorem Uuid.mem_toText {id : Uuid} {c : Char} (h : c ∈ id.toText.toList) :
    c ∈ "-0123456789abcdef".toList := by
  have hdigit : ∀ c ∈ hexDigits 32 id.value, c ∈ "-0123456789abcdef".toList := fun c hc =>
    List.mem_cons_of_mem _ (mem_hexDigits hc)
  have hhyphen : '-' ∈ "-0123456789abcdef".toList := by decide
  rw [Uuid.toText, String.toList_ofList] at h
  simp only [List.mem_append, List.mem_cons] at h
  rcases h with h | rfl | h | rfl | h | rfl | h | rfl | h
  · exact hdigit c (List.mem_of_mem_take h)
  · exact hhyphen
  · exact hdigit c (List.mem_of_mem_drop (List.mem_of_mem_take h))
  · exact hhyphen
  · exact hdigit c (List.mem_of_mem_drop (List.mem_of_mem_take h))
  · exact hhyphen
  · exact hdigit c (List.mem_of_mem_drop (List.mem_of_mem_take h))
  · exact hhyphen
  · exact hdigit c (List.mem_of_mem_drop h)

/-- The `sha2` crate: the lower-case hexadecimal SHA-256 digest of a body. -/
class Sha2Crate where
  sha256Hex : List UInt8 → String

/-- What the formatting of a digest promises: 64 lower-case hexadecimal digits. -/
class LawfulSha2Crate [Sha2Crate] : Prop where
  length_sha256Hex (bytes : List UInt8) : (Sha2Crate.sha256Hex bytes).toList.length = 64
  mem_sha256Hex (bytes : List UInt8) :
    ∀ c ∈ (Sha2Crate.sha256Hex bytes).toList, c ∈ "0123456789abcdef".toList

/-! ## Results -/

theorem ok_bind {E A B : Type} (a : A) (f : A → Except E B) : (Except.ok a >>= f) = f a := rfl

/-- A bind that answers. -/
theorem bind_eq_ok {E A B : Type} {x : Except E A} {f : A → Except E B} {b : B}
    (h : (x >>= f) = .ok b) : ∃ a, x = .ok a ∧ f a = .ok b := by
  cases x with
  | error e => cases h
  | ok a => exact ⟨a, rfl, h⟩

/-- The answer of a computation that has one. -/
theorem eq_ok_get {E A : Type} {x : Except E A} (h : x.toOption.isSome = true) :
    x = .ok (x.toOption.get h) := by
  cases x with
  | error e => cases h
  | ok a => rfl

/-- A translation of all elements, one by one. -/
theorem mapM_eq_ok {A B E : Type} {f : A → Except E B} {l : List A} {l' : List B}
    (h : l.mapM f = .ok l') : List.Forall₂ (fun a b => f a = .ok b) l l' := by
  induction l generalizing l' with
  | nil =>
    obtain rfl := Except.ok.inj h
    exact .nil
  | cons a rest ih =>
    rw [List.mapM_cons] at h
    obtain ⟨b, hb, h⟩ := bind_eq_ok h
    obtain ⟨bs, hbs, h⟩ := bind_eq_ok h
    obtain rfl := Except.ok.inj h
    exact .cons hb (ih hbs)

/-- What a translation holds comes from an element. -/
theorem exists_of_mem_mapM {A B E : Type} {f : A → Except E B} {l : List A} {l' : List B}
    (h : l.mapM f = .ok l') {b : B} (hb : b ∈ l') : ∃ a ∈ l, f a = .ok b := by
  have hall := mapM_eq_ok h
  clear h
  induction hall with
  | nil => cases hb
  | cons hab _ ih =>
    rcases List.mem_cons.mp hb with rfl | hb
    · exact ⟨_, List.mem_cons_self, hab⟩
    · obtain ⟨a, ha, hab⟩ := ih hb
      exact ⟨a, List.mem_cons_of_mem _ ha, hab⟩

/-- What an element is translated to is held. -/
theorem mem_of_mapM {A B E : Type} {f : A → Except E B} {l : List A} {l' : List B}
    (h : l.mapM f = .ok l') {a : A} (ha : a ∈ l) : ∃ b ∈ l', f a = .ok b := by
  have hall := mapM_eq_ok h
  clear h
  induction hall with
  | nil => exact absurd ha List.not_mem_nil
  | cons hab _ ih =>
    rcases List.mem_cons.mp ha with rfl | ha
    · exact ⟨_, List.mem_cons_self, hab⟩
    · obtain ⟨b, hb, hab⟩ := ih ha
      exact ⟨b, List.mem_cons_of_mem _ hb, hab⟩

/-- An invariant of the rounds of a loop, with what the rounds so far were about. -/
theorem foldlM_invariant {A B E : Type} {f : B → A → Except E B} {I : List A → B → Prop}
    (hstep : ∀ done a b b', I done b → f b a = .ok b' → I (done ++ [a]) b') :
    ∀ {l done : List A} {b b' : B}, I done b → l.foldlM f b = .ok b' → I (done ++ l) b'
  | [], done, b, b', hb, h => by
    obtain rfl := Except.ok.inj h
    rwa [List.append_nil]
  | a :: l, done, b, b', hb, h => by
    rw [List.foldlM_cons] at h
    obtain ⟨c, hc, h⟩ := bind_eq_ok h
    rw [List.append_cons]
    exact foldlM_invariant hstep (hstep done a b c hb hc) h

/-! ## Association lists -/

/-- Where the keys are distinct, what is found under a key is its entry. -/
theorem lookup_eq_some_iff_mem {K V : Type} [DecidableEq K] {k : K} {v : V} {l : List (K × V)}
    (hkeys : (l.map Prod.fst).Nodup) : l.lookup k = some v ↔ (k, v) ∈ l := by
  rw [List.lookup_eq_some_iff]
  constructor
  · rintro ⟨before, after, rfl, -⟩
    simp
  · intro h
    obtain ⟨before, after, rfl⟩ := List.append_of_mem h
    refine ⟨before, after, rfl, fun entry hentry => ?_⟩
    rw [List.map_append, List.map_cons, List.nodup_append] at hkeys
    have hne : entry.1 ≠ k :=
      hkeys.2.2 entry.1 (List.mem_map_of_mem hentry) k List.mem_cons_self
    simpa using hne.symm

/-! ## Text -/

/-- Unicode `White_Space`, the class `str::trim` removes. -/
def isWhiteSpace (c : Char) : Bool :=
  (0x9 ≤ c.toNat && c.toNat ≤ 0xD) || c.toNat == 0x20 || c.toNat == 0x85 || c.toNat == 0xA0 ||
    c.toNat == 0x1680 || (0x2000 ≤ c.toNat && c.toNat ≤ 0x200A) || c.toNat == 0x2028 ||
    c.toNat == 0x2029 || c.toNat == 0x202F || c.toNat == 0x205F || c.toNat == 0x3000

/-- `str::trim` on characters. -/
def trimChars (cs : List Char) : List Char :=
  ((cs.dropWhile isWhiteSpace).reverse.dropWhile isWhiteSpace).reverse

/-- `str::trim`. -/
def trim (s : String) : String := String.ofList (trimChars s.toList)

/-- `s.trim().is_empty()`. -/
def isBlank (s : String) : Bool := s.toList.all isWhiteSpace

/-- `str::split_once` at a character. -/
def splitOnce (c : Char) (s : String) : Option (String × String) :=
  match s.toList.dropWhile (· ≠ c) with
  | [] => none
  | _ :: rest => some (String.ofList (s.toList.takeWhile (· ≠ c)), String.ofList rest)

/-- `str::to_ascii_lowercase`. -/
def toAsciiLowercase (s : String) : String := s.map Char.toLower

/-- `char::is_control`: the general category `Cc`. -/
def isControl (c : Char) : Bool := c.toNat ≤ 0x1F || (0x7F ≤ c.toNat && c.toNat ≤ 0x9F)

/-- A list whose head is kept by `dropWhile` stays as it is. -/
theorem dropWhile_eq_self_of_head {p : Char → Bool} : ∀ {cs : List Char},
    (∀ c ∈ cs.head?, p c = false) → cs.dropWhile p = cs
  | [], _ => rfl
  | c :: cs, h => by rw [List.dropWhile_cons_of_neg (by simp [h c rfl])]

theorem head_dropWhile {p : Char → Bool} : ∀ {cs : List Char} {c : Char},
    (cs.dropWhile p).head? = some c → p c = false
  | [], _, h => by cases h
  | d :: cs, c, h => by
    by_cases hd : p d = true
    · rw [List.dropWhile_cons_of_pos hd] at h
      exact head_dropWhile h
    · rw [List.dropWhile_cons_of_neg hd] at h
      obtain rfl : d = c := by simpa using h
      simpa using hd

/-- **Trimming is idempotent.** -/
theorem trimChars_trimChars (cs : List Char) : trimChars (trimChars cs) = trimChars cs := by
  have hback : ∀ c ∈ ((cs.dropWhile isWhiteSpace).reverse.dropWhile isWhiteSpace).head?,
      isWhiteSpace c = false := fun c hc => head_dropWhile hc
  have hfront : ∀ c ∈ (trimChars cs).head?, isWhiteSpace c = false := by
    intro c hc
    -- What is left of a list after cutting its end starts as the list did.
    obtain ⟨tail, htail⟩ := List.dropWhile_suffix isWhiteSpace
      (l := (cs.dropWhile isWhiteSpace).reverse)
    have hsplit : cs.dropWhile isWhiteSpace = trimChars cs ++ tail.reverse := by
      rw [trimChars, ← List.reverse_append, htail, List.reverse_reverse]
    suffices h : (cs.dropWhile isWhiteSpace).head? = some c from head_dropWhile h
    rw [hsplit]
    cases ht : trimChars cs with
    | nil => simp [ht] at hc
    | cons d ds => simpa [ht] using hc
  have h1 : (trimChars cs).dropWhile isWhiteSpace = trimChars cs := dropWhile_eq_self_of_head hfront
  conv_lhs => rw [trimChars, h1, trimChars, List.reverse_reverse]
  rw [dropWhile_eq_self_of_head hback, trimChars]

@[simp] theorem trim_trim (s : String) : trim (trim s) = trim s := by
  simp [trim, trimChars_trimChars]

/-- A text without white space is trimmed. -/
theorem trim_of_forall {s : String} (h : ∀ c ∈ s.toList, isWhiteSpace c = false) : trim s = s := by
  have h1 : s.toList.dropWhile isWhiteSpace = s.toList :=
    dropWhile_eq_self_of_head fun c hc => h c (List.mem_of_mem_head? hc)
  have h2 : s.toList.reverse.dropWhile isWhiteSpace = s.toList.reverse :=
    dropWhile_eq_self_of_head fun c hc => h c (List.mem_reverse.mp (List.mem_of_mem_head? hc))
  simp [trim, trimChars, h1, h2]

/-! ## Instants -/

/-- An instant, in nanoseconds from the Unix epoch. -/
abbrev DateTime := ℤ

/-- A signed duration, in nanoseconds. -/
abbrev Duration := ℤ

/-- The first instant of `chrono`'s calendar, `-262143-01-01T00:00:00Z`. -/
def DateTime.minUtc : DateTime := -8334601228800 * 1000000000

/-- The last instant of `chrono`'s calendar, `262142-12-31T23:59:59.999999999Z`. -/
def DateTime.maxUtc : DateTime := 8210266876799 * 1000000000 + 999999999

/-- `DateTime::checked_add_signed`. -/
def DateTime.checkedAddSigned (t : DateTime) (d : Duration) : Option DateTime :=
  if DateTime.minUtc ≤ t + d ∧ t + d ≤ DateTime.maxUtc then some (t + d) else none

/-! ## Double precision -/

/-- The double nearest a natural number, ties to even: 53 significant bits. -/
def roundDouble (n : ℕ) : ℕ :=
  let unit := 2 ^ (Nat.log2 n - 52)
  let q := n / unit
  if 2 * (n % unit) < unit ∨ (2 * (n % unit) = unit ∧ q % 2 = 0) then q * unit else (q + 1) * unit

/-- **A number that is a whole count of its last bit is exact.** -/
theorem roundDouble_of_dvd {n : ℕ} (h : 2 ^ (Nat.log2 n - 52) ∣ n) : roundDouble n = n := by
  have hpos : 0 < 2 ^ (Nat.log2 n - 52) := Nat.two_pow_pos _
  rw [roundDouble]
  simp only [Nat.mod_eq_zero_of_dvd h, Nat.mul_zero, hpos, true_or, if_true]
  exact Nat.div_mul_cancel h

/-! ## Counters -/

/-- `i64::MAX`. -/
def i64Max : ℕ := 9223372036854775807

/-- `u64::MAX`. -/
def u64Max : ℕ := 18446744073709551615

/-- `i64::saturating_sub`, on values of the type. -/
def saturatingSub (a b : ℤ) : ℤ := max (-9223372036854775808) (a - b)


/-- `u32::checked_add`. -/
def checkedAdd (a b : UInt32) : Option UInt32 :=
  if a.toNat + b.toNat < UInt32.size then some (a + b) else none

/-- `u32::saturating_add`. -/
def saturatingAdd (a b : UInt32) : UInt32 := (checkedAdd a b).getD (UInt32.ofNat (UInt32.size - 1))

theorem toNat_add_of_lt {a b : UInt32} (h : a.toNat + b.toNat < UInt32.size) :
    (a + b).toNat = a.toNat + b.toNat := by
  rw [UInt32.toNat_add]
  exact Nat.mod_eq_of_lt h

/-- **A counter below some counter can be incremented.** -/
theorem checkedAdd_one_of_lt {a b : UInt32} (h : a < b) :
    ∃ c, checkedAdd a 1 = some c ∧ c.toNat = a.toNat + 1 := by
  have hb := UInt32.toNat_lt_size b
  have hlt : a.toNat + (1 : UInt32).toNat < UInt32.size := by
    rw [UInt32.lt_iff_toNat_lt] at h
    simp only [UInt32.toNat_one]
    omega
  exact ⟨a + 1, by rw [checkedAdd, if_pos hlt], by rw [toNat_add_of_lt hlt]; rfl⟩

theorem toNat_of_checkedAdd_one {a c : UInt32} (h : checkedAdd a 1 = some c) :
    c.toNat = a.toNat + 1 := by
  unfold checkedAdd at h
  split at h
  · rename_i hlt
    obtain rfl := Option.some.inj h
    exact toNat_add_of_lt hlt
  · cases h

theorem saturatingAdd_of_checkedAdd {a b c : UInt32} (h : checkedAdd a b = some c) :
    saturatingAdd a b = c := by rw [saturatingAdd, h, Option.getD_some]

/-- A size taken from a positive total does not saturate. -/
theorem saturatingSub_of_pos {total : ℤ} {size : ℕ} (htotal : 0 < total) (hsize : size ≤ i64Max) :
    saturatingSub total size = total - size := by
  unfold i64Max at hsize
  rw [saturatingSub]
  omega

end Machinery
