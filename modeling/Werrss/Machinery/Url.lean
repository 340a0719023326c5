import Mathlib.Data.List.TakeWhile
import Werrss.Machinery.Std

/-!
# Machinery/Url — the part of the `url` crate the development uses

Parsing and serialising URLs is not modelled: a type of URLs is any type with the crate's
accessors, and the laws used are the crate's documented ones (a URL is its serialisation, and its
serialisation parses back to it).
-/

namespace Machinery

/-- A type of parsed URLs with the accessors of `url::Url`. -/
class UrlCrate (Url : Type) where
  parse : String → Option Url
  asStr : Url → String
  scheme : Url → String
  hostStr : Url → Option String
  username : Url → String
  password : Url → Option String
  port : Url → Option ℕ
  path : Url → String
  fragment : Url → Option String
  queryPairs : Url → List (String × String)
  /-- `set_port(None)` -/
  clearPort : Url → Url
  /-- `set_fragment(None)` -/
  clearFragment : Url → Url
  setPath : Url → String → Url
  join : Url → String → Option Url

/-- `format!("{}/", path.trim_end_matches('/'))`. -/
def directoryPath (path : String) : String :=
  String.ofList ((path.toList.reverse.dropWhile (· = '/')).reverse ++ ['/'])

/-- The documented laws of `url::Url`. -/
class LawfulUrlCrate (Url : Type) [UrlCrate Url] : Prop where
  /-- `Eq` compares serialisations. -/
  asStr_injective : Function.Injective (UrlCrate.asStr : Url → String)
  /-- Serialising and parsing again is the identity. -/
  parse_asStr (u : Url) : UrlCrate.parse (UrlCrate.asStr u) = some u
  asStr_ne_empty (u : Url) : UrlCrate.asStr u ≠ ""
  /-- A serialisation is printable ASCII. -/
  asStr_printable (u : Url) : ∀ c ∈ (UrlCrate.asStr u).toList, ' ' ≤ c ∧ c ≤ '~'
  /-- The serialisation of an `http` or `https` URL holds neither a space nor a double quote: both
  are percent-encoded in every component. -/
  asStr_encoded (u : Url) : UrlCrate.scheme u = "http" ∨ UrlCrate.scheme u = "https" →
    ∀ c ∈ (UrlCrate.asStr u).toList, c ≠ ' ' ∧ c ≠ '"'
  port_clearPort (u : Url) : UrlCrate.port (UrlCrate.clearPort u) = none
  scheme_clearPort (u : Url) : UrlCrate.scheme (UrlCrate.clearPort u) = UrlCrate.scheme u
  hostStr_clearPort (u : Url) : UrlCrate.hostStr (UrlCrate.clearPort u) = UrlCrate.hostStr u
  username_clearPort (u : Url) : UrlCrate.username (UrlCrate.clearPort u) = UrlCrate.username u
  password_clearPort (u : Url) : UrlCrate.password (UrlCrate.clearPort u) = UrlCrate.password u
  fragment_clearPort (u : Url) : UrlCrate.fragment (UrlCrate.clearPort u) = UrlCrate.fragment u
  queryPairs_clearPort (u : Url) :
    UrlCrate.queryPairs (UrlCrate.clearPort u) = UrlCrate.queryPairs u
  /-- A reference without a scheme is no URL. -/
  parse_relative (s : String) : s.toList.head? = some '/' → (UrlCrate.parse s : Option Url) = none
  scheme_setPath (u : Url) (path : String) :
    UrlCrate.scheme (UrlCrate.setPath u path) = UrlCrate.scheme u
  /-- The own path of an `http` or `https` URL, made to end in one slash, can be set. -/
  path_setPath (u : Url) : UrlCrate.scheme u = "http" ∨ UrlCrate.scheme u = "https" →
    (UrlCrate.path (UrlCrate.setPath u (directoryPath (UrlCrate.path u)))).toList
      = (directoryPath (UrlCrate.path u)).toList
  /-- Joining a plain relative reference to an `http` or `https` directory appends it to the
  path. -/
  join_plain (u : Url) (segment : String) :
    UrlCrate.scheme u = "http" ∨ UrlCrate.scheme u = "https" →
    (UrlCrate.path u).toList.getLast? = some '/' →
    segment ≠ "" → (∀ c ∈ segment.toList, c.isLower ∨ c.isDigit ∨ c = '-' ∨ c = '/') →
    segment.toList.head? ≠ some '/' →
    ∃ v, UrlCrate.join u segment = some v ∧ UrlCrate.scheme v = UrlCrate.scheme u ∧
      (UrlCrate.path v).toList = (UrlCrate.path u).toList ++ segment.toList

/-- The documented laws of `set_fragment(None)`: the other components stay. -/
class LawfulUrlFragment (Url : Type) [UrlCrate Url] : Prop where
  scheme_clearFragment (u : Url) : UrlCrate.scheme (UrlCrate.clearFragment u) = UrlCrate.scheme u
  hostStr_clearFragment (u : Url) :
    UrlCrate.hostStr (UrlCrate.clearFragment u) = UrlCrate.hostStr u
  username_clearFragment (u : Url) :
    UrlCrate.username (UrlCrate.clearFragment u) = UrlCrate.username u
  password_clearFragment (u : Url) :
    UrlCrate.password (UrlCrate.clearFragment u) = UrlCrate.password u

/-- The texts `Uuid::parse_str` accepts.  Whatever form they have (simple, hyphenated, braced or
URN), they hold no character that HTML escapes. -/
structure UuidParser where
  accepts : List Char → Bool
  accepts_plain : ∀ s, accepts s = true → ∀ c ∈ s, c ∉ ['&', '<', '>', '"', '\'']

/-- The lower-case hyphenated spelling of a UUID. -/
def hyphenatedUuid : UuidParser where
  accepts s := s.length == 36 && s.all fun c => c.isDigit || c.isLower || c == '-'
  accepts_plain s h c hc hmem := by
    simp only [Bool.and_eq_true, List.all_eq_true] at h
    have hplain := h.2 c hc
    clear h hc
    simp only [List.mem_cons, List.not_mem_nil, or_false] at hmem
    rcases hmem with rfl | rfl | rfl | rfl | rfl <;> exact absurd hplain (by decide)

/-! ## Plain URLs

The `https` URLs over lower-case letters, digits and `-`, `.`, `/`, with neither port, query nor
fragment: a type of URLs that computes. -/

/-- The characters of a plain URL after its scheme. -/
def isPlainChar (c : Char) : Bool :=
  c.isLower || c.isDigit || c == '-' || c == '.' || c == '/'

/-- The text of a plain URL. -/
def isPlainText (s : String) : Bool :=
  s.toList.take 8 == "https://".toList && (s.toList.drop 8).all isPlainChar &&
    (s.toList.drop 8).contains '/'

structure PlainUrl where
  text : String
  plain : isPlainText text = true
deriving DecidableEq

theorem isPlainText_firstImage : isPlainText "https://a/p" = true := by
  decide

theorem isPlainText_secondImage : isPlainText "https://a/q" = true := by
  decide

namespace PlainUrl

def parse (s : String) : Option PlainUrl :=
  if h : isPlainText s = true then some ⟨s, h⟩ else none

def host (u : PlainUrl) : String := String.ofList ((u.text.toList.drop 8).takeWhile (· ≠ '/'))

def path (u : PlainUrl) : String := String.ofList ((u.text.toList.drop 8).dropWhile (· ≠ '/'))

def setPath (u : PlainUrl) (path : String) : PlainUrl :=
  (parse (String.ofList ("https://".toList ++ (u.host.toList ++ path.toList)))).getD u

/-- Joining a relative segment to a URL whose path ends in `/`. -/
def join (u : PlainUrl) (segment : String) : Option PlainUrl :=
  parse (String.ofList (u.text.toList ++ segment.toList))

instance : UrlCrate PlainUrl where
  parse := parse
  asStr := text
  scheme _ := "https"
  hostStr u := some u.host
  username _ := ""
  password _ := none
  port _ := none
  path := path
  fragment _ := none
  queryPairs _ := []
  clearPort := id
  clearFragment := id
  setPath := setPath
  join := join

theorem mem_text {u : PlainUrl} {c : Char} (hc : c ∈ u.text.toList) :
    c ∈ "https://".toList ∨ isPlainChar c = true := by
  have h := u.plain
  simp only [isPlainText, Bool.and_eq_true, beq_iff_eq, List.all_eq_true] at h
  rw [← List.take_append_drop 8 u.text.toList] at hc
  rcases List.mem_append.mp hc with hc | hc
  · exact .inl (h.1.1 ▸ hc)
  · exact .inr (h.1.2 c hc)

/-- The lower-case letters are those from `a` to `z`. -/
theorem toNat_of_isLower {c : Char} (h : c.isLower = true) : 97 ≤ c.toNat ∧ c.toNat ≤ 122 := by
  have h' : (decide (c.val ≥ 97) && decide (c.val ≤ 122)) = true := h
  rw [Bool.and_eq_true, decide_eq_true_eq, decide_eq_true_eq, ge_iff_le, UInt32.le_iff_toNat_le,
    UInt32.le_iff_toNat_le] at h'
  exact h'

theorem mem_text_bounds {u : PlainUrl} {c : Char} (hc : c ∈ u.text.toList) :
    45 ≤ c.toNat ∧ c.toNat ≤ 122 := by
  rcases mem_text hc with hc | hc
  · exact forall_mem_of_all (P := fun c : Char => 45 ≤ c.toNat ∧ c.toNat ≤ 122) (by decide) c hc
  · simp only [isPlainChar, Char.isDigit, Bool.or_eq_true, Bool.and_eq_true,
      decide_eq_true_eq, beq_iff_eq, ge_iff_le, UInt32.le_iff_toNat_le] at hc
    rcases hc with (((h | h) | rfl) | rfl) | rfl
    · have h := toNat_of_isLower h
      omega
    · change 48 ≤ c.toNat ∧ c.toNat ≤ 57 at h
      omega
    · decide
    · decide
    · decide

theorem path_eq (u : PlainUrl) :
    u.text.toList = "https://".toList ++ (u.host.toList ++ u.path.toList) := by
  have h := u.plain
  simp only [isPlainText, Bool.and_eq_true, beq_iff_eq] at h
  rw [← h.1.1, host, path, String.toList_ofList, String.toList_ofList, List.takeWhile_append_dropWhile,
    List.take_append_drop]

theorem mem_path_plain {u : PlainUrl} {c : Char} (hc : c ∈ u.path.toList) : isPlainChar c = true := by
  have h := u.plain
  simp only [isPlainText, Bool.and_eq_true, List.all_eq_true] at h
  rw [path, String.toList_ofList] at hc
  exact h.1.2 c (List.dropWhile_suffix _ |>.subset hc)

theorem mem_host_plain {u : PlainUrl} {c : Char} (hc : c ∈ u.host.toList) :
    isPlainChar c = true ∧ c ≠ '/' := by
  have h := u.plain
  simp only [isPlainText, Bool.and_eq_true, List.all_eq_true] at h
  rw [host, String.toList_ofList] at hc
  exact ⟨h.1.2 c (List.takeWhile_prefix _ |>.subset hc), by simpa using List.mem_takeWhile_imp hc⟩

/-- The URL of a host and a plain path that begins with a slash. -/
theorem parse_host_path (u : PlainUrl) {p : List Char} (hhead : p.head? = some '/')
    (hp : ∀ c ∈ p, isPlainChar c = true) :
    ∃ v, parse (String.ofList ("https://".toList ++ (u.host.toList ++ p))) = some v ∧
      v.path.toList = p := by
  have hdrop : ("https://".toList ++ (u.host.toList ++ p)).drop 8 = u.host.toList ++ p := rfl
  have htake : ("https://".toList ++ (u.host.toList ++ p)).take 8 = "https://".toList := rfl
  have hplain : isPlainText (String.ofList ("https://".toList ++ (u.host.toList ++ p))) = true := by
    simp only [isPlainText, String.toList_ofList, hdrop, htake, Bool.and_eq_true, List.all_eq_true,
      beq_self_eq_true, true_and, List.contains_iff_mem]
    refine ⟨fun c hc => ?_, List.mem_append_right _ (List.mem_of_mem_head? hhead)⟩
    rcases List.mem_append.mp hc with hc | hc
    · exact (mem_host_plain hc).1
    · exact hp c hc
  refine ⟨⟨_, hplain⟩, dif_pos hplain, ?_⟩
  rw [path, String.toList_ofList, String.toList_ofList, hdrop]
  have hhost : u.host.toList.dropWhile (· ≠ '/') = [] := by
    rw [List.dropWhile_eq_nil_iff]
    intro c hc
    simpa using (mem_host_plain hc).2
  rw [List.dropWhile_append, hhost, List.isEmpty_nil, if_pos rfl]
  exact dropWhile_eq_self_of_head fun c hc => by
    rw [hhead] at hc
    obtain rfl : '/' = c := by simpa using hc
    decide

theorem head_path (u : PlainUrl) : u.path.toList.head? = some '/' := by
  have h := u.plain
  simp only [isPlainText, Bool.and_eq_true, List.contains_iff_mem] at h
  cases hp : u.path.toList with
  | nil =>
    rw [path, String.toList_ofList, List.dropWhile_eq_nil_iff] at hp
    exact absurd (hp _ h.2) (by decide)
  | cons c cs =>
    rw [path, String.toList_ofList] at hp
    have hc := head_dropWhile (congrArg List.head? hp)
    simpa using hc

theorem directoryPath_path (u : PlainUrl) : (directoryPath u.path).toList.head? = some '/' ∧
    ∀ c ∈ (directoryPath u.path).toList, isPlainChar c = true := by
  obtain ⟨tail, htail⟩ := List.dropWhile_suffix (fun c => decide (c = '/'))
    (l := u.path.toList.reverse)
  have hsplit : u.path.toList
      = (u.path.toList.reverse.dropWhile (fun c => decide (c = '/'))).reverse ++ tail.reverse := by
    rw [← List.reverse_append, htail, List.reverse_reverse]
  rw [directoryPath, String.toList_ofList]
  refine ⟨?_, fun c hc => ?_⟩
  · have hhead := head_path u
    rw [hsplit] at hhead
    cases hd : (u.path.toList.reverse.dropWhile (fun c => decide (c = '/'))).reverse with
    | nil => rfl
    | cons d ds =>
      rw [hd] at hhead
      simpa using hhead
  · rcases List.mem_append.mp hc with hc | hc
    · refine mem_path_plain (u := u) ?_
      rw [hsplit]
      exact List.mem_append_left _ hc
    · rw [List.mem_singleton.mp hc]
      decide

instance : LawfulUrlCrate PlainUrl where
  asStr_injective u v h := by
    cases u
    cases v
    exact PlainUrl.mk.injEq .. ▸ h
  parse_asStr u := dif_pos u.plain
  asStr_ne_empty u h := by
    have hp := u.plain
    rw [show u.text = "" from h] at hp
    cases hp
  asStr_printable u c hc := by
    obtain ⟨hlo, hhi⟩ := mem_text_bounds hc
    have hlo' : 32 ≤ c.toNat := by omega
    have hhi' : c.toNat ≤ 126 := by omega
    exact ⟨hlo', hhi'⟩
  asStr_encoded u _ c hc := by
    obtain ⟨hlo, -⟩ := mem_text_bounds hc
    refine ⟨fun h => ?_, fun h => ?_⟩ <;>
    · rw [h] at hlo
      exact absurd hlo (by decide)
  port_clearPort _ := rfl
  scheme_clearPort _ := rfl
  hostStr_clearPort _ := rfl
  username_clearPort _ := rfl
  password_clearPort _ := rfl
  fragment_clearPort _ := rfl
  queryPairs_clearPort _ := rfl
  parse_relative s h := by
    refine dif_neg fun hp => ?_
    simp only [isPlainText, Bool.and_eq_true, beq_iff_eq] at hp
    cases hs : s.toList with
    | nil => rw [hs] at h; cases h
    | cons c cs =>
      rw [hs] at h hp
      obtain rfl : c = '/' := by simpa using h
      have := congrArg List.head? hp.1.1
      simp at this
  scheme_setPath _ _ := rfl
  path_setPath u _ := by
    obtain ⟨hhead, hplain⟩ := directoryPath_path u
    obtain ⟨v, hv, hpath⟩ := parse_host_path u hhead hplain
    change (setPath u (directoryPath u.path)).path.toList = _
    rw [setPath, hv, Option.getD_some, hpath]
    rfl
  join_plain u segment _ _ _ hchars _ := by
    have hhead : (u.path.toList ++ segment.toList).head? = some '/' := by
      rw [List.head?_append, head_path u, Option.some_or]
    have hplain : ∀ c ∈ u.path.toList ++ segment.toList, isPlainChar c = true := by
      intro c hc
      rcases List.mem_append.mp hc with hc | hc
      · exact mem_path_plain hc
      · simp only [isPlainChar, Bool.or_eq_true, beq_iff_eq]
        rcases hchars c hc with h | h | h | h <;> simp [h]
    obtain ⟨v, hv, hpath⟩ := parse_host_path u hhead hplain
    refine ⟨v, ?_, rfl, hpath⟩
    change join u segment = some v
    rw [join, path_eq, List.append_assoc, List.append_assoc, hv]

instance : LawfulUrlFragment PlainUrl := ⟨fun _ => rfl, fun _ => rfl, fun _ => rfl, fun _ => rfl⟩

end PlainUrl

end Machinery
