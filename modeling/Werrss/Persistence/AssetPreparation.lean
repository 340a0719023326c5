import Mathlib.Data.List.Dedup
import Mathlib.Data.List.ReduceOption
import Werrss.Persistence.AssetLedger

/-!
# Persistence/AssetPreparation — what preparing a batch finds

    input ─┬─▸ the blob with its body, if a row of the tables has one
           └─▸ the first prepared input before it with the same body

The two maps of a preparation, against tables a ledger describes.
-/

open Machinery

namespace Werrss

namespace AssetRepository

open AssetTables

variable {Url : Type}

/-! ## Inputs with one body -/

/-- The comparison of two inputs. -/
def sameBody (input other : AssetInput Url) : Bool :=
  other.checksum = input.checksum ∧ (inputByteSize other).toOption = (inputByteSize input).toOption ∧
    other.bytes = input.bytes

theorem sameBody_iff {input other : AssetInput Url} : sameBody input other = true ↔
    other.checksum = input.checksum ∧ other.bytes = input.bytes := by
  rw [sameBody, decide_eq_true_iff]
  refine and_congr_right fun _ => ⟨fun h => h.2, fun h => ⟨?_, h⟩⟩
  rw [inputByteSize, inputByteSize, h]

/-- An input the loop does not reach keeps its entry. -/
theorem lookup_matchPrevious_of_notMem {preparationId : Uuid} :
    ∀ {inputs previous : List (AssetInput Url)} {found : List (Uuid × Uuid)},
    preparationId ∉ inputs.map AssetInput.preparationId →
    (matchPrevious previous inputs found).lookup preparationId = found.lookup preparationId
  | [], _, _, _ => rfl
  | input :: inputs, previous, found, h => by
    rw [List.map_cons, List.mem_cons, not_or] at h
    rw [matchPrevious, lookup_matchPrevious_of_notMem h.2]
    split
    · rw [List.lookup_cons, beq_false_of_ne h.1]
    · rfl

/-- **An input is matched with the first one before it.** -/
theorem lookup_matchPrevious {input : AssetInput Url} {rest : List (AssetInput Url)} :
    ∀ {before previous : List (AssetInput Url)} {found : List (Uuid × Uuid)},
    ((before ++ input :: rest).map AssetInput.preparationId).Nodup →
    found.lookup input.preparationId = none →
    (matchPrevious previous (before ++ input :: rest) found).lookup input.preparationId
      = ((previous ++ before).find? (sameBody input)).map (·.preparationId)
  | [], previous, found, hids, hfound => by
    rw [List.nil_append, List.map_cons, List.nodup_cons] at hids
    rw [List.nil_append, List.append_nil, matchPrevious, lookup_matchPrevious_of_notMem hids.1]
    split
    · rename_i other hother
      have hother : previous.find? (sameBody input) = some other := hother
      rw [hother, List.lookup_cons_self, Option.map_some]
    · rename_i hnone
      have hnone : previous.find? (sameBody input) = none := hnone
      rw [hnone, hfound, Option.map_none]
  | other :: before, previous, found, hids, hfound => by
    rw [List.cons_append, List.map_cons, List.nodup_cons] at hids
    have hne : input.preparationId ≠ other.preparationId := fun heq => hids.1 (heq ▸ by simp)
    rw [List.cons_append, matchPrevious, lookup_matchPrevious hids.2 ?_, List.append_assoc,
      List.singleton_append]
    split
    · rw [List.lookup_cons, beq_false_of_ne hne]
      exact hfound
    · exact hfound

/-! ## Candidates -/

variable [Sha2Crate]

/-- **A candidate** is a row that has its bytes. -/
theorem exists_of_mem_candidateBlobs {t : AssetTables} {checksum : String} {byteSize : ℕ}
    {candidates : List (Uuid × AssetBlob)} (h : candidateBlobs t checksum byteSize = .ok candidates)
    {candidate : Uuid × AssetBlob} (hmem : candidate ∈ candidates) :
    ∃ row ∈ t.blobs, row.id = candidate.1 ∧ t.blobRead row.id = .ok (some candidate.2) := by
  rw [candidateBlobs] at h
  obtain ⟨blobs, hblobs, h⟩ := bind_eq_ok h
  obtain rfl := Except.ok.inj h
  obtain ⟨row, hrow, hread⟩ := exists_of_mem_mapM hblobs (List.reduceOption_mem_iff.mp hmem)
  obtain ⟨blob, hblob, hread⟩ := bind_eq_ok hread
  obtain ⟨found, rfl, rfl⟩ := Option.map_eq_some_iff.mp (Except.ok.inj hread)
  rw [candidateRows, List.mem_insertionSort] at hrow
  exact ⟨row, (List.mem_filter.mp hrow).1, rfl, eq_ok_of_ofBlobStore hblob⟩

/-- A row of the checksum and size is read, and what it has is a candidate. -/
theorem mem_candidateBlobs {t : AssetTables} {checksum : String} {byteSize : ℕ}
    {candidates : List (Uuid × AssetBlob)} (h : candidateBlobs t checksum byteSize = .ok candidates)
    {row : AssetBlobRow} (hrow : row ∈ t.blobs) (hchecksum : row.checksum = checksum)
    (hsize : row.byteSize = byteSize) (hqueue : row.id ∉ t.deletionQueue) :
    ∃ read, t.blobRead row.id = .ok read ∧ ∀ blob, read = some blob → (row.id, blob) ∈ candidates := by
  rw [candidateBlobs] at h
  obtain ⟨blobs, hblobs, h⟩ := bind_eq_ok h
  obtain rfl := Except.ok.inj h
  have hcandidate : row ∈ candidateRows t checksum byteSize := by
    rw [candidateRows, List.mem_insertionSort, List.mem_filter]
    exact ⟨hrow, decide_eq_true ⟨hchecksum, hsize, hqueue⟩⟩
  obtain ⟨found, hfound, hread⟩ := mem_of_mapM hblobs hcandidate
  obtain ⟨read, hblob, hread⟩ := bind_eq_ok hread
  refine ⟨read, eq_ok_of_ofBlobStore hblob, fun blob hsome => List.reduceOption_mem_iff.mpr ?_⟩
  obtain rfl := Except.ok.inj hread
  rw [hsome] at hfound
  exact hfound

/-- The blob a preparation finds for an input. -/
def matchCandidate (candidates : List (Uuid × AssetBlob)) (input : AssetInput Url) : Option Uuid :=
  candidates.findSome? fun candidate =>
    if candidate.2.bytes = input.bytes then some candidate.1 else none

/-- The candidates of an input are those of its checksum and size. -/
def Matched (t : AssetTables) (input : AssetInput Url) (found : Option Uuid) : Prop :=
  ∃ candidates, candidateBlobs t input.checksum input.bytes.length = .ok candidates ∧
    found = matchCandidate candidates input

/-- An entry is read with its body. -/
theorem bytes_of_blobRead {ledger : AssetLedger} {t : AssetTables} (h : ledger.Describes t)
    {id : Uuid} {body : List UInt8} (hentry : (id, body) ∈ ledger.entries)
    {read : Option AssetBlob} (hread : t.blobRead id = .ok read) :
    ∃ blob, read = some blob ∧ blob.bytes = body := by
  obtain ⟨row, hrow, -, hcontents⟩ := h.findBlob hentry
  obtain ⟨-, -, hsize, hdata⟩ := AssetLedger.Describes.eq_of_contents hcontents
  rw [blobRead_of_findBlob hrow, AssetBlobRow.read, hdata] at hread
  dsimp only at hread
  rw [if_neg (not_not.mpr hsize), AssetBlob.new] at hread
  split_ifs at hread
  · cases hread
  · cases hread
  · exact ⟨_, (Except.ok.inj hread).symm, rfl⟩

/-- **What is found for an input**: the entry of its body. -/
theorem Matched.entry {ledger : AssetLedger} {t : AssetTables} (h : ledger.Describes t)
    {input : AssetInput Url} {found : Option Uuid} (hfound : Matched t input found) :
    (∀ id, found = some id → (id, input.bytes) ∈ ledger.entries) ∧
      (found = none → input.checksumMatchesBytes = true → input.bytes ∉ ledger.bodies) := by
  obtain ⟨candidates, hcandidates, rfl⟩ := hfound
  refine ⟨fun id hid => ?_, fun hnone hchecksum hmem => ?_⟩
  · obtain ⟨candidate, hmem, hcandidate⟩ := List.exists_of_findSome?_eq_some hid
    split_ifs at hcandidate with hbytes
    obtain rfl := Option.some.inj hcandidate
    obtain ⟨row, hrow, hid, hread⟩ := exists_of_mem_candidateBlobs hcandidates hmem
    obtain ⟨entry, hentry, hcontents⟩ := h.contents_of_mem hrow
    obtain ⟨hrowId, -⟩ := AssetLedger.Describes.eq_of_contents hcontents
    rw [hrowId] at hread
    obtain ⟨blob, hblob, hbody⟩ := bytes_of_blobRead h hentry hread
    obtain rfl := Option.some.inj hblob
    rw [← hid, hrowId, ← hbytes, hbody]
    exact hentry
  · obtain ⟨⟨id, body⟩, hentry, rfl⟩ := List.mem_map.mp hmem
    obtain ⟨row, hrow, hcontents⟩ := h.row_of_mem hentry
    obtain ⟨hrowId, hrowChecksum, hrowSize, -⟩ := AssetLedger.Describes.eq_of_contents hcontents
    have hsum : Sha2Crate.sha256Hex input.bytes = input.checksum := by
      simpa [AssetInput.checksumMatchesBytes] using hchecksum
    obtain ⟨read, hread, hcandidate⟩ := mem_candidateBlobs hcandidates hrow
      (hrowChecksum.trans hsum) hrowSize (h.unqueued ▸ List.not_mem_nil)
    rw [hrowId] at hread
    obtain ⟨blob, rfl, hbody⟩ := bytes_of_blobRead h hentry hread
    have hfound := List.findSome?_eq_none_iff.mp hnone _ (hcandidate blob rfl)
    rw [if_pos hbody] at hfound
    exact nomatch hfound

/-! ## The maps -/

variable [UrlCrate Url]

omit [UrlCrate Url] [Sha2Crate] in
/-- The entries a round adds for the inputs of its key. -/
theorem lookup_foldl_push {f : AssetInput Url → Option Uuid} {keyed : List (AssetInput Url)}
    (hids : (keyed.map AssetInput.preparationId).Nodup) (found : List (Uuid × Option Uuid)) :
    (∀ input ∈ keyed, (keyed.foldl (fun found input => (input.preparationId, f input) :: found)
      found).lookup input.preparationId = some (f input)) ∧
    ∀ preparationId ∉ keyed.map AssetInput.preparationId,
      (keyed.foldl (fun found input => (input.preparationId, f input) :: found)
        found).lookup preparationId = found.lookup preparationId := by
  induction keyed generalizing found with
  | nil => exact ⟨nofun, fun _ _ => rfl⟩
  | cons input keyed ih =>
    rw [List.map_cons, List.nodup_cons] at hids
    obtain ⟨hmem, hnot⟩ := ih hids.2 ((input.preparationId, f input) :: found)
    refine ⟨fun other hother => ?_, fun preparationId hother => ?_⟩
    · rcases List.mem_cons.mp hother with rfl | hother
      · rw [List.foldl_cons, hnot _ hids.1, List.lookup_cons_self]
      · exact hmem other hother
    · rw [List.map_cons, List.mem_cons, not_or] at hother
      rw [List.foldl_cons, hnot _ hother.2, List.lookup_cons, beq_false_of_ne hother.1]

/-- **What a preparation knows of an input** that stands behind `previous`. -/
structure Finds (t : AssetTables) (preparation : AssetBatchPreparation)
    (previous : List (AssetInput Url)) (input : AssetInput Url) : Prop where
  blob : ∃ found, preparation.matchingBlob input = .ok found ∧ Matched t input found
  input : preparation.matchingInput input
    = (previous.find? (sameBody input)).map (·.preparationId)

omit [UrlCrate Url] in
/-- The loop over the keys of the inputs. -/
theorem matched_of_foldlM {t : AssetTables} {inputs : List (AssetInput Url)}
    (hids : (inputs.map AssetInput.preparationId).Nodup)
    (hsizes : ∀ input ∈ inputs, inputByteSize input = .ok input.bytes.length)
    {keys : List (String × ℕ)} {found : List (Uuid × Option Uuid)}
    (h : keys.foldlM (fun found key => do
        let candidates ← candidateBlobs t key.1 key.2
        return (inputs.filter fun input : AssetInput Url =>
            input.checksum = key.1 ∧ (inputByteSize input).toOption = some key.2).foldl
          (fun found input =>
            (AssetInput.preparationId input, matchCandidate candidates input) :: found) found)
      (inputs.map fun input : AssetInput Url => (input.preparationId, none)) = .ok found) :
    ∀ input ∈ inputs, ∃ blobId, found.lookup input.preparationId = some blobId ∧
      ((input.checksum, input.bytes.length) ∈ keys → Matched t input blobId) := by
  refine @foldlM_invariant _ _ _ _ (fun done (found : List (Uuid × Option Uuid)) =>
    ∀ input ∈ inputs, ∃ blobId, found.lookup input.preparationId = some blobId ∧
      ((input.checksum, input.bytes.length) ∈ done → Matched t input blobId)) ?_ _ [] _ _ ?_ h
  · intro done key found found' hinv hround input hinput
    obtain ⟨candidates, hcandidates, hround⟩ := bind_eq_ok hround
    obtain rfl := Except.ok.inj hround
    have hkeyed : ((inputs.filter fun input => decide (input.checksum = key.1 ∧
        (inputByteSize input).toOption = some key.2)).map AssetInput.preparationId).Nodup :=
      (List.filter_sublist.map _).nodup hids
    obtain ⟨hmem, hnot⟩ := lookup_foldl_push (f := matchCandidate candidates) hkeyed found
    by_cases hkey : input.checksum = key.1 ∧ (inputByteSize input).toOption = some key.2
    · refine ⟨_, hmem input (List.mem_filter.mpr ⟨hinput, decide_eq_true hkey⟩), fun _ =>
        ⟨candidates, ?_, rfl⟩⟩
      have hsize : input.bytes.length = key.2 := by
        have htoOption := hkey.2
        rw [hsizes input hinput] at htoOption
        exact Option.some.inj htoOption
      rw [hkey.1, hsize]
      exact hcandidates
    · have hother : input.preparationId ∉ (inputs.filter fun input =>
          decide (input.checksum = key.1 ∧ (inputByteSize input).toOption = some key.2)).map
            AssetInput.preparationId := by
        intro hid
        obtain ⟨other, hother, heq⟩ := List.mem_map.mp hid
        obtain ⟨hotherMem, hotherKey⟩ := List.mem_filter.mp hother
        obtain rfl := List.inj_on_of_nodup_map hids hotherMem hinput heq
        exact hkey (of_decide_eq_true hotherKey)
      obtain ⟨blobId, hlookup, hmatched⟩ := hinv input hinput
      refine ⟨blobId, (hnot _ hother).trans hlookup, fun hdone => ?_⟩
      rcases List.mem_append.mp hdone with hdone | hlast
      · exact hmatched hdone
      · obtain rfl := List.mem_singleton.mp hlast
        refine absurd ⟨rfl, ?_⟩ hkey
        rw [hsizes input hinput]
        rfl
  · intro input hinput
    refine ⟨none, (lookup_eq_some_iff_mem ?_).mpr (List.mem_map_of_mem hinput),
      fun hnone => absurd hnone List.not_mem_nil⟩
    rw [List.map_map]
    exact hids

theorem finds_of_prepare {t : AssetTables} {inputs : List (AssetInput Url)}
    (hids : (inputs.map AssetInput.preparationId).Nodup) {preparation : AssetBatchPreparation}
    (h : prepareAssetBatch t inputs = .ok preparation) {previous rest : List (AssetInput Url)}
    {input : AssetInput Url} (hinputs : inputs = previous ++ input :: rest) :
    Finds t preparation previous input := by
  rw [prepareAssetBatch] at h
  obtain ⟨keys, hkeys, h⟩ := bind_eq_ok h
  obtain ⟨matchingBlobs, hmatching, h⟩ := bind_eq_ok h
  obtain rfl := Except.ok.inj h
  refine ⟨?_, ?_⟩
  · have hmem : input ∈ inputs := hinputs ▸ List.mem_append_right _ List.mem_cons_self
    have hkeyOf : ∀ other ∈ inputs, inputByteSize other = .ok other.bytes.length ∧
        (other.checksum, other.bytes.length) ∈ keys := by
      intro other hother
      obtain ⟨key, hkey, hsize⟩ := mem_of_mapM hkeys hother
      obtain ⟨size, hlength, hpair⟩ := bind_eq_ok hsize
      obtain rfl := inputByteSize_eq hlength
      obtain rfl := Except.ok.inj hpair
      exact ⟨hlength, hkey⟩
    obtain ⟨blobId, hlookup, hmatched⟩ :=
      matched_of_foldlM hids (fun other hother => (hkeyOf other hother).1) hmatching input hmem
    refine ⟨blobId, ?_, hmatched (List.mem_dedup.mpr ?_)⟩
    · rw [AssetBatchPreparation.matchingBlob, hlookup]
    · exact (List.mem_insertionSort _).mpr (hkeyOf input hmem).2
  · subst hinputs
    rw [AssetBatchPreparation.matchingInput, lookup_matchPrevious hids rfl, List.nil_append]

end AssetRepository

end Werrss
