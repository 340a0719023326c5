import Werrss.Application.AuthService
import Werrss.Archive.AssetStore
import Werrss.Machinery.Calls

/-!
# Persistence/OpenDalBlobStore — a blob as two objects of an OpenDAL backend

    put   body ─▸ sidecar (checksum, media type, size)      conditional writes, root or not
          sidecar ─▸ body                                   FTP, under a lock
    read  sidecar ─▸ body ─▸ sizes equal ─▸ checksum equal

Every operation is a program over the calls of the backend: two objects, each read, written and
deleted by itself.  What a call does is left to the backend: it may answer nothing of what it has
done, and a program may be cut short between any two of them.
-/

open Machinery

namespace Werrss

/-! ## The backend -/

/-- The kinds of `opendal::Error` the store tells apart. -/
inductive OpenDalErrorKind
  | notFound | alreadyExists | conditionNotMatch | unexpected
deriving DecidableEq, Repr

/-- `opendal::Error`: its kind, and how it is displayed. -/
structure OpenDalError where
  kind : OpenDalErrorKind
  text : String
deriving DecidableEq, Repr

/-- The two objects of a key. -/
inductive BlobObject
  | body | sidecar
deriving DecidableEq, Repr

/-- A call of the operator. -/
inductive BlobCall
  | read (object : BlobObject)
  | stat (object : BlobObject)
  | write (object : BlobObject) (bytes : List UInt8) (conditional : Bool)
  | delete (object : BlobObject)
deriving DecidableEq, Repr

/-- The call changes nothing. -/
def BlobCall.IsRead : BlobCall → Prop
  | .read _ => True
  | .stat _ => True
  | _ => False

/-- A program over the calls of one key. -/
abbrev BlobIO := Calls BlobCall (Except OpenDalError (List UInt8))

/-- What an operation of the store answers. -/
abbrev BlobResult (A : Type) := Except AssetBlobStoreError A

/-- `backend_error`. -/
def backendError (error : OpenDalError) : AssetBlobStoreError := .backend error.text

/-- `is_existing_error`. -/
def isExistingError (error : OpenDalError) : Bool :=
  error.kind = .alreadyExists || error.kind = .conditionNotMatch

/-- How an error of the store is displayed. -/
def AssetBlobStoreError.display : AssetBlobStoreError → String
  | .invalidMetadata => "asset blob metadata is invalid"
  | .checksumMismatch => "asset blob checksum does not match its bytes"
  | .conflict => "asset blob key already contains different data"
  | .sizeOverflow => "asset blob size is outside the backend range"
  | .backend message => "asset blob backend error: " ++ message

/-! ## The sidecar -/

structure StoredMetadata where
  checksum : String
  mediaType : String
  byteSize : ℕ
deriving DecidableEq, Repr

/-- `serde_json` on the sidecar; an error is what it is displayed as. -/
class MetadataJson where
  toVec : StoredMetadata → List UInt8
  fromSlice : List UInt8 → Except String StoredMetadata

/-- What is written is read back, nothing shorter is a document, and it is one line. -/
class LawfulMetadataJson extends MetadataJson where
  fromSlice_toVec : ∀ metadata, fromSlice (toVec metadata) = .ok metadata
  fromSlice_prefix : ∀ (metadata : StoredMetadata) (bytes : List UInt8),
    bytes <+: toVec metadata → bytes ≠ toVec metadata → ∃ message, fromSlice bytes = .error message
  newline_not_mem : ∀ metadata, (10 : UInt8) ∉ toVec metadata

/-- The metadata of a blob. -/
def AssetBlob.storedMetadata (blob : AssetBlob) : StoredMetadata :=
  ⟨blob.checksum, blob.mediaType, blob.byteSize⟩

/-- `parse_ftp_metadata`: the last line that is a document. -/
def parseFtpMetadata [MetadataJson] (bytes : List UInt8) : Option StoredMetadata :=
  ((bytes.splitOn 10).filter fun record => !record.isEmpty).foldl
    (fun latest record =>
      match MetadataJson.fromSlice record with
      | .ok metadata => some metadata
      | .error _ => latest) none

/-- What the backend is: on the file system, or FTP. -/
structure OpenDalBackend where
  hasRoot : Bool
  isFtp : Bool
deriving DecidableEq, Repr

namespace OpenDalBlobStore

open Calls

/-! ## Single objects -/

/-- `read_object_bytes`. -/
def readObjectBytes (object : BlobObject) : BlobIO (BlobResult (Option (List UInt8))) := do
  match ← ask (.read object) with
  | .ok bytes => return .ok (some bytes)
  | .error error =>
    if error.kind = .notFound then return .ok none else return .error (backendError error)

/-- `delete_object`, `delete_body`. -/
def deleteObject (object : BlobObject) : BlobIO (BlobResult Unit) := do
  match ← ask (.delete object) with
  | .ok _ => return .ok ()
  | .error error =>
    if error.kind = .notFound then return .ok () else return .error (backendError error)

/-- `delete_locked_objects`, `delete`. -/
def delete : BlobIO (BlobResult Unit) := do
  match ← deleteObject .body with
  | .error error => return .error error
  | .ok () => deleteObject .sidecar

variable [Sha2Crate] [MetadataJson] (backend : OpenDalBackend)

/-! ## Reading -/

/-- `read_metadata`. -/
def readMetadata : BlobIO (BlobResult (Option StoredMetadata)) := do
  match ← ask (.read .sidecar) with
  | .error error =>
    if error.kind = .notFound then return .ok none else return .error (backendError error)
  | .ok bytes =>
    if backend.isFtp then return .ok (parseFtpMetadata bytes)
    else
      match MetadataJson.fromSlice bytes with
      | .ok metadata => return .ok (some metadata)
      | .error message => return .error (.backend message)

/-- `read`. -/
def read : BlobIO (BlobResult (Option AssetBlob)) := do
  match ← readMetadata backend with
  | .error error => return .error error
  | .ok none => return .ok none
  | .ok (some metadata) =>
    match ← ask (.read .body) with
    | .error error =>
      if error.kind = .notFound then return .ok none else return .error (backendError error)
    | .ok bytes =>
      if bytes.length ≠ metadata.byteSize then return .ok none
      else return (AssetBlob.new bytes metadata.mediaType metadata.checksum).map some

/-! ## Writing -/

/-- `write_metadata_with_condition`. -/
def writeMetadataWithCondition (blob : AssetBlob) (conditional : Bool) :
    BlobIO (BlobResult Unit) := do
  match ← ask (.write .sidecar (MetadataJson.toVec blob.storedMetadata) conditional) with
  | .ok _ => return .ok ()
  | .error error =>
    if isExistingError error then
      match ← read backend with
      | .error error => return .error error
      | .ok (some existing) =>
        if existing = blob then return .ok () else return .error .conflict
      | .ok none => return .error (backendError error)
    else return .error (backendError error)

/-- `write_metadata`. -/
def writeMetadata (blob : AssetBlob) : BlobIO (BlobResult Unit) :=
  writeMetadataWithCondition backend blob true

/-- The end of `reconcile_external_write`: the sidecar is written once more, and read back. -/
def retryMetadata (blob : AssetBlob) (originalError : String) : BlobIO (BlobResult Unit) := do
  match ← writeMetadata backend blob with
  | .error retryError =>
    let failure : AssetBlobStoreError := .backend ("external blob write could not be reconciled: "
      ++ originalError ++ "; metadata retry failed: " ++ retryError.display)
    if backend.hasRoot then
      match ← delete with
      | .ok () => return .error failure
      | .error cleanupError =>
        return .error (.backend
          (failure.display ++ "; body cleanup failed: " ++ cleanupError.display))
    else return .error failure
  | .ok () =>
    match ← read backend with
    | .ok (some existing) =>
      if existing = blob then return .ok () else return .error .conflict
    | .ok none =>
      return .error (.backend ("external blob write could not be reconciled: " ++ originalError
        ++ "; metadata remained unavailable"))
    | .error error =>
      return .error (.backend ("external blob write could not be reconciled: " ++ originalError
        ++ "; final read failed: " ++ error.display))

/-- `reconcile_external_write`. -/
def reconcileExternalWrite (blob : AssetBlob) (originalError : AssetBlobStoreError) :
    BlobIO (BlobResult Unit) := do
  match ← ask (.stat .body) with
  | .error error =>
    if error.kind = .notFound then return .error (.backend originalError.display)
    else
      return .error (.backend ("external blob write could not be reconciled: "
        ++ originalError.display ++ "; body check failed: " ++ error.text))
  | .ok _ =>
    match ← read backend with
    | .ok (some existing) =>
      if existing = blob then return .ok () else return .error .conflict
    | .error error =>
      return .error (.backend ("external blob write could not be reconciled: "
        ++ originalError.display ++ "; read failed: " ++ error.display))
    | .ok none => retryMetadata backend blob originalError.display

/-- `recover_body_only_partial_write`. -/
def recoverBodyOnlyPartialWrite (blob : AssetBlob) (originalError : OpenDalError) :
    BlobIO (BlobResult Unit) := do
  match ← ask (.read .body) with
  | .error error =>
    if error.kind = .notFound then return .error (backendError originalError)
    else if backend.hasRoot then return .error (backendError error)
    else reconcileExternalWrite backend blob (backendError error)
  | .ok bytes =>
    if bytes ≠ blob.bytes then
      if backend.hasRoot then
        match ← deleteObject .body with
        | .error cleanupError =>
          return .error (.backend ("partial body conflicts with requested blob: "
            ++ originalError.text ++ "; cleanup failed: " ++ cleanupError.display))
        | .ok () => return .error .conflict
      else return .error .conflict
    else
      match ← writeMetadata backend blob with
      | .ok () => return .ok ()
      | .error metadataError =>
        if backend.hasRoot then
          match ← delete with
          | .ok () => return .error metadataError
          | .error cleanupError =>
            return .error (.backend ("partial blob metadata recovery failed: "
              ++ metadataError.display ++ "; cleanup failed: " ++ cleanupError.display))
        else reconcileExternalWrite backend blob metadataError

/-- `put_with_conditional_write`. -/
def putWithConditionalWrite (blob : AssetBlob) : BlobIO (BlobResult Unit) := do
  match ← read backend with
  | .error error => return .error error
  | .ok (some existing) =>
    if existing = blob then return .ok () else return .error .conflict
  | .ok none =>
    match ← ask (.write .body blob.bytes true) with
    | .error error =>
      if isExistingError error then
        match ← read backend with
        | .error error => return .error error
        | .ok (some existing) =>
          if existing = blob then return .ok () else return .error .conflict
        | .ok none => recoverBodyOnlyPartialWrite backend blob error
      else reconcileExternalWrite backend blob (backendError error)
    | .ok _ =>
      match ← writeMetadata backend blob with
      | .ok () => return .ok ()
      | .error error =>
        if backend.hasRoot then
          match ← delete with
          | .ok () => return .error error
          | .error cleanupError =>
            return .error (.backend ("metadata write failed: " ++ error.display
              ++ "; cleanup failed: " ++ cleanupError.display))
        else reconcileExternalWrite backend blob error

/-! ## FTP -/

/-- A line of the FTP sidecar, between two newlines. -/
def ftpRecord (blob : AssetBlob) : List UInt8 :=
  10 :: (MetadataJson.toVec blob.storedMetadata ++ [10])

/-- `write_ftp_metadata`. -/
def writeFtpMetadata (blob : AssetBlob) : BlobIO (BlobResult Unit) := do
  match ← ask (.write .sidecar (ftpRecord blob) false) with
  | .ok _ => return .ok ()
  | .error error => return .error (backendError error)

/-- The end of `put_ftp_under_lock_inner`: sidecar, if it is not there, and body. -/
def writeFtpBody (blob : AssetBlob) (metadata : Option StoredMetadata) :
    BlobIO (BlobResult Unit) := do
  let written ← if metadata.isNone then writeFtpMetadata blob else pure (.ok ())
  match written with
  | .error error => return .error error
  | .ok () =>
    match ← ask (.write .body blob.bytes false) with
    | .ok _ => return .ok ()
    | .error error => return .error (backendError error)

/-- `put_ftp_under_lock_inner`. -/
def putFtpUnderLockInner (blob : AssetBlob) : BlobIO (BlobResult Unit) := do
  match ← readObjectBytes .sidecar with
  | .error error => return .error error
  | .ok sidecar =>
    let metadata := sidecar.bind parseFtpMetadata
    if metadata.any fun metadata => decide (metadata ≠ blob.storedMetadata) then
      return .error .conflict
    else
      match ← readObjectBytes .body with
      | .error error => return .error error
      | .ok none => writeFtpBody blob metadata
      | .ok (some body) =>
        if body = blob.bytes then
          if metadata.isNone then writeFtpMetadata blob else return .ok ()
        else if !body.isPrefixOf blob.bytes || metadata.isNone then return .error .conflict
        else
          match ← deleteObject .body with
          | .error error => return .error error
          | .ok () => writeFtpBody blob metadata

end OpenDalBlobStore

/-! ## Blobs that can be put -/

/-- **A blob of `AssetBlob::new`**: its checksum describes its bytes. -/
structure ValidBlob [Sha2Crate] where
  blob : AssetBlob
  valid : AssetBlob.new blob.bytes blob.mediaType blob.checksum = .ok blob

/-- What `AssetBlob::new` builds is what it was given. -/
theorem AssetBlob.new_eq_ok [Sha2Crate] {bytes : List UInt8} {mediaType checksum : String}
    {blob : AssetBlob} (h : AssetBlob.new bytes mediaType checksum = .ok blob) :
    blob = ⟨bytes, mediaType, checksum⟩ := by
  unfold AssetBlob.new at h
  split_ifs at h
  exact (Except.ok.inj h).symm

/-! ## The objects -/

/-- What the two objects of a key hold. -/
@[ext] structure BlobObjects where
  body : Option (List UInt8)
  sidecar : Option (List UInt8)
deriving DecidableEq, Repr

namespace BlobObjects

/-- An absent key. -/
def absent : BlobObjects := ⟨none, none⟩

def get (s : BlobObjects) : BlobObject → Option (List UInt8)
  | .body => s.body
  | .sidecar => s.sidecar

def set (s : BlobObjects) : BlobObject → Option (List UInt8) → BlobObjects
  | .body, bytes => { s with body := bytes }
  | .sidecar, bytes => { s with sidecar := bytes }

/-- What a write leaves of an object that holds something already. -/
def base (appends : Bool) (s : BlobObjects) (object : BlobObject) : List UInt8 :=
  if appends then (s.get object).getD [] else []

/-- **A backend that does what it is asked**; `texts` is how it displays its errors. -/
def serve (texts : OpenDalErrorKind → String) (appends : Bool) (s : BlobObjects) :
    BlobCall → BlobObjects × Except OpenDalError (List UInt8)
  | .read object =>
    match s.get object with
    | some bytes => (s, .ok bytes)
    | none => (s, .error ⟨.notFound, texts .notFound⟩)
  | .stat object =>
    match s.get object with
    | some _ => (s, .ok [])
    | none => (s, .error ⟨.notFound, texts .notFound⟩)
  | .write object bytes conditional =>
    if conditional && (s.get object).isSome then
      (s, .error ⟨.alreadyExists, texts .alreadyExists⟩)
    else (s.set object (some (s.base appends object ++ bytes)), .ok [])
  | .delete object => (s.set object none, .ok [])

/-- **A call that is cut short**: a write leaves any prefix, a deletion may have happened. -/
def Torn (appends : Bool) (s : BlobObjects) : BlobCall → BlobObjects → Prop
  | .read _, _ => False
  | .stat _, _ => False
  | .write object bytes conditional, s' =>
    (conditional && (s.get object).isSome) = false ∧ ∃ part, part <+: bytes ∧
      s' = s.set object (some (s.base appends object ++ part))
  | .delete object, s' => s' = s.set object none

variable [Sha2Crate] [MetadataJson] (backend : OpenDalBackend)

/-- What the sidecar says. -/
def metadata (s : BlobObjects) : BlobResult (Option StoredMetadata) :=
  match s.sidecar with
  | none => .ok none
  | some bytes =>
    if backend.isFtp then .ok (parseFtpMetadata bytes)
    else
      match MetadataJson.fromSlice bytes with
      | .ok metadata => .ok (some metadata)
      | .error message => .error (.backend message)

omit [Sha2Crate] in
/-- The sidecar is a document. -/
theorem metadata_of_ok {s : BlobObjects} {bytes : List UInt8} {metadata : StoredMetadata}
    (hbackend : backend.isFtp = false) (hsidecar : s.sidecar = some bytes)
    (h : MetadataJson.fromSlice bytes = .ok metadata) :
    s.metadata backend = .ok (some metadata) := by
  simp only [BlobObjects.metadata, hsidecar, hbackend, h, Bool.false_eq_true, if_false]

omit [Sha2Crate] in
/-- The sidecar is no document. -/
theorem metadata_of_error {s : BlobObjects} {bytes : List UInt8} {message : String}
    (hbackend : backend.isFtp = false) (hsidecar : s.sidecar = some bytes)
    (h : MetadataJson.fromSlice bytes = .error message) :
    s.metadata backend = .error (.backend message) := by
  simp only [BlobObjects.metadata, hsidecar, hbackend, h, Bool.false_eq_true, if_false]

/-- **The blob the two objects make up.** -/
def held (s : BlobObjects) : BlobResult (Option AssetBlob) :=
  match s.metadata backend with
  | .error error => .error error
  | .ok none => .ok none
  | .ok (some metadata) =>
    match s.body with
    | none => .ok none
    | some bytes =>
      if bytes.length ≠ metadata.byteSize then .ok none
      else (AssetBlob.new bytes metadata.mediaType metadata.checksum).map some

end BlobObjects

section Reading

open Calls

variable [Sha2Crate] [MetadataJson] {backend : OpenDalBackend} {texts : OpenDalErrorKind → String}
  {appends : Bool}

omit [Sha2Crate] in
/-- The sidecar is read as it is. -/
theorem run_readMetadata (s : BlobObjects) :
    (OpenDalBlobStore.readMetadata backend).run (BlobObjects.serve texts appends) s
      = (s, s.metadata backend) := by
  obtain ⟨body, _ | bytes⟩ := s
  · rfl
  · unfold OpenDalBlobStore.readMetadata BlobObjects.metadata
    rw [run_bind]
    change Calls.run _ _ (if backend.isFtp = true then _ else _) = _
    dsimp only
    split_ifs
    · rfl
    · cases MetadataJson.fromSlice bytes <;> rfl

/-- **`read` finds the blob the objects make up**, and changes nothing. -/
theorem run_read (s : BlobObjects) :
    (OpenDalBlobStore.read backend).run (BlobObjects.serve texts appends) s
      = (s, s.held backend) := by
  unfold OpenDalBlobStore.read BlobObjects.held
  rw [run_bind, run_readMetadata]
  dsimp only
  rcases s.metadata backend with error | _ | metadata
  · rfl
  · rfl
  · obtain ⟨_ | bytes, sidecar⟩ := s
    · rfl
    · dsimp only
      rw [run_bind]
      change Calls.run _ _ (if bytes.length ≠ metadata.byteSize then _ else _) = _
      split_ifs <;> rfl

/-- A program that reads first, run to the end. -/
theorem run_read_bind {A : Type} (f : BlobResult (Option AssetBlob) → BlobIO A) (s : BlobObjects) :
    (OpenDalBlobStore.read backend >>= f).run (BlobObjects.serve texts appends) s
      = (f (s.held backend)).run (BlobObjects.serve texts appends) s := by
  rw [run_bind, run_read]

omit [Sha2Crate] in
theorem every_readMetadata :
    (OpenDalBlobStore.readMetadata backend).Every BlobCall.IsRead := by
  unfold OpenDalBlobStore.readMetadata
  refine ⟨trivial, fun r => ?_⟩
  rcases r with error | bytes
  · change Every _ (if error.kind = .notFound then _ else _)
    split_ifs <;> trivial
  · change Every _ (if backend.isFtp = true then _ else _)
    split_ifs
    · trivial
    · cases MetadataJson.fromSlice bytes <;> trivial

theorem every_read : (OpenDalBlobStore.read backend).Every BlobCall.IsRead := by
  unfold OpenDalBlobStore.read
  refine every_readMetadata.bind fun found => ?_
  rcases found with error | _ | metadata
  · trivial
  · trivial
  · refine ⟨trivial, fun r => ?_⟩
    rcases r with error | bytes
    · change Every _ (if error.kind = .notFound then _ else _)
      split_ifs <;> trivial
    · change Every _ (if bytes.length ≠ metadata.byteSize then _ else _)
      split_ifs <;> trivial

/-- A program that reads first, cut short. -/
theorem leaves_read_bind {A : Type} {P : BlobObjects → Prop}
    {f : BlobResult (Option AssetBlob) → BlobIO A} {s : BlobObjects} (hP : P s)
    (h : Leaves (BlobObjects.serve texts appends) (BlobObjects.Torn appends) P s
      (f (s.held backend))) :
    Leaves (BlobObjects.serve texts appends) (BlobObjects.Torn appends) P s
      (OpenDalBlobStore.read backend >>= f) := by
  refine (every_read.leaves (fun call hread => ?_) hP).bind ?_
  · cases call with
    | read object =>
      refine ⟨?_, fun _ => id⟩
      cases hget : s.get object <;> simp only [BlobObjects.serve, hget]
    | stat object =>
      refine ⟨?_, fun _ => id⟩
      cases hget : s.get object <;> simp only [BlobObjects.serve, hget]
    | write object bytes conditional => exact absurd hread id
    | delete object => exact absurd hread id
  · rw [run_read]
    exact h

end Reading

/-! ## A codec -/

/-- Metadata as numbers. -/
def metadataCode (metadata : StoredMetadata) : List ℕ × List ℕ × ℕ :=
  (metadata.checksum.toList.map Char.toNat, metadata.mediaType.toList.map Char.toNat,
    metadata.byteSize)

/-- As many letters as the number of the metadata, and a closing brace. -/
def plainDocument (number : ℕ) : List UInt8 := List.replicate number 97 ++ [125]

/-- A document ends in its only brace. -/
theorem plainDocument_leading {number : ℕ} {bytes : List UInt8}
    (h : bytes <+: plainDocument number) (hne : bytes ≠ plainDocument number) (other : ℕ) :
    bytes ≠ plainDocument other := by
  rintro rfl
  obtain ⟨rest, hrest⟩ := h
  rcases List.eq_nil_or_concat rest with rfl | ⟨front, last, rfl⟩
  · exact hne (by rw [← hrest, List.append_nil])
  · rw [List.concat_eq_append, ← List.append_assoc] at hrest
    obtain ⟨hfront, -⟩ := List.append_inj' hrest rfl
    have hbrace : (125 : UInt8) ∈ List.replicate number (97 : UInt8) := by
      rw [← hfront, plainDocument]
      simp
    exact absurd (List.eq_of_mem_replicate hbrace) (by decide)

/-- A codec in place of JSON. -/
@[reducible] def plainMetadata : LawfulMetadataJson where
  toVec metadata := plainDocument (Encodable.encode (metadataCode metadata))
  fromSlice bytes :=
    match (Encodable.decode (bytes.length - 1) : Option (List ℕ × List ℕ × ℕ)) with
    | some code =>
      if bytes = plainDocument (bytes.length - 1) then
        .ok ⟨textOfCode code.1, textOfCode code.2.1, code.2.2⟩
      else .error "EOF while parsing an object"
    | none => .error "EOF while parsing an object"
  fromSlice_toVec metadata := by
    have hlength (number : ℕ) : (plainDocument number).length - 1 = number := by
      simp [plainDocument]
    rw [hlength, Encodable.encodek]
    dsimp only
    rw [if_pos rfl]
    simp only [metadataCode, textOfCode_code]
  fromSlice_prefix metadata bytes hleading hne := by
    refine ⟨"EOF while parsing an object", ?_⟩
    split
    · rw [if_neg (plainDocument_leading hleading hne _)]
    · rfl
  newline_not_mem metadata h := by
    rcases List.mem_append.mp h with h | h
    · exact absurd (List.eq_of_mem_replicate h) (by decide)
    · exact absurd (List.mem_singleton.mp h) (by decide)

end Werrss
