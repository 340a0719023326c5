import Werrss.Persistence.FsBlobCrash

/-!
# Persistence/FtpBlobCrash — interrupted FTP uploads are recovered by the next put

    sidecar   ⋯ ⏎ torn ⏎ document ⏎      a line is part of the document, or all of it
    body      part of the bytes            behind a whole line only

On FTP the sidecar comes first, as a line between two newlines, and a write that is cut short leaves
any part of what it was to append, or to put in place of what was there.  Lines that are no document
are passed over, so a torn sidecar is no error; and a body stands behind a whole line only, so a
torn body can be told from a foreign one.
-/

open Machinery

namespace Werrss

open OpenDalBlobStore Calls

/-- The FTP backend. -/
def ftpBackend : OpenDalBackend := ⟨false, true⟩

section Interruptions

variable [Sha2Crate] [LawfulMetadataJson] (texts : OpenDalErrorKind → String) (appends : Bool)
  (b : ValidBlob)

/-- An uninterrupted put over FTP. -/
def ftpPut (s : BlobObjects) : BlobObjects × BlobResult Unit :=
  (putFtpUnderLockInner b.blob).run (BlobObjects.serve texts appends) s

/-- An uninterrupted read. -/
def ftpRead (s : BlobObjects) : BlobResult (Option AssetBlob) :=
  ((OpenDalBlobStore.read ftpBackend).run (BlobObjects.serve texts appends) s).2

/-- **What interrupted puts of one blob and interrupted deletions can leave.** -/
inductive FtpInterrupted : BlobObjects → Prop
  | absent : FtpInterrupted .absent
  | put {s s' : BlobObjects} (h : FtpInterrupted s)
      (hcut : Cut (BlobObjects.serve texts appends) (BlobObjects.Torn appends) s
        (putFtpUnderLockInner b.blob) s') : FtpInterrupted s'
  | delete {s s' : BlobObjects} (h : FtpInterrupted s)
      (hcut : Cut (BlobObjects.serve texts appends) (BlobObjects.Torn appends) s
        OpenDalBlobStore.delete s') : FtpInterrupted s'

/-! ## Lines of the sidecar -/

variable {texts appends b}

/-- Every line is part of the document. -/
def Lines (b : ValidBlob) (bytes : List UInt8) : Prop :=
  ∀ line ∈ bytes.splitOn 10, line <+: b.json

/-- The document is one of the lines. -/
def Listed (b : ValidBlob) (bytes : List UInt8) : Prop := b.json ∈ bytes.splitOn 10

instance (bytes : List UInt8) : Decidable (Listed b bytes) :=
  inferInstanceAs (Decidable (b.json ∈ bytes.splitOn 10))

theorem lines_nil : Lines b [] := by
  intro line hline
  rw [List.splitOn_nil, List.mem_singleton] at hline
  rw [hline]
  exact List.nil_prefix

/-- A part of the document is one line. -/
theorem splitOn_part {part : List UInt8} (h : part <+: b.json) : part.splitOn 10 = [part] :=
  List.splitOn_eq_singleton fun hmem => LawfulMetadataJson.newline_not_mem _ (h.subset hmem)

/-- **A part of a record adds parts of the document.** -/
theorem Lines.append {bytes part : List UInt8} (h : Lines b bytes)
    (hpart : part <+: ftpRecord b.blob) : Lines b (bytes ++ part) := by
  cases part with
  | nil => rwa [List.append_nil]
  | cons first rest =>
    obtain ⟨rfl, hrest⟩ := List.cons_prefix_cons.mp hpart
    intro line hline
    rw [List.splitOn_append_cons_self, List.mem_append] at hline
    refine hline.elim (h line) fun hline => ?_
    rcases List.prefix_concat_iff.mp hrest with rfl | hrest
    · change line ∈ (b.json ++ 10 :: []).splitOn 10 at hline
      rw [List.splitOn_append_cons_self, splitOn_part List.prefix_rfl, List.splitOn_nil,
        List.mem_append, List.mem_singleton, List.mem_singleton] at hline
      rcases hline with rfl | rfl
      · exact List.prefix_rfl
      · exact List.nil_prefix
    · rw [splitOn_part hrest, List.mem_singleton] at hline
      rwa [hline]

/-- **A whole record lists the document.** -/
theorem listed_append (bytes : List UInt8) : Listed b (bytes ++ ftpRecord b.blob) := by
  change b.json ∈ (bytes ++ 10 :: (b.json ++ 10 :: [])).splitOn 10
  rw [List.splitOn_append_cons_self, List.splitOn_append_cons_self, splitOn_part List.prefix_rfl]
  exact List.mem_append_right _ (List.mem_append_left _ (List.mem_singleton.mpr rfl))

omit [Sha2Crate] in
/-- A document is not empty. -/
theorem toVec_ne_nil (metadata : StoredMetadata) : MetadataJson.toVec metadata ≠ [] := by
  intro h
  let other : StoredMetadata := { metadata with byteSize := metadata.byteSize + 1 }
  have hread : MetadataJson.fromSlice [] = .ok metadata := by
    rw [← h, LawfulMetadataJson.fromSlice_toVec]
  have hother : [] ≠ MetadataJson.toVec other := by
    intro hother
    have hread' := LawfulMetadataJson.fromSlice_toVec other
    rw [← hother, hread] at hread'
    have hsize := congrArg StoredMetadata.byteSize (Except.ok.inj hread')
    exact absurd hsize (Nat.ne_of_lt (Nat.lt_succ_self _))
  obtain ⟨message, hmessage⟩ := LawfulMetadataJson.fromSlice_prefix other [] List.nil_prefix hother
  exact nomatch hread.symm.trans hmessage

/-- What is read of the lines is the document, if it is there. -/
theorem foldl_records {records : List (List UInt8)} (h : ∀ line ∈ records, line <+: b.json)
    (latest : Option StoredMetadata) :
    (records.filter fun record => !record.isEmpty).foldl
      (fun latest record =>
        match MetadataJson.fromSlice record with
        | .ok metadata => some metadata
        | .error _ => latest) latest
      = if b.json ∈ records then some b.blob.storedMetadata else latest := by
  induction records generalizing latest with
  | nil => rfl
  | cons line records ih =>
    have hrecords := fun line hline => h line (List.mem_cons_of_mem _ hline)
    by_cases hwhole : line = b.json
    · have hne : (!line.isEmpty) = true := by
        rw [hwhole, Bool.not_eq_true', List.isEmpty_eq_false_iff]
        exact toVec_ne_nil _
      have hread : MetadataJson.fromSlice line = .ok b.blob.storedMetadata := by
        rw [hwhole]
        exact LawfulMetadataJson.fromSlice_toVec _
      rw [List.filter_cons, if_pos hne, List.foldl_cons, hread, ih hrecords,
        if_pos (List.mem_cons.mpr (.inl hwhole.symm)), ite_self]
    · have hmem : b.json ∈ line :: records ↔ b.json ∈ records :=
        ⟨fun h => (List.mem_cons.mp h).resolve_left (Ne.symm hwhole), List.mem_cons_of_mem _⟩
      obtain ⟨message, hmessage⟩ :=
        LawfulMetadataJson.fromSlice_prefix _ line (h line List.mem_cons_self) hwhole
      rw [if_congr hmem rfl rfl, ← ih hrecords latest, List.filter_cons]
      split_ifs
      · rw [List.foldl_cons, hmessage]
      · rfl

/-- **What the sidecar says.** -/
theorem parseFtpMetadata_eq {bytes : List UInt8} (h : Lines b bytes) :
    parseFtpMetadata bytes = if Listed b bytes then some b.blob.storedMetadata else none :=
  foldl_records h none

/-! ## What interruptions leave -/

/-- **Lines of the document, and the body behind a whole one.** -/
structure FtpShape (b : ValidBlob) (s : BlobObjects) : Prop where
  lines : ∀ bytes, s.sidecar = some bytes → Lines b bytes
  body : ∀ bytes, s.body = some bytes →
    bytes <+: b.blob.bytes ∧ ∃ sidecar, s.sidecar = some sidecar ∧ Listed b sidecar

theorem ftpShape_absent : FtpShape b .absent := ⟨fun _ h => (nomatch h), fun _ h => (nomatch h)⟩

theorem ftpShape_sidecar {sidecar : Option (List UInt8)}
    (h : ∀ bytes, sidecar = some bytes → Lines b bytes) : FtpShape b ⟨none, sidecar⟩ :=
  ⟨h, fun _ hbody => (nomatch hbody)⟩

theorem ftpShape_body {sidecar part : List UInt8} (h : Lines b sidecar) (hlisted : Listed b sidecar)
    (hpart : part <+: b.blob.bytes) : FtpShape b ⟨some part, some sidecar⟩ :=
  ⟨fun _ heq => Option.some.inj heq ▸ h,
    fun _ heq => ⟨Option.some.inj heq ▸ hpart, sidecar, rfl, hlisted⟩⟩

/-- No whole line, and then no body; or a whole line, and any part of the body. -/
theorem FtpShape.cases {s : BlobObjects} (h : FtpShape b s) :
    (∃ sidecar, s = ⟨none, sidecar⟩ ∧
        ∀ bytes, sidecar = some bytes → Lines b bytes ∧ ¬ Listed b bytes) ∨
      ∃ body sidecar, s = ⟨body, some sidecar⟩ ∧ Lines b sidecar ∧ Listed b sidecar ∧
        ∀ part, body = some part → part <+: b.blob.bytes := by
  obtain ⟨body, sidecar⟩ := s
  by_cases hlisted : ∃ bytes, sidecar = some bytes ∧ Listed b bytes
  · obtain ⟨bytes, rfl, hlisted⟩ := hlisted
    exact .inr ⟨body, bytes, rfl, h.lines bytes rfl, hlisted, fun part hpart =>
      (h.body part hpart).1⟩
  · refine .inl ⟨sidecar, ?_, fun bytes hbytes => ⟨h.lines bytes hbytes, fun hl =>
      hlisted ⟨bytes, hbytes, hl⟩⟩⟩
    cases body with
    | none => rfl
    | some part => exact absurd (h.body part rfl).2 hlisted

theorem parse_unlisted {sidecar : Option (List UInt8)}
    (h : ∀ bytes, sidecar = some bytes → Lines b bytes ∧ ¬ Listed b bytes) :
    sidecar.bind parseFtpMetadata = none := by
  cases sidecar with
  | none => rfl
  | some bytes =>
    obtain ⟨hlines, hlisted⟩ := h bytes rfl
    rw [Option.bind_some, parseFtpMetadata_eq hlines, if_neg hlisted]

theorem parse_listed {sidecar : List UInt8} (h : Lines b sidecar) (hlisted : Listed b sidecar) :
    parseFtpMetadata sidecar = some b.blob.storedMetadata := by
  rw [parseFtpMetadata_eq h, if_pos hlisted]

/-! ## What is read of it -/

/-- Without a whole line, nothing. -/
theorem held_unlisted {sidecar : Option (List UInt8)}
    (h : ∀ bytes, sidecar = some bytes → Lines b bytes ∧ ¬ Listed b bytes) :
    BlobObjects.held ftpBackend ⟨none, sidecar⟩ = .ok none := by
  have hmetadata : BlobObjects.metadata ftpBackend ⟨none, sidecar⟩ = .ok none := by
    cases sidecar with
    | none => rfl
    | some bytes => exact congrArg Except.ok (parse_unlisted h)
  unfold BlobObjects.held
  rw [hmetadata]

/-- **With a whole line, the blob if the body is whole**, and nothing before. -/
theorem held_listed {body : Option (List UInt8)} {sidecar : List UInt8} (h : Lines b sidecar)
    (hlisted : Listed b sidecar) (hbody : ∀ part, body = some part → part <+: b.blob.bytes) :
    BlobObjects.held ftpBackend ⟨body, some sidecar⟩
      = .ok (if body = some b.blob.bytes then some b.blob else none) := by
  have hmetadata : BlobObjects.metadata ftpBackend ⟨body, some sidecar⟩
      = .ok (some b.blob.storedMetadata) := congrArg Except.ok (parse_listed h hlisted)
  unfold BlobObjects.held
  rw [hmetadata]
  rcases body with _ | part
  · rfl
  · change (if part.length ≠ b.blob.bytes.length then _ else
      (AssetBlob.new part b.blob.mediaType b.blob.checksum).map some) = _
    by_cases hlength : part.length = b.blob.bytes.length
    · obtain rfl := (hbody part rfl).eq_of_length hlength
      rw [if_neg (not_not_intro rfl), b.valid, if_pos rfl]
      rfl
    · rw [if_pos hlength, if_neg fun heq => hlength (congrArg List.length (Option.some.inj heq))]

/-- Every shape is read as nothing or as the blob. -/
theorem FtpShape.held {s : BlobObjects} (h : FtpShape b s) :
    s.held ftpBackend = .ok none ∨ s.held ftpBackend = .ok (some b.blob) := by
  rcases h.cases with ⟨sidecar, rfl, hunlisted⟩ | ⟨body, sidecar, rfl, hlines, hlisted, hbody⟩
  · exact .inl (held_unlisted hunlisted)
  · rw [held_listed hlines hlisted hbody]
    split_ifs
    · exact .inr rfl
    · exact .inl rfl

/-! ## One put -/

variable (texts appends b) in
/-- **A program that stores the blob**, and leaves a shape wherever it is interrupted. -/
structure Uploads (s : BlobObjects) (p : BlobIO (BlobResult Unit)) : Prop where
  leaves : Leaves (BlobObjects.serve texts appends) (BlobObjects.Torn appends) (FtpShape b) s p
  answer : (p.run (BlobObjects.serve texts appends) s).2 = .ok ()
  stored : (p.run (BlobObjects.serve texts appends) s).1.held ftpBackend = .ok (some b.blob)

/-- A call, and then the rest. -/
theorem Uploads.call {s : BlobObjects} {c : BlobCall}
    {next : Except OpenDalError (List UInt8) → BlobIO (BlobResult Unit)} (hshape : FtpShape b s)
    (htorn : ∀ s', BlobObjects.Torn appends s c s' → FtpShape b s')
    (h : Uploads texts appends b (BlobObjects.serve texts appends s c).1
      (next (BlobObjects.serve texts appends s c).2)) :
    Uploads texts appends b s (.call c next) :=
  ⟨.call hshape htorn h.leaves, h.answer, h.stored⟩

/-- An object is read as it is. -/
theorem Uploads.readObjectBytes {s : BlobObjects} {object : BlobObject}
    {f : BlobResult (Option (List UInt8)) → BlobIO (BlobResult Unit)} (hshape : FtpShape b s)
    (h : Uploads texts appends b s (f (.ok (s.get object)))) :
    Uploads texts appends b s (OpenDalBlobStore.readObjectBytes object >>= f) := by
  refine .call hshape (fun _ => False.elim) ?_
  cases hget : s.get object with
  | none =>
    have hserve : BlobObjects.serve texts appends s (.read object)
        = (s, .error ⟨.notFound, texts .notFound⟩) := by simp only [BlobObjects.serve, hget]
    rw [hget] at h
    rw [hserve]
    exact h
  | some bytes =>
    have hserve : BlobObjects.serve texts appends s (.read object) = (s, .ok bytes) := by
      simp only [BlobObjects.serve, hget]
    rw [hget] at h
    rw [hserve]
    exact h

/-- Both objects are there: nothing is left to do. -/
theorem uploads_stored {sidecar : List UInt8} (h : Lines b sidecar) (hlisted : Listed b sidecar) :
    Uploads texts appends b ⟨some b.blob.bytes, some sidecar⟩ (.answer (.ok ())) := by
  refine ⟨ftpShape_body h hlisted List.prefix_rfl, rfl, ?_⟩
  refine (held_listed h hlisted fun part hpart => ?_).trans ?_
  · exact Option.some.inj hpart ▸ List.prefix_rfl
  · rw [if_pos rfl]

/-- The body behind its line. -/
theorem uploads_body {sidecar : List UInt8} (h : Lines b sidecar) (hlisted : Listed b sidecar) :
    Uploads texts appends b ⟨none, some sidecar⟩
      (writeFtpBody b.blob (some b.blob.storedMetadata)) := by
  have hbase : BlobObjects.base appends ⟨none, some sidecar⟩ .body = [] := by
    cases appends <;> rfl
  refine .call (ftpShape_sidecar fun _ heq => Option.some.inj heq ▸ h) ?_ ?_
  · rintro _ ⟨-, part, hpart, rfl⟩
    rw [hbase]
    exact ftpShape_body h hlisted hpart
  · change Uploads _ _ _ ⟨some (BlobObjects.base appends _ _ ++ b.blob.bytes), _⟩ _
    rw [hbase]
    exact uploads_stored h hlisted

/-- **The line before the body**: what is there of it may be lost or lengthened. -/
theorem uploads_sidecar {sidecar : Option (List UInt8)}
    (h : ∀ bytes, sidecar = some bytes → Lines b bytes ∧ ¬ Listed b bytes) :
    Uploads texts appends b ⟨none, sidecar⟩ (writeFtpBody b.blob none) := by
  have hbase : Lines b (BlobObjects.base appends ⟨none, sidecar⟩ .sidecar) := by
    unfold BlobObjects.base
    split_ifs
    · cases sidecar with
      | none => exact lines_nil
      | some bytes => exact (h bytes rfl).1
    · exact lines_nil
  refine .call (ftpShape_sidecar fun bytes heq => (h bytes heq).1) ?_ ?_
  · rintro _ ⟨-, part, hpart, rfl⟩
    exact ftpShape_sidecar fun _ heq => Option.some.inj heq ▸ hbase.append hpart
  · exact uploads_body (hbase.append List.prefix_rfl) (listed_append _)

/-- **A put stores the blob from every shape.** -/
theorem uploads_put {s : BlobObjects} (h : FtpShape b s) :
    Uploads texts appends b s (putFtpUnderLockInner b.blob) := by
  unfold putFtpUnderLockInner
  refine Uploads.readObjectBytes h ?_
  dsimp only
  rcases h.cases with ⟨sidecar, rfl, hunlisted⟩ | ⟨body, sidecar, rfl, hlines, hlisted, hbody⟩
  · have hmetadata : (BlobObjects.get ⟨none, sidecar⟩ .sidecar).bind parseFtpMetadata = none :=
      parse_unlisted hunlisted
    rw [hmetadata, Option.any_none, if_neg Bool.false_ne_true]
    exact Uploads.readObjectBytes h (uploads_sidecar hunlisted)
  · have hmetadata : (BlobObjects.get ⟨body, some sidecar⟩ .sidecar).bind parseFtpMetadata
        = some b.blob.storedMetadata := parse_listed hlines hlisted
    rw [hmetadata, Option.any_some, if_neg (by simp)]
    refine Uploads.readObjectBytes h ?_
    rcases body with _ | part
    · exact uploads_body hlines hlisted
    · change Uploads _ _ _ _ (if part = b.blob.bytes then _ else _)
      by_cases hwhole : part = b.blob.bytes
      · rw [if_pos hwhole, hwhole]
        exact uploads_stored hlines hlisted
      · have hleading : part.isPrefixOf b.blob.bytes = true :=
          List.isPrefixOf_iff_prefix.mpr (hbody part rfl)
        rw [if_neg hwhole, hleading]
        -- a part of the body behind its line is a torn body, and goes
        refine .call h ?_ (uploads_body hlines hlisted)
        rintro _ rfl
        exact ftpShape_sidecar fun _ heq => Option.some.inj heq ▸ hlines

/-! ## One deletion -/

/-- A deletion leaves a shape: the body goes first. -/
theorem leaves_delete {s : BlobObjects} (h : FtpShape b s) :
    Leaves (BlobObjects.serve texts appends) (BlobObjects.Torn appends) (FtpShape b) s
      OpenDalBlobStore.delete := by
  have hbody : FtpShape b (s.set .body none) := ftpShape_sidecar h.lines
  have hsidecar : FtpShape b ((s.set .body none).set .sidecar none) := ftpShape_absent
  refine .call h ?_ (.call hbody ?_ hsidecar)
  · rintro _ rfl
    exact hbody
  · rintro _ rfl
    exact hsidecar

/-- **Any number of interrupted puts and deletions leaves a shape.** -/
theorem FtpInterrupted.shape {s : BlobObjects} (h : FtpInterrupted texts appends b s) :
    FtpShape b s := by
  induction h with
  | absent => exact ftpShape_absent
  | put _ hcut ih => exact (uploads_put ih).leaves.of_cut hcut
  | delete _ hcut ih => exact (leaves_delete ih).of_cut hcut

/-! ## Recovery -/

/-- What a read finds. -/
theorem ftpRead_eq (s : BlobObjects) : ftpRead texts appends s = s.held ftpBackend := by
  rw [ftpRead, run_read]

variable (texts appends b) in
/-- **What interruptions leave is read as nothing or as the blob, and one put stores it.** -/
theorem ftp_recovers {s : BlobObjects} (h : FtpInterrupted texts appends b s) :
    (ftpRead texts appends s = .ok none ∨ ftpRead texts appends s = .ok (some b.blob)) ∧
      (ftpPut texts appends b s).2 = .ok () ∧
      ftpRead texts appends (ftpPut texts appends b s).1 = .ok (some b.blob) := by
  obtain ⟨-, hanswer, hstored⟩ := (uploads_put h.shape : Uploads texts appends b s _)
  rw [ftpRead_eq, ftpRead_eq]
  exact ⟨h.shape.held, hanswer, hstored⟩

end Interruptions

/-! ## An interrupted upload -/

section Samples

attribute [local instance] AssetRepository.plainDigest plainMetadata

/-- A deletion of nothing, and an upload interrupted in the middle of the body. -/
theorem ftpInterrupted_body : FtpInterrupted plainTexts false pixelBlob
    ⟨some [137], some (ftpRecord pixelBlob.blob)⟩ :=
  .put (.delete .absent (.between _ _))
    (.later (.later (.later (.during ⟨rfl, [137], ⟨[80], rfl⟩, rfl⟩))))

theorem ftp_recovers_body :
    (ftpPut plainTexts false pixelBlob ⟨some [137], some (ftpRecord pixelBlob.blob)⟩).2 = .ok () :=
  (ftp_recovers plainTexts false pixelBlob ftpInterrupted_body).2.1

end Samples

end Werrss
