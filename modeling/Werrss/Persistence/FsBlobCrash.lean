import Werrss.Persistence.AssetCap
import Werrss.Persistence.OpenDalBlobStore

/-!
# Persistence/FsBlobCrash — crashes of a filesystem put, and what later puts make of them

    absent ─▸ part of the body ─▸ body ─▸ body, part of the sidecar ─▸ both
      └──────── put, or put twice ──────┘           └── nothing helps

A crash leaves a file that was being created as any prefix.  A torn body is found by its bytes and
removed, and the next put writes it anew.  But every put and every read begins with the sidecar, and
a torn sidecar is not a document: **a key is recovered exactly when its sidecar is not torn**.
-/

open Machinery

namespace Werrss

open OpenDalBlobStore Calls

/-- The filesystem backend. -/
def fsBackend : OpenDalBackend := ⟨true, false⟩

section Crashes

variable [Sha2Crate] [LawfulMetadataJson] (texts : OpenDalErrorKind → String) (b : ValidBlob)

/-- An uninterrupted put on the filesystem. -/
def fsPut (s : BlobObjects) : BlobObjects × BlobResult Unit :=
  (putWithConditionalWrite fsBackend b.blob).run (BlobObjects.serve texts false) s

/-- An uninterrupted read. -/
def fsRead (s : BlobObjects) : BlobResult (Option AssetBlob) :=
  ((OpenDalBlobStore.read fsBackend).run (BlobObjects.serve texts false) s).2

/-- **What crashed puts of one blob can leave.** -/
inductive FsCrashed : BlobObjects → Prop
  | absent : FsCrashed .absent
  | crash {s s' : BlobObjects} (h : FsCrashed s)
      (hcut : Cut (BlobObjects.serve texts false) (BlobObjects.Torn false) s
        (putWithConditionalWrite fsBackend b.blob) s') : FsCrashed s'

/-- A put that answers, with the blob there to be read. -/
def FsStores (s : BlobObjects) : Prop :=
  (fsPut texts b s).2 = .ok () ∧ fsRead texts (fsPut texts b s).1 = .ok (some b.blob)

/-- **At most two puts store the blob.** -/
def FsRecovers (s : BlobObjects) : Prop :=
  FsStores texts b s ∨ FsStores texts b (fsPut texts b s).1

/-- The sidecar of the blob. -/
def ValidBlob.json : List UInt8 := MetadataJson.toVec b.blob.storedMetadata

/-- **The sidecar is torn**: it was created, and its text is cut off. -/
def SidecarTorn (s : BlobObjects) : Prop := ∃ bytes, s.sidecar = some bytes ∧ bytes ≠ b.json

/-! ## What the objects hold -/

variable {texts b}

theorem held_of_no_sidecar {s : BlobObjects} (h : s.sidecar = none) :
    s.held fsBackend = .ok none := by
  unfold BlobObjects.held BlobObjects.metadata
  rw [h]

/-- **Body and sidecar make up the blob.** -/
theorem held_stored : BlobObjects.held fsBackend ⟨some b.blob.bytes, some b.json⟩
    = .ok (some b.blob) := by
  have hmetadata : BlobObjects.metadata fsBackend ⟨some b.blob.bytes, some b.json⟩
      = .ok (some b.blob.storedMetadata) :=
    BlobObjects.metadata_of_ok fsBackend rfl rfl (LawfulMetadataJson.fromSlice_toVec _)
  unfold BlobObjects.held
  rw [hmetadata]
  change (if b.blob.bytes.length ≠ b.blob.bytes.length then _ else
    (AssetBlob.new b.blob.bytes b.blob.mediaType b.blob.checksum).map some) = _
  rw [if_neg (not_not_intro rfl), b.valid]
  rfl

/-- A torn sidecar is an error. -/
theorem held_torn {s : BlobObjects} {bytes : List UInt8} (hsidecar : s.sidecar = some bytes)
    (hleading : bytes <+: b.json) (htorn : bytes ≠ b.json) :
    ∃ error, s.held fsBackend = .error error := by
  obtain ⟨message, hmessage⟩ := LawfulMetadataJson.fromSlice_prefix _ bytes hleading htorn
  have hmetadata : s.metadata fsBackend = .error (.backend message) :=
    BlobObjects.metadata_of_error fsBackend rfl hsidecar hmessage
  refine ⟨.backend message, ?_⟩
  unfold BlobObjects.held
  rw [hmetadata]

/-! ## One put -/

/-- **What crashes leave**: part of the body, and part of the sidecar behind the whole body only. -/
structure FsShape (b : ValidBlob) (s : BlobObjects) : Prop where
  body : ∀ bytes, s.body = some bytes → bytes <+: b.blob.bytes
  sidecar : ∀ bytes, s.sidecar = some bytes → bytes <+: b.json ∧ s.body = some b.blob.bytes

theorem fsShape_absent : FsShape b .absent := ⟨fun _ h => (nomatch h), fun _ h => (nomatch h)⟩

theorem fsShape_body {part : List UInt8} (h : part <+: b.blob.bytes) :
    FsShape b ⟨some part, none⟩ :=
  ⟨fun _ heq => Option.some.inj heq ▸ h, fun _ h => (nomatch h)⟩

theorem fsShape_sidecar {part : List UInt8} (h : part <+: b.json) :
    FsShape b ⟨some b.blob.bytes, some part⟩ :=
  ⟨fun _ heq => Option.some.inj heq ▸ List.prefix_rfl,
    fun _ heq => ⟨Option.some.inj heq ▸ h, rfl⟩⟩

/-- The five shapes. -/
theorem FsShape.cases {s : BlobObjects} (h : FsShape b s) :
    s = .absent ∨ (∃ part, part <+: b.blob.bytes ∧ part ≠ b.blob.bytes ∧ s = ⟨some part, none⟩) ∨
      s = ⟨some b.blob.bytes, none⟩ ∨ s = ⟨some b.blob.bytes, some b.json⟩ ∨
      ∃ part, part <+: b.json ∧ part ≠ b.json ∧ s = ⟨some b.blob.bytes, some part⟩ := by
  obtain ⟨body, sidecar⟩ := s
  cases sidecar with
  | some part =>
    obtain ⟨hpart, rfl⟩ := h.sidecar part rfl
    by_cases hwhole : part = b.json
    · exact .inr (.inr (.inr (.inl (by rw [hwhole]))))
    · exact .inr (.inr (.inr (.inr ⟨part, hpart, hwhole, rfl⟩)))
  | none =>
    cases body with
    | none => exact .inl rfl
    | some part =>
      by_cases hwhole : part = b.blob.bytes
      · exact .inr (.inr (.inl (by rw [hwhole])))
      · exact .inr (.inl ⟨part, h.body part rfl, hwhole, rfl⟩)

/-- The sidecar behind the whole body. -/
theorem leaves_sidecar {A : Type} {f : BlobResult Unit → BlobIO A}
    (h : Leaves (BlobObjects.serve texts false) (BlobObjects.Torn false) (FsShape b)
      ⟨some b.blob.bytes, some b.json⟩ (f (.ok ()))) :
    Leaves (BlobObjects.serve texts false) (BlobObjects.Torn false) (FsShape b)
      ⟨some b.blob.bytes, none⟩ (writeMetadata fsBackend b.blob >>= f) := by
  refine .call (fsShape_body List.prefix_rfl) ?_ h
  rintro _ ⟨-, part, hpart, rfl⟩
  exact fsShape_sidecar hpart

/-- **A put that crashes leaves one of the shapes.** -/
theorem leaves_fsPut {s : BlobObjects} (h : FsShape b s) :
    Leaves (BlobObjects.serve texts false) (BlobObjects.Torn false) (FsShape b) s
      (putWithConditionalWrite fsBackend b.blob) := by
  unfold putWithConditionalWrite
  refine leaves_read_bind h ?_
  rcases h.cases with rfl | ⟨part, hpart, hne, rfl⟩ | rfl | rfl | ⟨part, hpart, hne, rfl⟩
  · refine .call h ?_ (leaves_sidecar (fsShape_sidecar List.prefix_rfl))
    rintro _ ⟨-, part, hpart, rfl⟩
    exact fsShape_body hpart
  · refine .call h (fun _ htorn => nomatch htorn.1) ?_
    refine leaves_read_bind h (.call h (fun _ => False.elim) ?_)
    change Leaves _ _ _ _ (if part ≠ b.blob.bytes then _ else _)
    rw [if_pos hne]
    refine .call h ?_ fsShape_absent
    rintro _ rfl
    exact fsShape_absent
  · refine .call h (fun _ htorn => nomatch htorn.1) ?_
    refine leaves_read_bind h (.call h (fun _ => False.elim) ?_)
    change Leaves _ _ _ _ (if b.blob.bytes ≠ b.blob.bytes then _ else _)
    rw [if_neg (not_not_intro rfl)]
    exact leaves_sidecar (fsShape_sidecar List.prefix_rfl)
  · rw [held_stored]
    change Leaves _ _ _ _ (if b.blob = b.blob then _ else _)
    rw [if_pos rfl]
    exact h
  · obtain ⟨error, herror⟩ := held_torn (s := ⟨some b.blob.bytes, some part⟩) rfl hpart hne
    rw [herror]
    exact h

/-- So do any number of crashed puts. -/
theorem FsCrashed.shape {s : BlobObjects} (h : FsCrashed texts b s) : FsShape b s := by
  induction h with
  | absent => exact fsShape_absent
  | crash _ hcut ih => exact (leaves_fsPut ih).of_cut hcut

/-! ## What a put makes of them -/

/-- Both objects of the blob. -/
def ValidBlob.stored (b : ValidBlob) : BlobObjects := ⟨some b.blob.bytes, some b.json⟩

theorem fsPut_absent : fsPut texts b .absent = (b.stored, .ok ()) := by
  unfold fsPut putWithConditionalWrite
  rw [run_read_bind, held_of_no_sidecar rfl]
  rfl

/-- A whole body is completed. -/
theorem fsPut_body : fsPut texts b ⟨some b.blob.bytes, none⟩ = (b.stored, .ok ()) := by
  unfold fsPut putWithConditionalWrite
  rw [run_read_bind, held_of_no_sidecar rfl]
  dsimp only
  rw [ask_bind, run_call]
  change Calls.run _ _ (OpenDalBlobStore.read fsBackend >>= _) = _
  rw [run_read_bind, held_of_no_sidecar rfl]
  change Calls.run _ _ (if b.blob.bytes ≠ b.blob.bytes then _ else _) = _
  rw [if_neg (not_not_intro rfl)]
  rfl

/-- **A torn body is removed**: the put after this one will find nothing. -/
theorem fsPut_part {part : List UInt8} (hne : part ≠ b.blob.bytes) :
    fsPut texts b ⟨some part, none⟩ = (.absent, .error .conflict) := by
  unfold fsPut putWithConditionalWrite
  rw [run_read_bind, held_of_no_sidecar rfl]
  dsimp only
  rw [ask_bind, run_call]
  change Calls.run _ _ (OpenDalBlobStore.read fsBackend >>= _) = _
  rw [run_read_bind, held_of_no_sidecar rfl]
  change Calls.run _ _ (if part ≠ b.blob.bytes then _ else _) = _
  rw [if_pos hne]
  rfl

theorem fsPut_stored : fsPut texts b b.stored = (b.stored, .ok ()) := by
  unfold fsPut putWithConditionalWrite
  rw [run_read_bind, ValidBlob.stored, held_stored]
  change Calls.run _ _ (if b.blob = b.blob then _ else _) = _
  rw [if_pos rfl]
  rfl

/-- **Before a torn sidecar a put gives up.** -/
theorem fsPut_torn {s : BlobObjects} {error : AssetBlobStoreError}
    (h : s.held fsBackend = .error error) : fsPut texts b s = (s, .error error) := by
  unfold fsPut putWithConditionalWrite
  rw [run_read_bind, h]
  rfl

/-- What a read finds. -/
theorem fsRead_eq (s : BlobObjects) : fsRead texts s = s.held fsBackend := by
  rw [fsRead, run_read]

/-! ## Recovery -/

theorem fsStores_of_put {s : BlobObjects} (h : fsPut texts b s = (b.stored, .ok ())) :
    FsStores texts b s := by
  refine ⟨congrArg Prod.snd h, ?_⟩
  rw [fsRead_eq, h]
  exact held_stored

variable (texts b) in
/-- **A key that crashed puts have left is recovered by two puts exactly when its sidecar is not
torn.** -/
theorem fsRecovers_iff {s : BlobObjects} (h : FsCrashed texts b s) :
    FsRecovers texts b s ↔ ¬ SidecarTorn b s := by
  constructor
  · rintro hrecovers ⟨bytes, hsidecar, hne⟩
    obtain ⟨hleading, -⟩ := h.shape.sidecar bytes hsidecar
    obtain ⟨error, herror⟩ := held_torn hsidecar hleading hne
    have hput : fsPut texts b s = (s, .error error) := fsPut_torn herror
    rcases hrecovers with hfirst | hsecond
    · exact nomatch congrArg Prod.snd hput ▸ hfirst.1
    · rw [hput] at hsecond
      exact nomatch congrArg Prod.snd hput ▸ hsecond.1
  · intro hwhole
    rcases h.shape.cases with rfl | ⟨part, -, hne, rfl⟩ | rfl | rfl | ⟨part, -, hne, rfl⟩
    · exact .inl (fsStores_of_put fsPut_absent)
    · refine .inr ?_
      rw [fsPut_part hne]
      exact fsStores_of_put fsPut_absent
    · exact .inl (fsStores_of_put fsPut_body)
    · exact .inl (fsStores_of_put fsPut_stored)
    · exact absurd ⟨part, rfl, hne⟩ hwhole

end Crashes

/-! ## Two crashes -/

section Samples

attribute [local instance] AssetRepository.plainDigest plainMetadata

/-- A small image. -/
def pixelBlob : ValidBlob where
  blob := ⟨[137, 80], "image/png", Sha2Crate.sha256Hex [137, 80]⟩
  valid := by decide +kernel

/-- How the samples display errors. -/
def plainTexts (_ : OpenDalErrorKind) : String := ""

/-- A crash in the middle of the body. -/
theorem fsCrashed_body : FsCrashed plainTexts pixelBlob ⟨some [137], none⟩ :=
  .crash .absent (.later (.during ⟨rfl, [137], ⟨[80], rfl⟩, rfl⟩))

/-- A crash right behind the creation of the sidecar. -/
theorem fsCrashed_sidecar : FsCrashed plainTexts pixelBlob ⟨some [137, 80], some []⟩ :=
  .crash .absent (.later (.later (.during ⟨rfl, [], List.nil_prefix, rfl⟩)))

theorem fsRecovers_iff_body : FsRecovers plainTexts pixelBlob ⟨some [137], none⟩ :=
  (fsRecovers_iff plainTexts pixelBlob fsCrashed_body).mpr fun ⟨_, h, _⟩ => nomatch h

/-- **Behind a sidecar that was only created** every put gives up and leaves it, and every read
fails. -/
theorem fsPut_poisoned : ∃ s error, FsCrashed plainTexts pixelBlob s ∧
    fsPut plainTexts pixelBlob s = (s, .error error) ∧ fsRead plainTexts s = .error error := by
  have hempty : [] ≠ pixelBlob.json := by
    intro h
    have hlast : (125 : UInt8) ∈ pixelBlob.json := by
      unfold ValidBlob.json
      exact List.mem_append_right _ (List.mem_singleton.mpr rfl)
    rw [← h] at hlast
    exact List.not_mem_nil hlast
  obtain ⟨error, herror⟩ := held_torn (b := pixelBlob)
    (s := ⟨some [137, 80], some []⟩) rfl List.nil_prefix hempty
  refine ⟨_, error, fsCrashed_sidecar, fsPut_torn herror, ?_⟩
  rw [fsRead_eq]
  exact herror

end Samples

end Werrss
