import Werrss.Machinery.Run
import Werrss.Persistence.FsBlobCrash

/-!
# Persistence/BlobUploads — uploads of one key at the same time, over a backend that loses answers

    upload 1   read ─▸ write body ─▸ write sidecar ─▸ Ok
    upload 2   read ─▸ write body ─✗  stat ─▸ read ─▸ write sidecar        (reconciled)

Objects are created when they are absent and never deleted, so what an upload is told of them stays
true.  An upload writes its sidecar behind its own body — except at the end of a reconciliation,
which has seen that there is a body, and not whose.  **Where every retried sidecar finds a body of
its own bytes, body and sidecar belong together; and whatever happens, an upload that has answered
`Ok` is read back.**
-/

open Machinery

namespace Werrss

open OpenDalBlobStore Calls

/-- An external backend with conditional writes. -/
def externalBackend : OpenDalBackend := ⟨false, false⟩

/-- The objects behind a call. -/
def BlobObjects.after (texts : OpenDalErrorKind → String) (objects : BlobObjects)
    (call : BlobCall) : BlobObjects :=
  (objects.serve texts false call).1

/-! ## The uploads -/

section Traffic

variable [Sha2Crate] [MetadataJson]

/-- A put that is under way. -/
structure BlobUpload where
  blob : ValidBlob
  program : BlobIO (BlobResult Unit)

/-- The objects of the key, the calls that may still take effect, and the uploads. -/
structure BlobTraffic where
  objects : BlobObjects
  late : List BlobCall
  uploads : List BlobUpload

/-- An absent key that nobody uploads. -/
def BlobTraffic.start : BlobTraffic := ⟨.absent, [], []⟩

/-- What becomes of a call: it is served; its answer is lost, be it before or after it has taken
effect; or it will take effect later. -/
inductive CallFate
  | served
  | lost (took : Bool) (error : OpenDalError)
  | delayed (error : OpenDalError)

inductive BlobEvent
  | begin (blob : ValidBlob)
  | call (upload : ℕ) (fate : CallFate)
  | settle (late : ℕ)

variable (texts : OpenDalErrorKind → String)

/-- **The request of an upload meets its fate.** -/
def BlobTraffic.meet (t : BlobTraffic) (i : ℕ) (blob : ValidBlob) (request : BlobCall)
    (next : Except OpenDalError (List UInt8) → BlobIO (BlobResult Unit)) : CallFate → BlobTraffic
  | .served =>
    { t with
      objects := t.objects.after texts request
      uploads := t.uploads.set i ⟨blob, next (t.objects.serve texts false request).2⟩ }
  | .lost took error =>
    { t with
      objects := if took then t.objects.after texts request else t.objects
      uploads := t.uploads.set i ⟨blob, next (.error error)⟩ }
  | .delayed error =>
    { t with
      late := t.late ++ [request]
      uploads := t.uploads.set i ⟨blob, next (.error error)⟩ }

/-- **One event.** -/
def BlobTraffic.step (t : BlobTraffic) : BlobEvent → BlobTraffic
  | .begin blob =>
    { t with uploads := t.uploads ++ [⟨blob, putWithConditionalWrite externalBackend blob.blob⟩] }
  | .call i fate =>
    match t.uploads[i]? with
    | some ⟨blob, .call request next⟩ => t.meet texts i blob request next fate
    | _ => t
  | .settle j =>
    match t.late[j]? with
    | some request =>
      { t with objects := t.objects.after texts request, late := t.late.eraseIdx j }
    | none => t

/-- What a run of events reaches. -/
def uploaded (events : List BlobEvent) : BlobTraffic :=
  Machinery.run (BlobTraffic.step texts) .start events

/-- An uninterrupted read of the key. -/
def BlobTraffic.read (t : BlobTraffic) : BlobResult (Option AssetBlob) :=
  ((OpenDalBlobStore.read externalBackend).run (BlobObjects.serve texts false) t.objects).2

/-- The upload is about to retry its sidecar, at the end of a reconciliation. -/
def Retries (b : ValidBlob) (program : BlobIO (BlobResult Unit)) : Prop :=
  ∃ originalError, program = retryMetadata externalBackend b.blob originalError

/-- **A sidecar that is retried finds a body of its own bytes**, or another sidecar. -/
def OwnBody (t : BlobTraffic) : BlobEvent → Prop
  | .call i _ => ∀ upload, t.uploads[i]? = some upload → Retries upload.blob upload.program →
    t.objects.sidecar = none → t.objects.body = some upload.blob.blob.bytes
  | _ => True

end Traffic

section Growth

variable {texts : OpenDalErrorKind → String}

/-! ## Objects only appear -/

/-- What is there stays as it is. -/
def ObjectsGrow (s s' : BlobObjects) : Prop :=
  ∀ object, s.get object ≠ none → s'.get object = s.get object

theorem ObjectsGrow.refl (s : BlobObjects) : ObjectsGrow s s := fun _ _ => rfl

theorem ObjectsGrow.trans {s s' s'' : BlobObjects} (h : ObjectsGrow s s')
    (h' : ObjectsGrow s' s'') : ObjectsGrow s s'' :=
  fun object hobject => (h' object ((h object hobject).symm ▸ hobject)).trans (h object hobject)

theorem ObjectsGrow.get {s s' : BlobObjects} (h : ObjectsGrow s s') {object : BlobObject}
    {bytes : List UInt8} (hget : s.get object = some bytes) : s'.get object = some bytes :=
  (h object (hget ▸ Option.some_ne_none bytes)).trans hget

theorem ObjectsGrow.get_body {s s' : BlobObjects} (h : ObjectsGrow s s') {bytes : List UInt8}
    (hbody : s.body = some bytes) : s'.body = some bytes :=
  ObjectsGrow.get h (show s.get .body = some bytes from hbody)

/-- The call creates an object at most. -/
def BlobCall.Creates : BlobCall → Prop
  | .write _ _ conditional => conditional = true
  | .delete _ => False
  | _ => True

theorem get_set (s : BlobObjects) (object other : BlobObject) (bytes : Option (List UInt8)) :
    (s.set object bytes).get other = if other = object then bytes else s.get other := by
  cases object <;> cases other <;> rfl

/-- A conditional write of an absent object. -/
theorem serve_created {s : BlobObjects} {object : BlobObject} (bytes : List UInt8)
    (h : s.get object = none) :
    s.serve texts false (.write object bytes true) = (s.set object (some bytes), .ok []) := by
  have hfree : ¬ (true && (s.get object).isSome) = true := by
    rw [h]
    exact Bool.false_ne_true
  exact if_neg hfree

/-- A conditional write of an object that is there. -/
theorem serve_existing {s : BlobObjects} {object : BlobObject} (bytes : List UInt8)
    (h : s.get object ≠ none) :
    s.serve texts false (.write object bytes true)
      = (s, .error ⟨.alreadyExists, texts .alreadyExists⟩) := by
  have hrefused : (true && (s.get object).isSome) = true := Option.isSome_iff_ne_none.mpr h
  exact if_pos hrefused

/-- Reading changes nothing. -/
theorem after_read (s : BlobObjects) (object : BlobObject) : s.after texts (.read object) = s := by
  unfold BlobObjects.after
  cases hget : s.get object <;> simp only [BlobObjects.serve, hget]

theorem after_stat (s : BlobObjects) (object : BlobObject) : s.after texts (.stat object) = s := by
  unfold BlobObjects.after
  cases hget : s.get object <;> simp only [BlobObjects.serve, hget]

variable (texts) in
theorem grows_after {call : BlobCall} (h : call.Creates) (s : BlobObjects) :
    ObjectsGrow s (s.after texts call) := by
  cases call with
  | read object =>
    rw [after_read]
    exact .refl s
  | stat object =>
    rw [after_stat]
    exact .refl s
  | delete _ => exact h.elim
  | write object bytes conditional =>
    obtain rfl : conditional = true := h
    unfold BlobObjects.after
    by_cases hget : s.get object = none
    · rw [serve_created bytes hget]
      intro other hother
      have hne : other ≠ object := by
        rintro rfl
        exact hother hget
      rw [get_set, if_neg hne]
    · rw [serve_existing bytes hget]
      exact .refl s

/-! ## What an upload is told -/

/-- What an answer says about the objects. -/
def Told (s : BlobObjects) : BlobCall → Except OpenDalError (List UInt8) → Prop
  | .read object, .ok bytes => s.get object = some bytes
  | .stat object, .ok _ => s.get object ≠ none
  | .write object bytes _, .ok _ => s.get object = some bytes
  | _, _ => True

/-- **It stays true.** -/
theorem Told.grows {s s' : BlobObjects} {call : BlobCall}
    {answer : Except OpenDalError (List UInt8)} (h : Told s call answer)
    (hgrows : ObjectsGrow s s') :
    Told s' call answer := by
  cases answer with
  | error error => cases call <;> trivial
  | ok bytes =>
    cases call with
    | read object => exact hgrows.get h
    | stat object => exact ne_of_eq_of_ne (hgrows object h) h
    | write object written conditional => exact hgrows.get h
    | delete object => trivial

/-- A backend that serves a call tells the truth. -/
theorem told_serve {call : BlobCall} (h : call.Creates) (s : BlobObjects) :
    Told (s.after texts call) call (s.serve texts false call).2 := by
  cases call with
  | read object =>
    rw [after_read]
    cases hget : s.get object with
    | none => simp only [BlobObjects.serve, hget, Told]
    | some bytes => simp only [BlobObjects.serve, hget, Told]
  | stat object =>
    rw [after_stat]
    cases hget : s.get object with
    | none => simp only [BlobObjects.serve, hget, Told]
    | some bytes => simp [BlobObjects.serve, hget, Told]
  | delete _ => exact h.elim
  | write object bytes conditional =>
    obtain rfl : conditional = true := h
    unfold BlobObjects.after
    by_cases hget : s.get object = none
    · rw [serve_created bytes hget]
      change (s.set object (some bytes)).get object = some bytes
      rw [get_set, if_pos rfl]
    · rw [serve_existing bytes hget]
      trivial

/-- **What an upload knows** of the objects. -/
abbrev BlobView := BlobObjects → Prop

/-- With one answer more. -/
def learn (known : BlobView) (call : BlobCall) (answer : Except OpenDalError (List UInt8)) :
    BlobView := fun s => known s ∧ Told s call answer

/-- What is known stays true. -/
def Steady (known : BlobView) : Prop := ∀ s s', known s → ObjectsGrow s s' → known s'

theorem Steady.learn {known : BlobView} (h : Steady known) (call : BlobCall)
    (answer : Except OpenDalError (List UInt8)) : Steady (learn known call answer) :=
  fun _ _ hknown hgrows => ⟨h _ _ hknown.1 hgrows, hknown.2.grows hgrows⟩

end Growth

section Knowledge

variable [Sha2Crate] [LawfulMetadataJson] {texts : OpenDalErrorKind → String} {b : ValidBlob}
  {known : BlobView}

variable (texts) in
/-- A call of an upload, if it is still under way. -/
theorem step_call_cases (t : BlobTraffic) (i : ℕ) (fate : CallFate) :
    t.step texts (.call i fate) = t ∨ ∃ b request next,
      t.uploads[i]? = some ⟨b, .call request next⟩ ∧
        t.step texts (.call i fate) = t.meet texts i b request next fate := by
  unfold BlobTraffic.step
  dsimp only
  rcases hget : t.uploads[i]? with _ | ⟨b, _ | ⟨request, next⟩⟩
  · exact .inl rfl
  · exact .inl rfl
  · exact .inr ⟨b, request, next, rfl, rfl⟩

variable (texts) in
theorem step_settle_cases (t : BlobTraffic) (j : ℕ) :
    t.step texts (.settle j) = t ∨ ∃ request ∈ t.late, t.step texts (.settle j)
      = { t with objects := t.objects.after texts request, late := t.late.eraseIdx j } := by
  unfold BlobTraffic.step
  dsimp only
  rcases hget : t.late[j]? with _ | request
  · exact .inl rfl
  · exact .inr ⟨request, List.mem_of_getElem? hget, rfl⟩

/-- **The calls an upload of `b` may make**: it writes its own body, and its own sidecar where it
knows that the body is its own, or retries. -/
def MayCall (b : ValidBlob) (known : BlobView) : BlobIO (BlobResult Unit) → Prop
  | .answer _ => True
  | .call (.write .body bytes conditional) _ => conditional = true ∧ bytes = b.blob.bytes
  | .call (.write .sidecar bytes conditional) next => conditional = true ∧ bytes = b.json ∧
    ((∀ s, known s → s.body = some b.blob.bytes) ∨
      (∀ s, known s → s.body ≠ none) ∧ Retries b (.call (.write .sidecar bytes conditional) next))
  | .call (.delete _) _ => False
  | .call _ _ => True

/-- An upload that has answered `Ok` knows that it is read back. -/
def Stored (b : ValidBlob) (known : BlobView) (answer : BlobResult Unit) : Prop :=
  answer = .ok () → ∀ s, known s → s.held externalBackend = .ok (some b.blob)

/-- **An upload of `b`**, from what it knows. -/
def Uploading (b : ValidBlob) (known : BlobView) (program : BlobIO (BlobResult Unit)) : Prop :=
  Sure learn (MayCall b) (Stored b) known program

/-! ## What a read tells -/

/-- Sidecar and body make up what is held. -/
theorem held_of_objects {s : BlobObjects} {sidecar body : List UInt8} {metadata : StoredMetadata}
    (hsidecar : s.sidecar = some sidecar)
    (hmetadata : MetadataJson.fromSlice sidecar = .ok metadata)
    (hbody : s.body = some body) (hsize : ¬ body.length ≠ metadata.byteSize) :
    s.held externalBackend
      = (AssetBlob.new body metadata.mediaType metadata.checksum).map some := by
  have hread : s.metadata externalBackend = .ok (some metadata) :=
    BlobObjects.metadata_of_ok externalBackend rfl hsidecar hmetadata
  unfold BlobObjects.held
  rw [hread, hbody]
  exact if_neg hsize

/-- **A read finds what is held**, of everything it may be among. -/
def Found (known known' : BlobView) (found : BlobResult (Option AssetBlob)) : Prop :=
  (∀ s, known' s → known s) ∧
    ∀ blob, found = .ok (some blob) → ∀ s, known' s → s.held externalBackend = .ok (some blob)

theorem sure_read (known : BlobView) :
    Sure learn (fun _ _ => True) (Found known) known (OpenDalBlobStore.read externalBackend) := by
  refine ⟨trivial, fun r => ?_⟩
  rcases r with error | sidecar
  · change Sure _ _ _ _ ((if error.kind = .notFound then _ else _) >>= _)
    split_ifs <;> exact ⟨fun _ h => h.1, fun _ h => by cases h⟩
  · rcases hmetadata : MetadataJson.fromSlice sidecar with message | metadata
    · simp only [Calls.bind, externalBackend, Bool.false_eq_true, if_false, hmetadata]
      exact ⟨fun _ h => h.1, fun _ h => by cases h⟩
    · simp only [Calls.bind, externalBackend, Bool.false_eq_true, if_false, hmetadata]
      refine ⟨trivial, fun r => ?_⟩
      rcases r with error | body
      · change Sure _ _ _ _ (if error.kind = .notFound then _ else _)
        split_ifs <;> exact ⟨fun _ h => h.1.1, fun _ h => by cases h⟩
      · change Sure _ _ _ _ (if body.length ≠ metadata.byteSize then _ else _)
        split_ifs with hsize
        · exact ⟨fun _ h => h.1.1, fun _ h => by cases h⟩
        · refine ⟨fun _ h => h.1.1, fun blob hblob s h => ?_⟩
          rw [held_of_objects h.1.2 hmetadata h.2 hsize]
          exact hblob

/-- A program that reads first. -/
theorem uploading_read_bind {f : BlobResult (Option AssetBlob) → BlobIO (BlobResult Unit)}
    (h : ∀ known' found, Found known known' found → Uploading b known' (f found)) :
    Uploading b known (OpenDalBlobStore.read externalBackend >>= f) := by
  refine every_read.sure_bind (sure_read known) (fun known' c next hread => ?_) h
  cases c with
  | read _ => trivial
  | stat _ => trivial
  | write _ _ _ => exact hread.elim
  | delete _ => exact hread.elim

/-- An error promises nothing. -/
theorem uploading_error (error : AssetBlobStoreError) :
    Uploading b known (.answer (.error error)) := fun h => nomatch h

/-- What is read is compared with the blob. -/
theorem uploading_compare {known' : BlobView} {existing : AssetBlob}
    (h : Found known known' (.ok (some existing))) :
    Uploading b known' (if existing = b.blob then return .ok () else return .error .conflict) := by
  split_ifs with heq
  · subst heq
    exact fun _ => h.2 _ rfl
  · exact uploading_error _

/-! ## What an upload does -/

/-- **The sidecar is written**: behind it is the blob's own, or all of the blob. -/
theorem uploading_metadata_bind {f : BlobResult Unit → BlobIO (BlobResult Unit)}
    (hmay : MayCall b known (writeMetadata externalBackend b.blob >>= f))
    (hf : ∀ known' answer, (∀ s, known' s → known s) →
      (answer = .ok () → ∀ s, known' s →
        s.sidecar = some b.json ∨ s.held externalBackend = .ok (some b.blob)) →
      Uploading b known' (f answer)) :
    Uploading b known (writeMetadata externalBackend b.blob >>= f) := by
  refine ⟨hmay, fun r => ?_⟩
  rcases r with error | bytes
  · change Uploading _ _ ((if isExistingError error = true then _ else _) >>= f)
    split_ifs
    · rw [bind_assoc]
      refine uploading_read_bind fun known' found hfound => ?_
      rcases found with failure | _ | existing
      · exact hf _ _ (fun s h => (hfound.1 s h).1) fun h => nomatch h
      · exact hf _ _ (fun s h => (hfound.1 s h).1) fun h => nomatch h
      · change Uploading _ _ ((if existing = b.blob then _ else _) >>= f)
        split_ifs with heq
        · subst heq
          exact hf _ _ (fun s h => (hfound.1 s h).1) fun _ s h => .inr (hfound.2 _ rfl s h)
        · exact hf _ _ (fun s h => (hfound.1 s h).1) fun h => nomatch h
    · exact hf _ _ (fun _ h => h.1) fun h => nomatch h
  · exact hf _ _ (fun _ h => h.1) fun _ s h => .inl h.2

/-- **A retried sidecar**: all it knows is that there is a body. -/
theorem uploading_retry {originalError : String} (h : ∀ s, known s → s.body ≠ none) :
    Uploading b known (retryMetadata externalBackend b.blob originalError) := by
  refine uploading_metadata_bind ⟨rfl, rfl, .inr ⟨h, originalError, rfl⟩⟩ ?_
  intro known' answer hknown hanswer
  rcases answer with failure | _
  · exact uploading_error _
  · refine uploading_read_bind fun known'' found hfound => ?_
    rcases found with failure | _ | existing
    · exact uploading_error _
    · exact uploading_error _
    · exact uploading_compare hfound

theorem uploading_reconcile {originalError : AssetBlobStoreError} :
    Uploading b known (reconcileExternalWrite externalBackend b.blob originalError) := by
  refine ⟨trivial, fun r => ?_⟩
  rcases r with error | bytes
  · change Uploading _ _ (if error.kind = .notFound then _ else _)
    split_ifs <;> exact uploading_error _
  · refine uploading_read_bind fun known' found hfound => ?_
    rcases found with failure | _ | existing
    · exact uploading_error _
    · exact uploading_retry fun s h => (hfound.1 s h).2
    · exact uploading_compare hfound

/-- **The sidecar behind the blob's own body.** -/
theorem uploading_sidecar {f : AssetBlobStoreError → BlobIO (BlobResult Unit)}
    (hbody : ∀ s, known s → s.body = some b.blob.bytes)
    (hf : ∀ known' error, Uploading b known' (f error)) :
    Uploading b known (do
      match ← writeMetadata externalBackend b.blob with
      | .ok () => return .ok ()
      | .error error => f error) := by
  refine uploading_metadata_bind ⟨rfl, rfl, .inl hbody⟩ fun known' answer hknown hanswer => ?_
  rcases answer with failure | _
  · exact hf known' failure
  · intro _ s hs
    refine (hanswer rfl s hs).elim (fun hsidecar => ?_) id
    obtain ⟨body, sidecar⟩ := s
    obtain rfl : body = some b.blob.bytes := hbody _ (hknown _ hs)
    obtain rfl : sidecar = some b.json := hsidecar
    exact held_stored

theorem uploading_recover {originalError : OpenDalError} :
    Uploading b known (recoverBodyOnlyPartialWrite externalBackend b.blob originalError) := by
  have hroot : ¬ externalBackend.hasRoot = true := Bool.false_ne_true
  refine ⟨trivial, fun r => ?_⟩
  rcases r with error | bytes
  · change Uploading _ _ (if error.kind = .notFound then _ else _)
    by_cases hkind : error.kind = .notFound
    · rw [if_pos hkind]
      exact uploading_error _
    · rw [if_neg hkind, if_neg hroot]
      exact uploading_reconcile
  · change Uploading _ _ (if bytes ≠ b.blob.bytes then _ else _)
    by_cases hown : bytes = b.blob.bytes
    · subst hown
      rw [if_neg (not_not_intro rfl)]
      exact uploading_sidecar (fun s h => h.2) fun _ _ => uploading_reconcile
    · rw [if_pos hown, if_neg hroot]
      exact uploading_error _

/-- **A put, from nothing that it knows.** -/
theorem uploading_put :
    Uploading b known (putWithConditionalWrite externalBackend b.blob) := by
  refine uploading_read_bind fun known' found hfound => ?_
  rcases found with failure | _ | existing
  · exact uploading_error _
  · refine ⟨⟨rfl, rfl⟩, fun r => ?_⟩
    rcases r with error | bytes
    · change Uploading _ _ (if isExistingError error = true then _ else _)
      split_ifs
      · refine uploading_read_bind fun known'' found hfound => ?_
        rcases found with failure | _ | existing
        · exact uploading_error _
        · exact uploading_recover
        · exact uploading_compare hfound
      · exact uploading_reconcile
    · exact uploading_sidecar (fun s h => h.2) fun _ _ => uploading_reconcile
  · exact uploading_compare hfound

/-! ## Runs -/

/-- An upload knows what is true. -/
def Informed (objects : BlobObjects) (upload : BlobUpload) : Prop :=
  ∃ known, Steady known ∧ known objects ∧ Uploading upload.blob known upload.program

theorem Informed.grows {s s' : BlobObjects} {upload : BlobUpload} (h : Informed s upload)
    (hgrows : ObjectsGrow s s') : Informed s' upload :=
  let ⟨known, hsteady, hknown, hsure⟩ := h
  ⟨known, hsteady, hsteady _ _ hknown hgrows, hsure⟩

/-- It is told one thing more. -/
theorem Informed.answered {s s' : BlobObjects} {request : BlobCall}
    {next : Except OpenDalError (List UInt8) → BlobIO (BlobResult Unit)}
    {answer : Except OpenDalError (List UInt8)} (h : Informed s ⟨b, .call request next⟩)
    (hgrows : ObjectsGrow s s') (htold : Told s' request answer) : Informed s' ⟨b, next answer⟩ :=
  let ⟨known, hsteady, hknown, hsure⟩ := h
  ⟨learn known request answer, hsteady.learn request answer,
    ⟨hsteady _ _ hknown hgrows, htold⟩, hsure.2 answer⟩

theorem MayCall.creates {request : BlobCall}
    {next : Except OpenDalError (List UInt8) → BlobIO (BlobResult Unit)}
    (h : MayCall b known (.call request next)) : request.Creates := by
  rcases request with _ | _ | ⟨_ | _, _, _⟩ | _
  · trivial
  · trivial
  · exact h.1
  · exact h.1
  · exact h

/-- **Every upload knows what is true**, and nothing is going to be deleted or replaced. -/
structure Orderly (t : BlobTraffic) : Prop where
  uploads : ∀ upload ∈ t.uploads, Informed t.objects upload
  late : ∀ request ∈ t.late, request.Creates

theorem Orderly.request {t : BlobTraffic} (h : Orderly t) {i : ℕ} {request : BlobCall}
    {next : Except OpenDalError (List UInt8) → BlobIO (BlobResult Unit)}
    (hget : t.uploads[i]? = some ⟨b, .call request next⟩) :
    Informed t.objects ⟨b, .call request next⟩ ∧ request.Creates := by
  have hinformed := h.uploads _ (List.mem_of_getElem? hget)
  exact ⟨hinformed, let ⟨_, _, _, hsure⟩ := hinformed; hsure.1.creates⟩

/-- One upload goes on, the others see the objects grow. -/
theorem Orderly.uploads_set {t : BlobTraffic} (h : Orderly t) {objects : BlobObjects}
    {upload : BlobUpload} (hgrows : ObjectsGrow t.objects objects)
    (hupload : Informed objects upload) (i : ℕ) :
    ∀ other ∈ t.uploads.set i upload, Informed objects other := by
  intro other hother
  rcases List.mem_or_eq_of_mem_set hother with hold | rfl
  · exact (h.uploads other hold).grows hgrows
  · exact hupload

theorem Orderly.step {t : BlobTraffic} (h : Orderly t) (event : BlobEvent) :
    Orderly (t.step texts event) := by
  rcases event with blob | ⟨i, fate⟩ | j
  · refine ⟨fun upload hupload => ?_, h.late⟩
    rcases List.mem_append.mp hupload with hold | hnew
    · exact h.uploads upload hold
    · rw [List.mem_singleton.mp hnew]
      exact ⟨fun _ => True, fun _ _ _ _ => trivial, trivial, uploading_put⟩
  · rcases step_call_cases texts t i fate with heq | ⟨b, request, next, hget, heq⟩
    · rwa [heq]
    · rw [heq]
      obtain ⟨hinformed, hcreates⟩ := h.request hget
      have hafter := grows_after texts hcreates t.objects
      have hfailed (objects : BlobObjects) (error : OpenDalError) :
          Told objects request (.error error) := by
        cases request <;> trivial
      rcases fate with _ | ⟨_ | _, error⟩ | error
      · exact ⟨h.uploads_set hafter (hinformed.answered hafter (told_serve hcreates _)) i, h.late⟩
      · exact ⟨h.uploads_set (.refl _) (hinformed.answered (.refl _) (hfailed _ error)) i, h.late⟩
      · exact ⟨h.uploads_set hafter (hinformed.answered hafter (hfailed _ error)) i, h.late⟩
      · refine ⟨h.uploads_set (.refl _) (hinformed.answered (.refl _) (hfailed _ error)) i, ?_⟩
        intro request' hrequest'
        rcases List.mem_append.mp hrequest' with hold | hnew
        · exact h.late request' hold
        · exact List.mem_singleton.mp hnew ▸ hcreates
  · rcases step_settle_cases texts t j with heq | ⟨request, hrequest, heq⟩
    · rwa [heq]
    · rw [heq]
      have hafter := grows_after texts (h.late request hrequest) t.objects
      exact ⟨fun upload hupload => (h.uploads upload hupload).grows hafter,
        fun request' hrequest' => h.late request' (List.mem_of_mem_eraseIdx hrequest')⟩

/-! ## Bodies and sidecars -/

/-- The sidecar describes the body. -/
def Described (s : BlobObjects) : Prop :=
  ∀ sidecar, s.sidecar = some sidecar →
    ∃ b : ValidBlob, sidecar = b.json ∧ s.body = some b.blob.bytes

/-- A write of a sidecar comes too late, or describes the body. -/
def FitsBody (s : BlobObjects) : BlobCall → Prop
  | .write .sidecar sidecar _ => s.sidecar ≠ none ∨
    ∃ b : ValidBlob, sidecar = b.json ∧ s.body = some b.blob.bytes
  | _ => True

theorem FitsBody.grows {s s' : BlobObjects} {request : BlobCall} (h : FitsBody s request)
    (hgrows : ObjectsGrow s s') : FitsBody s' request := by
  rcases request with _ | _ | ⟨_ | _, sidecar, conditional⟩ | _
  · trivial
  · trivial
  · trivial
  · refine h.imp (fun hsidecar => ?_) fun ⟨b, hjson, hbody⟩ => ⟨b, hjson, ?_⟩
    · exact ne_of_eq_of_ne (hgrows .sidecar hsidecar) hsidecar
    · exact hgrows.get_body hbody
  · trivial

variable (texts) in
/-- **A request that fits keeps the sidecar true to the body.** -/
theorem Described.after {s : BlobObjects} {request : BlobCall} (h : Described s)
    (hcreates : request.Creates) (hfits : FitsBody s request) :
    Described (s.after texts request) := by
  rcases request with object | object | ⟨object, bytes, conditional⟩ | object
  · rwa [after_read]
  · rwa [after_stat]
  · obtain rfl : conditional = true := hcreates
    unfold BlobObjects.after
    by_cases hget : s.get object = none
    · rw [serve_created bytes hget]
      cases object with
      | body =>
        intro sidecar hsidecar
        obtain ⟨b, -, hbody⟩ := h sidecar hsidecar
        exact nomatch hget.symm.trans hbody
      | sidecar =>
        intro sidecar hsidecar
        obtain rfl : bytes = sidecar := Option.some.inj hsidecar
        exact hfits.resolve_left (not_not_intro hget)
    · rwa [serve_existing bytes hget]
  · exact hcreates.elim

/-- The sidecar describes the body, and whatever comes late fits. -/
structure SidecarsMatch (t : BlobTraffic) : Prop where
  described : Described t.objects
  late : ∀ request ∈ t.late, FitsBody t.objects request

/-- **What an upload asks fits**, if it does not retry a sidecar over another's body. -/
theorem Orderly.fits {t : BlobTraffic} (h : Orderly t) {i : ℕ} {fate : CallFate}
    {request : BlobCall} {next : Except OpenDalError (List UInt8) → BlobIO (BlobResult Unit)}
    (hget : t.uploads[i]? = some ⟨b, .call request next⟩) (hown : OwnBody t (.call i fate)) :
    FitsBody t.objects request := by
  obtain ⟨known, -, hknown, hsure⟩ := h.uploads _ (List.mem_of_getElem? hget)
  have hmay := hsure.1
  rcases request with _ | _ | ⟨_ | _, sidecar, conditional⟩ | _
  · trivial
  · trivial
  · trivial
  · obtain ⟨-, hjson, hbody | ⟨-, hretries⟩⟩ := hmay
    · exact .inr ⟨b, hjson, hbody _ hknown⟩
    · by_cases hsidecar : t.objects.sidecar = none
      · exact .inr ⟨b, hjson, hown _ hget hretries hsidecar⟩
      · exact .inl hsidecar
  · trivial

theorem SidecarsMatch.step {t : BlobTraffic} {event : BlobEvent} (h : SidecarsMatch t)
    (horderly : Orderly t) (hown : OwnBody t event) : SidecarsMatch (t.step texts event) := by
  rcases event with blob | ⟨i, fate⟩ | j
  · exact ⟨h.described, h.late⟩
  · rcases step_call_cases texts t i fate with heq | ⟨b, request, next, hget, heq⟩
    · rwa [heq]
    · rw [heq]
      obtain ⟨-, hcreates⟩ := horderly.request hget
      have hfits := horderly.fits hget hown
      have hafter := h.described.after texts hcreates hfits
      have hlate := fun other hother =>
        (h.late other hother).grows (grows_after texts hcreates t.objects)
      rcases fate with _ | ⟨_ | _, error⟩ | error
      · exact ⟨hafter, hlate⟩
      · exact ⟨h.described, h.late⟩
      · exact ⟨hafter, hlate⟩
      · refine ⟨h.described, fun other hother => ?_⟩
        rcases List.mem_append.mp hother with hold | hnew
        · exact h.late other hold
        · exact List.mem_singleton.mp hnew ▸ hfits
  · rcases step_settle_cases texts t j with heq | ⟨request, hrequest, heq⟩
    · rwa [heq]
    · rw [heq]
      have hcreates := horderly.late request hrequest
      exact ⟨h.described.after texts hcreates (h.late request hrequest), fun other hother =>
        (h.late other (List.mem_of_mem_eraseIdx hother)).grows
          (grows_after texts hcreates t.objects)⟩

/-! ## What is read -/

theorem traffic_read_eq (t : BlobTraffic) :
    t.read texts = t.objects.held externalBackend := by
  rw [BlobTraffic.read, run_read]

theorem orderly_start : Orderly .start :=
  ⟨fun _ h => absurd h List.not_mem_nil, fun _ h => absurd h List.not_mem_nil⟩

theorem matched_start : SidecarsMatch .start := by
  refine ⟨fun sidecar h => ?_, fun _ h => absurd h List.not_mem_nil⟩
  exact absurd h.symm (Option.some_ne_none sidecar)

variable (texts) in
theorem Orderly.run (events : List BlobEvent) :
    Orderly (uploaded texts events) :=
  run_preserves (fun _ event h => h.step event) events orderly_start

/-- In runs that meet the guard both hold. -/
theorem SidecarsMatch.run {events : List BlobEvent}
    (h : Meets (BlobTraffic.step texts) OwnBody .start events) :
    SidecarsMatch (uploaded texts events) := by
  have hstep (t : BlobTraffic) (event : BlobEvent) (ht : Orderly t ∧ SidecarsMatch t)
      (hown : OwnBody t event) :
      Orderly (t.step texts event) ∧ SidecarsMatch (t.step texts event) :=
    ⟨ht.1.step event, ht.2.step ht.1 hown⟩
  exact (run_invariant hstep events ⟨orderly_start, matched_start⟩ h).2

variable (texts) in
theorem Orderly.read_of_ok {t : BlobTraffic} (h : Orderly t) {upload : BlobUpload}
    (hupload : upload ∈ t.uploads) (hok : upload.program = .answer (.ok ())) :
    t.read texts = .ok (some upload.blob.blob) := by
  obtain ⟨known, -, hknown, hsure⟩ := h.uploads upload hupload
  rw [hok] at hsure
  rw [traffic_read_eq]
  exact hsure rfl _ hknown

variable (texts) in
/-- **Uploads that answered `Ok` are read back whatever happens, and where every retried sidecar
finds a body of its own bytes, body and sidecar are one blob.** -/
theorem uploads_agree (events : List BlobEvent) :
    (∀ upload ∈ (uploaded texts events).uploads,
      upload.program = .answer (.ok ()) →
        (uploaded texts events).read texts = .ok (some upload.blob.blob)) ∧
    (∀ upload ∈ (uploaded texts events).uploads,
      ∀ other ∈ (uploaded texts events).uploads,
        upload.program = .answer (.ok ()) → other.program = .answer (.ok ()) →
          upload.blob.blob = other.blob.blob) ∧
    (Meets (BlobTraffic.step texts) OwnBody .start events → ∀ body sidecar,
      (uploaded texts events).objects = ⟨some body, some sidecar⟩ →
        ∃ b : ValidBlob, sidecar = MetadataJson.toVec b.blob.storedMetadata ∧ body = b.blob.bytes ∧
          (uploaded texts events).read texts = .ok (some b.blob)) := by
  have horderly := Orderly.run texts events
  refine ⟨fun upload hupload hok => horderly.read_of_ok texts hupload hok,
    fun upload hupload other hother hok hok' => ?_, fun hmeets body sidecar hobjects => ?_⟩
  · have hread := (horderly.read_of_ok texts hupload hok).symm.trans
      (horderly.read_of_ok texts hother hok')
    exact Option.some.inj (Except.ok.inj hread)
  · obtain ⟨b, rfl, hbody⟩ :=
      (SidecarsMatch.run hmeets).described sidecar (congrArg BlobObjects.sidecar hobjects)
    obtain rfl : body = b.blob.bytes :=
      Option.some.inj ((congrArg BlobObjects.body hobjects).symm.trans hbody)
    refine ⟨b, rfl, rfl, ?_⟩
    rw [traffic_read_eq, hobjects]
    exact held_stored

/-! ## Two uploads -/

/-- The second upload begins behind the body of the first, times out, and reconciles. -/
def crossing (b b' : ValidBlob) (text : String) : List BlobEvent :=
  [.begin b, .call 0 .served, .call 0 .served, .begin b', .call 1 .served,
    .call 1 (.lost false ⟨.unexpected, text⟩), .call 1 .served, .call 1 .served, .call 1 .served]

/-- **The sidecar of the second lies beside the body of the first.** -/
theorem crossing_objects (b b' : ValidBlob) (text : String) :
    (uploaded texts (crossing b b' text)).objects = ⟨some b.blob.bytes, some b'.json⟩ := by
  let between (p q : BlobIO (BlobResult Unit)) : BlobTraffic :=
    ⟨⟨some b.blob.bytes, none⟩, [], [⟨b, p⟩, ⟨b', q⟩]⟩
  have hbegun : ∃ p next, uploaded texts [.begin b, .call 0 .served, .call 0 .served, .begin b',
      .call 1 .served] = between p (.call (.write .body b'.blob.bytes true) next) ∧
        ∃ error, next (.error ⟨.unexpected, text⟩)
          = reconcileExternalWrite externalBackend b'.blob error :=
    ⟨_, _, rfl, _, rfl⟩
  obtain ⟨p, next, hbegun, error, hnext⟩ := hbegun
  have hreconcile : ∃ next', reconcileExternalWrite externalBackend b'.blob error
      = .call (.stat .body) next' ∧ ∃ next'', next' (.ok []) = .call (.read .sidecar) next'' ∧
        ∃ text', next'' (.error ⟨.notFound, texts .notFound⟩)
          = retryMetadata externalBackend b'.blob text' :=
    ⟨_, rfl, _, rfl, _, rfl⟩
  obtain ⟨next', hstat, next'', hread, text', hretry⟩ := hreconcile
  have hsplit : crossing b b' text = [.begin b, .call 0 .served, .call 0 .served, .begin b',
      .call 1 .served] ++ [.call 1 (.lost false ⟨.unexpected, text⟩), .call 1 .served,
        .call 1 .served, .call 1 .served] := rfl
  rw [hsplit, uploaded, run_append]
  change (Machinery.run _ (uploaded texts _) _).objects = _
  rw [hbegun]
  change (Machinery.run (BlobTraffic.step texts) (between p (next (.error ⟨.unexpected, text⟩)))
    [.call 1 .served, .call 1 .served, .call 1 .served]).objects = _
  rw [hnext, hstat]
  change (Machinery.run (BlobTraffic.step texts) (between p (next' (.ok [])))
    [.call 1 .served, .call 1 .served]).objects = _
  rw [hread]
  change ((between p (next'' (.error ⟨.notFound, texts .notFound⟩))).step texts
    (.call 1 .served)).objects = _
  rw [hretry]
  rfl

end Knowledge

end Werrss
