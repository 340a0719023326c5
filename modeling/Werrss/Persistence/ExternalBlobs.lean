import Werrss.Machinery.Calls
import Werrss.Machinery.Run
import Werrss.Machinery.Std

/-!
# Persistence/ExternalBlobs — who answers for the objects that are written outside the database

    draw a key ─▸ put ─▸ insert its row ─▸ … ─▸ COMMIT              the row answers for the object
         ╰──── a batch fails ┊ rollback ┊ drop ────▸ delete ─✗─▸ cleanup queue ─▸ drain

An external backend takes no part in the transaction: its objects are there before the commit, and
stay when there is none.  Every task remembers the keys it has drawn before it puts them, takes
them out of its memory to delete them, and queues those it cannot delete.  Tasks are programs over
their requests, so that one may be dropped between any two of them, and any number of them may be
under way.
-/

open Machinery

namespace Werrss

namespace ExternalBlobs

/-! ## Requests and their fates -/

/-- What a statement makes of the tables of blobs. -/
inductive BlobWrite
  | insertRow (key : Uuid)
  | deleteRows (keys : List Uuid)
  | queueCleanup (key : Uuid)
  | dequeueCleanup (key : Uuid)
deriving DecidableEq, Repr

/-- The requests of a task.  A `lookup` finds something or not; a `statement` is any other step that
can fail; what is shared with no other task (`draw`, `writtenLength`, `takeWritten`, `finish`) is
done at once. -/
inductive Request
  | statement
  | lookup
  | write (change : BlobWrite)
  | autocommit (change : BlobWrite)
  | cleanupQueue
  | drainDeletions
  | begin | savepoint | release | rollbackTo | commit | rollback
  | put (key : Uuid)
  | delete (key : Uuid)
  | draw
  | writtenLength
  | takeWritten (start : ℕ)
  | finish
deriving DecidableEq, Repr

/-- What becomes of a request.  One that is refused may have taken effect — of a statement it says
whether the transaction is aborted by it — and one of the backend may do so later. -/
inductive Fate
  | served
  | refused (took : Bool)
  | late
  | absent
  | fresh (key : Uuid)
  | keys (keys : List Uuid)
  | count (length : ℕ)
deriving DecidableEq, Repr

/-- A program of a task. -/
abbrev Program (A : Type) := Calls Request Fate A

/-- A request whose failure is handed on: `?`. -/
def attempt (request : Request) (next : Program Bool) : Program Bool :=
  .call request fun fate => if fate = .served then next else .answer false

/-- A program that goes on where it succeeds. -/
def andThen (p next : Program Bool) : Program Bool :=
  p >>= fun succeeded => if succeeded then next else .answer false

/-! ## Cleaning up -/

/-- One pass over keys: those that could not be deleted. -/
def deletePass : List Uuid → Program (List Uuid)
  | [] => .answer []
  | key :: keys => .call (.delete key) fun fate =>
    deletePass keys >>= fun failed => .answer (if fate = .served then failed else key :: failed)

/-- Keys that are queued, each in a statement of its own. -/
def queueEach : List Uuid → Program Bool
  | [] => .answer false
  | key :: keys => attempt (.autocommit (.queueCleanup key)) (queueEach keys)

/-- `cleanup_external_blobs`: two passes, and the cleanup queue for what is left.  The keys that are
left also go back to the memory of a task that has ended. -/
def cleanupExternalBlobs : Program Bool :=
  .call (.takeWritten 0) fun
    | .keys keys => deletePass keys >>= fun remaining =>
      if remaining.isEmpty then .answer true
      else deletePass remaining >>= fun failed =>
        if failed.isEmpty then .answer true else queueEach failed
    | _ => .answer false

/-- The loop of `cleanup_new_blobs`, and whether a deletion failed. -/
def deleteNewBlobs : List Uuid → Program Bool
  | [] => .answer false
  | key :: keys => .call (.delete key) fun fate =>
    if fate = .served then deleteNewBlobs keys
    else .call (.write (.queueCleanup key)) fun _ => deleteNewBlobs keys >>= fun _ => .answer true

/-- `cleanup_new_blobs`: failures are queued in the transaction that goes on. -/
def cleanupNewBlobs (keys : List Uuid) : Program Unit :=
  if keys.isEmpty then .answer ()
  else deleteNewBlobs keys >>= fun deleteFailed =>
    if deleteFailed then .answer () else .call (.write (.deleteRows keys)) fun _ => .answer ()

/-- Keys that are queued in one transaction. -/
def queueTogether : List Uuid → Program Bool
  | [] => attempt .commit (.answer true)
  | key :: keys => attempt (.write (.queueCleanup key)) (queueTogether keys)

/-- `cleanup_blob_ids_after_rollback`. -/
def cleanupBlobIdsAfterRollback (keys : List Uuid) : Program Bool :=
  deletePass keys >>= fun failed =>
    if failed.isEmpty then .answer true else attempt .begin (queueTogether failed)

/-- The loop of `drain_blob_cleanup_queue`. -/
def drainEach : List Uuid → Program Bool
  | [] => attempt .commit (.answer true)
  | key :: keys =>
    attempt (.delete key) <| attempt (.write (.dequeueCleanup key)) <| drainEach keys

/-- `drain_blob_cleanup_queue`. -/
def drainBlobCleanupQueue : Program Bool :=
  attempt .begin <| attempt .statement <| .call .cleanupQueue fun
    | .keys keys => drainEach keys
    | _ => .answer false

/-! ## Storing -/

/-- `insert_blob`: the key is remembered before the object is put. -/
def insertBlob : Program Bool :=
  attempt .statement <| .call .draw fun
    | .fresh key =>
      attempt (.put key) <| attempt (.write (.insertRow key)) <| attempt .statement <| .answer true
    | _ => .answer false

/-- `store_one`: a blob with these bytes is used again, or a new one is inserted. -/
def storeOne : Program Bool :=
  attempt .statement <| .call .lookup fun
    | .served => attempt .statement (.answer true)
    | .absent => andThen insertBlob (attempt .statement (.answer true))
    | _ => .answer false

/-- `store_inputs`, of so many inputs. -/
def storeInputs : ℕ → Program Bool
  | 0 => .answer true
  | inputs + 1 =>
    attempt .statement <| andThen storeOne <| attempt .statement <| storeInputs inputs

/-- A batch that has been rolled back deletes what it wrote. -/
def abandonBatch (start : ℕ) : Program Bool :=
  .call (.takeWritten start) fun
    | .keys keys => cleanupNewBlobs keys >>= fun _ => .answer false
    | _ => .answer false

/-- A batch behind a savepoint; `locks` says that it takes the capacity lock first. -/
def atSavepoint (locks : Bool) (batch : Program Bool) : Program Bool :=
  .call .writtenLength fun
    | .count start =>
      let guarded := attempt .savepoint <| batch >>= fun stored =>
        if stored then
          .call .release fun fate => if fate = .served then .answer true else abandonBatch start
        else .call .rollbackTo fun _ => abandonBatch start
      if locks then attempt .statement guarded else guarded
    | _ => .answer false

/-- `store_for_article`. -/
def storeForArticle (inputs : ℕ) : Program Bool :=
  attempt .statement <|
    if inputs = 0 then .answer true else atSavepoint true (storeInputs inputs)

/-- `replace_for_article`. -/
def replaceForArticle (inputs : ℕ) : Program Bool :=
  attempt .statement <|
    atSavepoint (decide (inputs ≠ 0)) <| attempt .statement <| storeInputs inputs

/-! ## Ends -/

/-- So many statements, one after another. -/
def statements : ℕ → Program Bool → Program Bool
  | 0, next => next
  | count + 1, next => attempt .statement (statements count next)

/-- `UnitOfWork::commit`, with so many deferred evictions. -/
def commit (evictions : ℕ) : Program Bool :=
  statements evictions <| .call .finish fun _ =>
    attempt .commit <| attempt .drainDeletions drainBlobCleanupQueue

/-- `UnitOfWork::rollback`. -/
def rollback : Program Bool :=
  .call .finish fun _ => .call .rollback fun fate =>
    andThen cleanupExternalBlobs (.answer (decide (fate = .served)))

/-- A restore that fails after its insert. -/
def abandonRestore : Program Bool :=
  .call .rollback fun _ => .call (.takeWritten 0) fun
    | .keys keys => cleanupBlobIdsAfterRollback keys >>= fun _ => .answer false
    | _ => .answer false

/-- The second half of `restore_missing_asset`, behind the lock on the job. -/
def finishRestore : Program Bool :=
  .call .statement fun fate =>
    if fate = .served then attempt .commit (.answer true) else abandonRestore

/-- `restore_missing_asset`: the first lookup finds nothing to do, the second finds the bytes. -/
def restoreMissingAsset : Program Bool :=
  attempt .begin <| attempt .statement <| .call .lookup fun
    | .served => attempt .commit (.answer true)
    | .absent => .call .lookup fun
      | .served => finishRestore
      | .absent => insertBlob >>= fun inserted =>
        if inserted then finishRestore else abandonRestore
      | _ => .answer false
    | _ => .answer false

/-! ## Tasks -/

/-- How it stands with the transaction of a task. -/
inductive TransactionStage
  | live | broken | closed
deriving DecidableEq, Repr

/-- **What a task has in hand**: whether it is a unit of work, which cleans up when it is dropped;
the keys it remembers (`newly_written`); its transaction; and whether it is finished.  The second
half is what its program knows: whether a commit has been asked for, where the last batch began,
which keys it has put, taken over to delete them, found in the queue and deleted, and whether it has
let go of a key that nothing else knows. -/
structure Hand where
  guarded : Bool
  written : List Uuid
  writes : List BlobWrite
  savepoint : Option ℕ
  stage : TransactionStage
  finished : Bool
  settled : Bool
  mark : ℕ
  stored : List Uuid
  owed : List Uuid
  queued : List Uuid
  deleted : List Uuid
  missed : Bool
deriving DecidableEq, Repr

namespace Hand

/-- A task without a transaction. -/
def empty : Hand := ⟨false, [], [], none, .closed, false, false, 0, [], [], [], [], false⟩

/-- The transaction has come to its end. -/
def close (h : Hand) : Hand := { h with writes := [], savepoint := none, stage := .closed }

/-- Back to the savepoint. -/
def restored (h : Hand) : Hand :=
  { h with writes := h.writes.take (h.savepoint.getD 0), savepoint := none, stage := .live }

/-- A statement fails, and aborts the transaction or does not. -/
def failed (h : Hand) (aborts : Bool) : Hand :=
  { h with stage := if aborts ∧ h.stage = .live then .broken else h.stage }

/-- A statement succeeds, which may have queued a key. -/
def handOver (h : Hand) (change : BlobWrite) : Hand :=
  { h with
    owed :=
      match change with
      | .queueCleanup key => h.owed.filter (· ≠ key)
      | _ => h.owed }

/-- A statement fails, which may have queued a key. -/
def miss (h : Hand) (change : BlobWrite) : Hand :=
  { h with
    missed :=
      match change with
      | .queueCleanup _ => true
      | _ => h.missed }

/-- **The hand after a request has met its fate.** -/
def after (h : Hand) : Request → Fate → Hand
  | .statement, .refused aborts => h.failed aborts
  | .lookup, .refused aborts => h.failed aborts
  | .cleanupQueue, .refused aborts => h.failed aborts
  | .savepoint, .refused aborts => h.failed aborts
  | .cleanupQueue, .keys keys => { h with queued := keys }
  | .write change, .served => { h.handOver change with writes := h.writes ++ [change] }
  | .write change, .refused aborts => (h.failed aborts).miss change
  | .write change, _ => h.miss change
  | .autocommit change, .served => h.handOver change
  | .autocommit change, _ => h.miss change
  | .begin, .served => { h with stage := .live }
  | .begin, _ => { h with missed := h.missed || !h.owed.isEmpty }
  | .savepoint, .served => { h with savepoint := some h.writes.length }
  | .release, .served => { h with savepoint := none }
  | .release, .refused true => h.restored
  | .release, _ => h.close
  | .rollbackTo, .served => h.restored
  | .rollbackTo, _ => h.close
  | .commit, _ => { h.close with settled := true }
  | .rollback, _ => h.close
  | .put key, .served => { h with stored := key :: h.stored }
  | .delete key, .served =>
    { h with owed := h.owed.filter (· ≠ key), deleted := key :: h.deleted }
  | .draw, .fresh key => { h with written := h.written ++ [key] }
  | .writtenLength, .count length => { h with mark := length }
  | .takeWritten start, .keys keys =>
    { h with written := h.written.take start, owed := h.owed ++ keys }
  | .finish, _ => { h with finished := true }
  | _, _ => h

/-- **The fates that can befall a request**: statements only succeed in a live transaction, and a
rollback to a savepoint where there is one; what no other task has a part in has one fate only. -/
def fits (h : Hand) : Request → Fate → Bool
  | .statement, .served => decide (h.stage = .live)
  | .lookup, .served => decide (h.stage = .live)
  | .lookup, .absent => decide (h.stage = .live)
  | .write _, .served => decide (h.stage = .live)
  | .cleanupQueue, .keys _ => decide (h.stage = .live)
  | .savepoint, .served => decide (h.stage = .live)
  | .release, .served => decide (h.stage = .live)
  | .release, .refused true => h.savepoint.isSome
  | .rollbackTo, .served => h.savepoint.isSome
  | .draw, .fresh _ => true
  | .draw, _ => false
  | .writtenLength, fate => decide (fate = .count h.written.length)
  | .takeWritten start, fate => decide (fate = .keys (h.written.drop start))
  | .finish, fate => decide (fate = .served)
  | _, _ => true

end Hand

/-- The operations of a unit of work that is still open. -/
inductive WorkOperation
  | statement
  | storeForArticle (inputs : ℕ)
  | replaceForArticle (inputs : ℕ)
  | commit (evictions : ℕ)
  | rollback
deriving DecidableEq, Repr

def WorkOperation.program : WorkOperation → Program Bool
  | .statement => attempt .statement (.answer true)
  | .storeForArticle inputs => Werrss.ExternalBlobs.storeForArticle inputs
  | .replaceForArticle inputs => Werrss.ExternalBlobs.replaceForArticle inputs
  | .commit evictions => Werrss.ExternalBlobs.commit evictions
  | .rollback => Werrss.ExternalBlobs.rollback

/-- The operation takes the unit of work with it. -/
def WorkOperation.consumes : WorkOperation → Bool
  | .commit _ => true
  | .rollback => true
  | _ => false

structure BlobTask where
  hand : Hand
  program : Program Bool
  consumed : Bool
  dropped : Bool

namespace BlobTask

/-- `UnitOfWorkFactory::begin`. -/
def unitOfWork : BlobTask :=
  ⟨{ Hand.empty with guarded := true, stage := .live }, .answer true, false, false⟩

/-- A call of the repository. -/
def repository (program : Program Bool) : BlobTask := ⟨.empty, program, true, false⟩

/-- A unit of work that is not finished and remembers keys leaves a cleanup behind. -/
def spawns (task : BlobTask) : Bool :=
  task.hand.guarded && !task.dropped && !task.hand.finished && !task.hand.written.isEmpty

/-- **Dropped**: the transaction is rolled back, local variables are gone, and what a unit of work
leaves behind nothing cleans up after in turn. -/
def drop (task : BlobTask) : BlobTask where
  hand :=
    { task.hand.close with
      owed := []
      queued := []
      missed := task.hand.missed || !task.hand.owed.isEmpty
        || !task.spawns && !task.hand.settled && !task.hand.written.isEmpty }
  program := if task.spawns then cleanupExternalBlobs else .answer false
  consumed := task.consumed
  dropped := true

end BlobTask

/-! ## The backend and the database -/

/-- The tables of blobs: the keys of `asset_blobs`, and those of `asset_blob_cleanup_queue`. -/
structure BlobTables where
  rows : List Uuid
  cleanupQueue : List Uuid
deriving DecidableEq, Repr

def BlobTables.apply (t : BlobTables) : BlobWrite → BlobTables
  | .insertRow key => { t with rows := t.rows.insert key }
  | .deleteRows keys => { t with rows := t.rows.filter (· ∉ keys) }
  | .queueCleanup key => { t with cleanupQueue := t.cleanupQueue.insert key }
  | .dequeueCleanup key => { t with cleanupQueue := t.cleanupQueue.filter (· ≠ key) }

/-- A request of the backend that may still take effect. -/
inductive LateRequest
  | put (key : Uuid)
  | delete (key : Uuid)
deriving DecidableEq, Repr

/-- **What the tasks share**: the objects of the backend, the committed tables, and the requests
that are late.  The rest is history: the keys that were ever drawn, that a row was ever committed
for, that a cleanup has taken over, that a cleanup has asked to delete, and whose bytes an eviction
has reclaimed. -/
structure BlobStore where
  objects : List Uuid
  tables : BlobTables
  late : List LateRequest
  drawn : List Uuid
  committed : List Uuid
  retired : List Uuid
  cleaned : List Uuid
  reclaimed : List Uuid
deriving DecidableEq, Repr

/-- The rows that a transaction inserts. -/
def insertedRows (writes : List BlobWrite) : List Uuid :=
  writes.filterMap fun
    | .insertRow key => some key
    | _ => none

/-- The request took effect, whatever the task was told. -/
def Fate.took : Fate → Bool
  | .served => true
  | .refused took => took
  | _ => false

namespace BlobStore

def empty : BlobStore := ⟨[], ⟨[], []⟩, [], [], [], [], [], []⟩

/-- **The store after a request of a task has met its fate.** -/
def after (s : BlobStore) (h : Hand) : Request → Fate → BlobStore
  | .put key, .late => { s with late := s.late ++ [.put key] }
  | .put key, fate => if fate.took then { s with objects := s.objects.insert key } else s
  | .delete key, .late =>
    { s with late := s.late ++ [.delete key], cleaned := s.cleaned.insert key }
  | .delete key, fate =>
    { s with
      objects := if fate.took then s.objects.filter (· ≠ key) else s.objects
      cleaned := s.cleaned.insert key }
  | .autocommit change, fate => if fate.took then { s with tables := s.tables.apply change } else s
  | .commit, fate =>
    if h.stage = .live ∧ fate.took then
      { s with
        tables := h.writes.foldl BlobTables.apply s.tables
        committed := s.committed ++ insertedRows h.writes }
    else s
  | .draw, .fresh key => { s with drawn := key :: s.drawn }
  | .takeWritten _, .keys keys => { s with retired := s.retired ++ keys }
  | _, _ => s

/-- What the store lets happen: identifiers are drawn once, and a query sees what is committed. -/
def fits (s : BlobStore) : Request → Fate → Bool
  | .draw, .fresh key => decide (key ∉ s.drawn)
  | .cleanupQueue, .keys keys => decide (keys = s.tables.cleanupQueue)
  | _, _ => true

/-- A late request takes effect. -/
def settle (s : BlobStore) : LateRequest → BlobStore
  | .put key => { s with objects := s.objects.insert key }
  | .delete key => { s with objects := s.objects.filter (· ≠ key) }

end BlobStore

/-! ## The system -/

structure BlobWorld where
  store : BlobStore
  tasks : List BlobTask

def BlobWorld.start : BlobWorld := ⟨.empty, []⟩

/-- What happens: units of work and calls of the repository begin, an open unit of work goes on, a
task makes its next request, a task is dropped, a late request takes effect, the bytes of a row are
evicted, and the row of an object that is gone is deleted. -/
inductive BlobEvent
  | beginWork
  | operate (task : ℕ) (operation : WorkOperation)
  | restore
  | drain
  | request (task : ℕ) (fate : Fate)
  | drop (task : ℕ)
  | settle (late : ℕ)
  | reclaim (key : Uuid)
  | purge (key : Uuid)
deriving DecidableEq, Repr

namespace BlobWorld

/-- The next request of a task meets its fate. -/
def serve (w : BlobWorld) (i : ℕ) (task : BlobTask) (request : Request)
    (next : Fate → Program Bool) (fate : Fate) : BlobWorld :=
  if task.hand.fits request fate && w.store.fits request fate then
    { store := w.store.after task.hand request fate
      tasks := w.tasks.set i
        { task with hand := task.hand.after request fate, program := next fate } }
  else w

/-- An open unit of work takes up an operation. -/
def operate (w : BlobWorld) (i : ℕ) (task : BlobTask) (operation : WorkOperation) : BlobWorld :=
  if task.consumed || task.dropped then w
  else { w with
    tasks := w.tasks.set i
      { task with program := operation.program, consumed := operation.consumes } }

/-- **One event.** -/
def step (w : BlobWorld) : BlobEvent → BlobWorld
  | .beginWork => { w with tasks := w.tasks ++ [.unitOfWork] }
  | .restore => { w with tasks := w.tasks ++ [.repository restoreMissingAsset] }
  | .drain => { w with tasks := w.tasks ++ [.repository drainBlobCleanupQueue] }
  | .operate i operation =>
    match w.tasks[i]? with
    | some ⟨hand, .answer succeeded, consumed, dropped⟩ =>
      w.operate i ⟨hand, .answer succeeded, consumed, dropped⟩ operation
    | _ => w
  | .request i fate =>
    match w.tasks[i]? with
    | some ⟨hand, .call request next, consumed, dropped⟩ =>
      w.serve i ⟨hand, .call request next, consumed, dropped⟩ request next fate
    | _ => w
  | .drop i =>
    match w.tasks[i]? with
    | some task => { w with tasks := w.tasks.set i task.drop }
    | none => w
  | .settle j =>
    match w.store.late[j]? with
    | some late =>
      { w with store := { w.store.settle late with late := w.store.late.eraseIdx j } }
    | none => w
  | .reclaim key =>
    if key ∈ w.store.tables.rows then
      { w with store := { w.store with
        objects := w.store.objects.filter (· ≠ key)
        reclaimed := w.store.reclaimed.insert key } }
    else w
  | .purge key =>
    if key ∈ w.store.objects then w
    else { w with store := { w.store with
      tables := { w.store.tables with rows := w.store.tables.rows.filter (· ≠ key) } } }

end BlobWorld

/-- What a run of events reaches, from an empty store. -/
def after (events : List BlobEvent) : BlobWorld := run BlobWorld.step .start events

end ExternalBlobs

end Werrss
