import Mathlib
import OsScanner.Lib.Run
import OsScanner.Storage.QueueChanges

/-!
# The causal order of the upload queue

The uploads of one group are to be delivered in the order in which they were put into the
queue; a recovery upload takes the place of the upload that it replaces. The queue keeps this
order through one link for each row, to the upload that was the newest of its group at the
time. The result of this file: as long as every new upload is appended behind all unresolved
uploads of its group, no upload is ever claimed before those ahead of it are resolved.

The newest row of a group need not be the last one in that order: a recovery upload is newer
than the uploads behind the one that it replaces. An upload that is enqueued at that moment is
linked to the recovery upload and overtakes them.
-/

namespace OsScanner.Storage

open Lib

/-! ## Runs of the queue -/

/-- A call of the queue. The methods that store snapshots are seen by what they leave behind. -/
inductive QueueCall where
  | enqueue (request : UploadRequest) (uuid : String) (now : ℚ)
  | claim (limit : Int) (leaseSeconds current : ℚ) (leaseToken : Nat → String)
  | succeeded (uploadId : Nat) (leaseToken deliveredAt : String)
  | failed (uploadId : Nat) (leaseToken : String) (failure : UploadFailure) (current : ℚ)
  | resync (uploadId : Nat) (leaseToken error uuid : String) (current : ℚ)
  | requeue (uploadId : Nat) (request : RequeueRequest) (recordedAt auditEventId : String)
      (current : ℚ)
  | purge (olderThan : String) (limit : Int)
  | stored (snapshots : Table SnapshotRow) (payloads : Dict String Json)

/-- The database after a transaction. -/
def committed {α : Type} (db : Database) : Except StorageError (α × Database) → Database
  | .ok (_, db') => db'
  | .error _ => db

def QueueCall.perform (rt : Runtime) (call : QueueCall) (db : Database) : Database :=
  match call with
  | enqueue request uuid now => committed db (enqueueUpload rt request uuid now db)
  | claim limit leaseSeconds current leaseToken =>
    committed db (claimUploads rt limit leaseSeconds current leaseToken db)
  | succeeded uploadId leaseToken deliveredAt =>
    committed db (markUploadSucceeded uploadId leaseToken deliveredAt db)
  | failed uploadId leaseToken failure current =>
    committed db (markUploadFailed rt uploadId leaseToken failure current db)
  | resync uploadId leaseToken error uuid current =>
    committed db (scheduleFullResync rt uploadId leaseToken error uuid current db)
  | requeue uploadId request recordedAt auditEventId current =>
    committed db (requeueDeadUpload rt uploadId request recordedAt auditEventId current db)
  | purge olderThan limit => committed db (purgeSucceededUploads olderThan limit db)
  | stored snapshots payloads => { db with snapshots := snapshots, payloads := payloads }

/-! ## The order of a group -/

/-- An upload that was put into a group, and its place there. -/
structure Placed where
  uploadId : Nat
  group : String
  place : Nat
  deriving DecidableEq

/--
The queue with its history: every upload that was ever put into a group, and the uploads that
were purged after they had been resolved.
-/
structure Outbox where
  db : Database
  placed : List Placed
  purged : List Nat

namespace Outbox

def initial : Outbox := ⟨Database.empty, [], []⟩

def placeOf (placed : List Placed) (uploadId : Nat) : Option Nat :=
  (placed.find? fun p => decide (p.uploadId = uploadId)).map (·.place)

/-- The upload that a call added: a recovery upload takes the place of the one it replaces. -/
def added (o : Outbox) (db' : Database) : List Placed :=
  match db'.uploads.get? o.db.uploads.nextId with
  | none => []
  | some row =>
    match row.causalGroup with
    | none => []
    | some group => [⟨o.db.uploads.nextId, group,
        (row.resyncForUploadId.bind (placeOf o.placed)).getD o.db.uploads.nextId⟩]

/-- The resolved uploads that a call deleted. -/
def removed (o : Outbox) (db' : Database) : List Nat :=
  (o.db.uploads.select fun id row =>
    delivered o.db.uploads row && (db'.uploads.get? id).isNone).map Prod.fst

def after (o : Outbox) (db' : Database) : Outbox :=
  ⟨db', o.placed ++ o.added db', o.purged ++ o.removed db'⟩

def step (rt : Runtime) (o : Outbox) (call : QueueCall) : Outbox := o.after (call.perform rt o.db)

/-- Delivered, replaced by a delivered upload, or purged after that. -/
def Resolved (o : Outbox) (uploadId : Nat) : Prop :=
  (∃ row, o.db.uploads.get? uploadId = some row ∧ delivered o.db.uploads row = true) ∨
    uploadId ∈ o.purged

instance (o : Outbox) (uploadId : Nat) : Decidable (o.Resolved uploadId) :=
  decidable_of_iff (((o.db.uploads.get? uploadId).any (delivered o.db.uploads) = true) ∨
    uploadId ∈ o.purged) (by simp [Resolved, Option.any_eq_true])

/-- Two uploads of one group, the first one ahead of the second. -/
structure Ahead (o : Outbox) (p q : Placed) : Prop where
  left : p ∈ o.placed
  right : q ∈ o.placed
  group : p.group = q.group
  place : p.place < q.place

instance (o : Outbox) (p q : Placed) : Decidable (o.Ahead p q) :=
  decidable_of_iff (p ∈ o.placed ∧ q ∈ o.placed ∧ p.group = q.group ∧ p.place < q.place)
    ⟨fun ⟨h₁, h₂, h₃, h₄⟩ => ⟨h₁, h₂, h₃, h₄⟩, fun h => ⟨h.left, h.right, h.group, h.place⟩⟩

/--
A new upload goes behind all unresolved ones: none of its group has a later place than the
newest row of the group, to which the new upload will be linked.
-/
def AppendsLast (rt : Runtime) (o : Outbox) : QueueCall → Prop
  | .enqueue request _ _ =>
    uploadWithKey o.db (strip request.idempotencyKey) = none →
      ∀ group ∈ requestGroup rt request,
        ∀ newest ∈ (newestUpload o.db.uploads group).map Prod.fst,
          ∀ p ∈ o.placed, p.group = group → ¬ o.Resolved p.uploadId →
            ∃ q ∈ o.placed, q.uploadId = newest ∧ p.place ≤ q.place
  | _ => True

instance (rt : Runtime) (o : Outbox) (call : QueueCall) : Decidable (o.AppendsLast rt call) :=
  match call with
  | .enqueue request _ _ => inferInstanceAs (Decidable
      (uploadWithKey o.db (strip request.idempotencyKey) = none →
        ∀ group ∈ requestGroup rt request,
          ∀ newest ∈ (newestUpload o.db.uploads group).map Prod.fst,
            ∀ p ∈ o.placed, p.group = group → ¬ o.Resolved p.uploadId →
              ∃ q ∈ o.placed, q.uploadId = newest ∧ p.place ≤ q.place))
  | .claim .. | .succeeded .. | .failed .. | .resync .. | .requeue .. | .purge .. | .stored .. =>
    isTrue trivial

/-! ## The invariant -/

/-- What holds of the queue and its history in every run that appends last. -/
structure Causal (o : Outbox) : Prop where
  linked : CausallyLinked o.db.uploads
  /-- A place is an identifier that was given out. -/
  known : ∀ p ∈ o.placed, p.uploadId < o.db.uploads.nextId ∧ p.place ≤ p.uploadId
  unique : ∀ p ∈ o.placed, ∀ q ∈ o.placed, p.uploadId = q.uploadId → p = q
  placed : ∀ id row group, o.db.uploads.get? id = some row → row.causalGroup = some group →
    ∃ p ∈ o.placed, p.uploadId = id ∧ p.group = group
  /-- Only resolved uploads have been deleted. -/
  kept : ∀ p ∈ o.placed,
    (∃ row, o.db.uploads.get? p.uploadId = some row ∧ row.causalGroup = some p.group) ∨
      p.uploadId ∈ o.purged
  absent : ∀ id ∈ o.purged, id < o.db.uploads.nextId ∧ o.db.uploads.get? id = none
  superseded : ∀ id row r, o.db.uploads.get? id = some row → row.supersededByUploadId = some r →
    row.status = .dead ∧ ∃ existing, o.db.uploads.get? r = some existing
  /-- An upload in the place of another one is a recovery upload and is not replaced in turn. -/
  recovery : ∀ p ∈ o.placed, p.place < p.uploadId → ∀ row,
    o.db.uploads.get? p.uploadId = some row →
      row.isRecovery = true ∧ row.supersededByUploadId = none
  /-- Two uploads have one place only when the older one was replaced by the newer one. -/
  twins : ∀ p ∈ o.placed, ∀ q ∈ o.placed, p.group = q.group → p.place = q.place →
    p.uploadId < q.uploadId → (p.uploadId ∈ o.purged ∧ o.Resolved q.uploadId) ∨
      ∃ row, o.db.uploads.get? p.uploadId = some row ∧ row.supersededByUploadId = some q.uploadId
  /-- An upload waits for one that is not ahead of any unresolved upload ahead of it. -/
  chained : ∀ p q, o.Ahead p q → ∀ row, o.db.uploads.get? q.uploadId = some row →
    o.Resolved p.uploadId ∨ ∃ m ∈ o.placed, row.predecessorUploadId = some m.uploadId ∧
      m.group = q.group ∧ p.place ≤ m.place
  /-- When an upload was claimed once, everything ahead of it was resolved. -/
  started : ∀ p q, o.Ahead p q → ∀ row, o.db.uploads.get? q.uploadId = some row →
    row.status ≠ .pending → o.Resolved p.uploadId
  finished : ∀ p q, o.Ahead p q → q.uploadId ∈ o.purged → o.Resolved p.uploadId

theorem causal_initial : initial.Causal where
  linked _ _ h := nomatch h
  known _ h := nomatch h
  unique _ h := nomatch h
  placed _ _ _ h := nomatch h
  kept _ h := nomatch h
  absent _ h := nomatch h
  superseded _ _ _ h := nomatch h
  recovery _ h := nomatch h
  twins _ h := nomatch h
  chained _ _ h := nomatch h.left
  started _ _ h := nomatch h.left
  finished _ _ h := nomatch h.left

/-! ## What the invariant says of one state -/

theorem delivered_iff {t : Table UploadRow} {row : UploadRow} :
    delivered t row = true ↔ row.status = .succeeded ∨
      ∃ r replacement, row.supersededByUploadId = some r ∧ t.get? r = some replacement ∧
        replacement.status = .succeeded := by
  unfold delivered
  simp only [Bool.or_eq_true, decide_eq_true_eq, Option.any_eq_true, Option.bind_eq_some_iff]
  constructor
  · rintro (h | ⟨replacement, ⟨r, hr, hget⟩, h⟩)
    · exact Or.inl h
    · exact Or.inr ⟨r, replacement, hr, hget, h⟩
  · rintro (h | ⟨r, replacement, hr, hget, h⟩)
    · exact Or.inl h
    · exact Or.inr ⟨replacement, ⟨r, hr, hget⟩, h⟩

theorem resolved_of_row {o : Outbox} {id : Nat} {row : UploadRow}
    (h : o.db.uploads.get? id = some row) (hd : delivered o.db.uploads row = true) :
    o.Resolved id := Or.inl ⟨row, h, hd⟩

theorem Causal.not_purged {o : Outbox} (h : o.Causal) {id : Nat} {row : UploadRow}
    (hrow : o.db.uploads.get? id = some row) : id ∉ o.purged := by
  intro hpurged
  rw [(h.absent id hpurged).2] at hrow
  cases hrow

theorem Causal.resolved_iff {o : Outbox} (h : o.Causal) {id : Nat} {row : UploadRow}
    (hrow : o.db.uploads.get? id = some row) :
    o.Resolved id ↔ delivered o.db.uploads row = true := by
  constructor
  · rintro (⟨row', hrow', hd⟩ | hpurged)
    · cases hrow.symm.trans hrow'
      exact hd
    · exact absurd hpurged (h.not_purged hrow)
  · exact resolved_of_row hrow

/-- Everything ahead of a resolved upload is resolved. -/
theorem Causal.resolved_ahead {o : Outbox} (h : o.Causal) {p q : Placed} (hpq : o.Ahead p q)
    (hq : o.Resolved q.uploadId) : o.Resolved p.uploadId := by
  rcases hq with ⟨row, hrow, hd⟩ | hpurged
  · refine h.started p q hpq row hrow ?_
    rcases delivered_iff.mp hd with hs | ⟨r, replacement, hr, -, -⟩
    · simp [hs]
    · simp [(h.superseded _ _ _ hrow hr).1]
  · exact h.finished p q hpq hpurged

/-- Of two uploads with one place, both are resolved or none is. -/
theorem Causal.resolved_twin {o : Outbox} (h : o.Causal) {p q : Placed} (hp : p ∈ o.placed)
    (hq : q ∈ o.placed) (hgroup : p.group = q.group) (hplace : p.place = q.place)
    (hlt : p.uploadId < q.uploadId) : o.Resolved p.uploadId ↔ o.Resolved q.uploadId := by
  rcases h.twins p hp q hq hgroup hplace hlt with ⟨hpurged, hresolved⟩ | ⟨row, hrow, hlink⟩
  · exact ⟨fun _ => hresolved, fun _ => Or.inr hpurged⟩
  · obtain ⟨hdead, existing, hexisting⟩ := h.superseded _ _ _ hrow hlink
    have hsmall := (h.known p hp).2
    have hunlinked := (h.recovery q hq (by omega) existing hexisting).2
    rw [h.resolved_iff hrow, h.resolved_iff hexisting, delivered_iff, delivered_iff, hlink,
      hunlinked]
    simp [hdead, hexisting]

/-- What is not ahead of a resolved upload's place, nor behind it, is resolved with it. -/
theorem Causal.resolved_of_le {o : Outbox} (h : o.Causal) {p m : Placed} (hp : p ∈ o.placed)
    (hm : m ∈ o.placed) (hgroup : p.group = m.group) (hplace : p.place ≤ m.place)
    (hresolved : o.Resolved m.uploadId) : o.Resolved p.uploadId := by
  rcases hplace.lt_or_eq with hlt | heq
  · exact h.resolved_ahead ⟨hp, hm, hgroup, hlt⟩ hresolved
  · rcases lt_trichotomy p.uploadId m.uploadId with hid | hid | hid
    · exact (h.resolved_twin hp hm hgroup heq hid).mpr hresolved
    · exact hid ▸ hresolved
    · exact (h.resolved_twin hm hp hgroup.symm heq.symm hid).mp hresolved

/-- An upload whose predecessor is delivered has nothing unresolved ahead of it. -/
theorem Causal.resolved_of_predecessor {o : Outbox} (h : o.Causal) {p q : Placed}
    (hpq : o.Ahead p q) {row : UploadRow} (hrow : o.db.uploads.get? q.uploadId = some row)
    (hdelivered : predecessorDelivered o.db.uploads row = true) : o.Resolved p.uploadId := by
  rcases h.chained p q hpq row hrow with hresolved | ⟨m, hm, hlink, hgroup, hplace⟩
  · exact hresolved
  · unfold predecessorDelivered at hdelivered
    simp only [hlink, Option.any_eq_true] at hdelivered
    obtain ⟨existing, hexisting, hd⟩ := hdelivered
    exact h.resolved_of_le hpq.left hm (hpq.group.trans hgroup.symm) hplace
      (resolved_of_row hexisting hd)

/-! ## Steps that keep the rows -/

/-- A row is still there, in its group and behind its predecessor. -/
structure Keeps (row row' : UploadRow) : Prop where
  kind : row'.kind = row.kind
  causalGroup : row'.causalGroup = row.causalGroup
  predecessor : row'.predecessorUploadId = row.predecessorUploadId
  isRecovery : row'.isRecovery = row.isRecovery
  succeeded : row.status = .succeeded → row'.status = .succeeded
  superseded : ∀ r, row.supersededByUploadId = some r → row'.supersededByUploadId = some r
  /-- A recovery upload is not replaced. -/
  unreplaced : row.isRecovery = true → row.supersededByUploadId = none →
    row'.supersededByUploadId = none

theorem Keeps.refl (row : UploadRow) : Keeps row row :=
  ⟨rfl, rfl, rfl, rfl, id, fun _ h => h, fun _ h => h⟩

/-- No row is deleted. -/
def KeepsAll (t t' : Table UploadRow) : Prop :=
  ∀ id row, t.get? id = some row → ∃ row', t'.get? id = some row' ∧ Keeps row row'

theorem removed_of_keepsAll {o : Outbox} {db' : Database}
    (h : KeepsAll o.db.uploads db'.uploads) : o.removed db' = [] := by
  unfold removed
  rw [List.map_eq_nil_iff, List.eq_nil_iff_forall_not_mem]
  rintro ⟨id, row⟩ hmem
  obtain ⟨hrow, hgone⟩ := Table.mem_select.mp hmem
  obtain ⟨row', hrow', -⟩ := h id row hrow
  rw [hrow'] at hgone
  simp at hgone

theorem delivered_of_keepsAll {t t' : Table UploadRow} (h : KeepsAll t t') {row row' : UploadRow}
    (hk : Keeps row row') (hd : delivered t row = true) : delivered t' row' = true := by
  rw [delivered_iff] at hd ⊢
  rcases hd with hs | ⟨r, replacement, hr, hget, hs⟩
  · exact Or.inl (hk.succeeded hs)
  · obtain ⟨replacement', hget', hk'⟩ := h r replacement hget
    exact Or.inr ⟨r, replacement', hk.superseded r hr, hget', hk'.succeeded hs⟩

theorem resolved_of_keepsAll {o : Outbox} {db' : Database}
    (h : KeepsAll o.db.uploads db'.uploads) {id : Nat} (hr : o.Resolved id) :
    (o.after db').Resolved id := by
  rcases hr with ⟨row, hrow, hd⟩ | hpurged
  · obtain ⟨row', hrow', hk⟩ := h id row hrow
    exact Or.inl ⟨row', hrow', delivered_of_keepsAll h hk hd⟩
  · exact Or.inr (List.mem_append_left _ hpurged)

/-! ## Steps in place -/

/-- What a step in place does to one row. -/
structure InPlace (t : Table UploadRow) (row row' : UploadRow) : Prop extends Keeps row row' where
  buried : ∀ r, row'.supersededByUploadId = some r →
    row'.status = .dead ∧ ∃ existing, t.get? r = some existing
  started : row'.status ≠ .pending → row.status ≠ .pending ∨ predecessorDelivered t row = true

theorem after_update {o : Outbox} {db' : Database} {f : Nat → UploadRow → UploadRow}
    (hdb : db'.uploads = o.db.uploads.update f) (h : KeepsAll o.db.uploads db'.uploads) :
    o.after db' = ⟨db', o.placed, o.purged⟩ := by
  unfold after
  rw [removed_of_keepsAll h]
  unfold added
  rw [hdb, Table.get?_update, Table.get?_nextId]
  simp

/-- A step that moves rows in place keeps the order. -/
theorem Causal.inPlace {o : Outbox} (h : o.Causal) {db' : Database}
    {f : Nat → UploadRow → UploadRow} (hdb : db'.uploads = o.db.uploads.update f)
    (hf : ∀ id row, o.db.uploads.get? id = some row → InPlace o.db.uploads row (f id row)) :
    (o.after db').Causal := by
  -- The rows before and after the step.
  have hforth : KeepsAll o.db.uploads db'.uploads := by
    intro id row hrow
    refine ⟨f id row, ?_, (hf id row hrow).toKeeps⟩
    rw [hdb, Table.get?_update, hrow]
    rfl
  have hback : ∀ {id row'}, db'.uploads.get? id = some row' → ∃ row,
      o.db.uploads.get? id = some row ∧ InPlace o.db.uploads row row' := by
    intro id row' hrow'
    rw [hdb, Table.get?_update, Option.map_eq_some_iff] at hrow'
    obtain ⟨row, hrow, rfl⟩ := hrow'
    exact ⟨row, hrow, hf id row hrow⟩
  have hmono : ∀ {id}, o.Resolved id → (o.after db').Resolved id := resolved_of_keepsAll hforth
  have hafter := after_update hdb hforth
  have hnext : db'.uploads.nextId = o.db.uploads.nextId := by
    rw [hdb]
    rfl
  rw [hafter] at hmono ⊢
  refine ⟨?_, ?_, h.unique, ?_, ?_, ?_, ?_, ?_, ?_, ?_, ?_, ?_⟩
  · intro id row' hrow' hnone
    obtain ⟨row, hrow, hk⟩ := hback hrow'
    rw [hk.kind]
    exact h.linked id row hrow (hk.causalGroup ▸ hnone)
  · show ∀ p ∈ o.placed, p.uploadId < db'.uploads.nextId ∧ p.place ≤ p.uploadId
    rw [hnext]
    exact h.known
  · intro id row' group hrow' hgroup
    obtain ⟨row, hrow, hk⟩ := hback hrow'
    exact h.placed id row group hrow (hk.causalGroup ▸ hgroup)
  · intro p hp
    refine (h.kept p hp).imp_left ?_
    rintro ⟨row, hrow, hgroup⟩
    obtain ⟨row', hrow', hk⟩ := hforth _ _ hrow
    exact ⟨row', hrow', hk.causalGroup.trans hgroup⟩
  · show ∀ id ∈ o.purged, id < db'.uploads.nextId ∧ db'.uploads.get? id = none
    rw [hnext]
    intro id hid
    obtain ⟨hlt, hnone⟩ := h.absent id hid
    refine ⟨hlt, ?_⟩
    rw [hdb, Table.get?_update, hnone]
    rfl
  · intro id row' r hrow' hr
    obtain ⟨row, hrow, hk⟩ := hback hrow'
    obtain ⟨hdead, existing, hexisting⟩ := hk.buried r hr
    obtain ⟨existing', hexisting', -⟩ := hforth _ _ hexisting
    exact ⟨hdead, existing', hexisting'⟩
  · intro p hp hplace row' hrow'
    obtain ⟨row, hrow, hk⟩ := hback hrow'
    obtain ⟨hrecovery, hnone⟩ := h.recovery p hp hplace row hrow
    exact ⟨hk.isRecovery.trans hrecovery, hk.unreplaced hrecovery hnone⟩
  · intro p hp q hq hgroup hplace hlt
    rcases h.twins p hp q hq hgroup hplace hlt with ⟨hpurged, hresolved⟩ | ⟨row, hrow, hlink⟩
    · exact Or.inl ⟨hpurged, hmono hresolved⟩
    · obtain ⟨row', hrow', hk⟩ := hforth _ _ hrow
      exact Or.inr ⟨row', hrow', hk.superseded _ hlink⟩
  · intro p q hpq row' hrow'
    obtain ⟨row, hrow, hk⟩ := hback hrow'
    have hahead : o.Ahead p q := ⟨hpq.left, hpq.right, hpq.group, hpq.place⟩
    rw [hk.predecessor]
    exact (h.chained p q hahead row hrow).imp_left hmono
  · intro p q hpq row' hrow' hstatus
    obtain ⟨row, hrow, hk⟩ := hback hrow'
    have hahead : o.Ahead p q := ⟨hpq.left, hpq.right, hpq.group, hpq.place⟩
    rcases hk.started hstatus with hstarted | hdelivered
    · exact hmono (h.started p q hahead row hrow hstarted)
    · exact hmono (h.resolved_of_predecessor hahead hrow hdelivered)
  · intro p q hpq hpurged
    exact hmono (h.finished p q ⟨hpq.left, hpq.right, hpq.group, hpq.place⟩ hpurged)

/-! ## Steps that add a row -/

/-- A new row in a table whose other rows are kept and not started. -/
structure Grows (t t' : Table UploadRow) (new : UploadRow) : Prop where
  next : t'.nextId = t.nextId + 1
  new : t'.get? t.nextId = some new
  forth : KeepsAll t t'
  back : ∀ id row', id ≠ t.nextId → t'.get? id = some row' →
    ∃ row, t.get? id = some row ∧ Keeps row row' ∧ (row'.status ≠ .pending → row.status ≠ .pending)
  buried : ∀ id row' r, t'.get? id = some row' → row'.supersededByUploadId = some r →
    row'.status = .dead ∧ ∃ existing, t'.get? r = some existing

/-- Where a new row stands in the order of its group. -/
structure StandsAt (o : Outbox) (db' : Database) (new : UploadRow) (place : Nat) : Prop where
  stands : (new.resyncForUploadId.bind (placeOf o.placed)).getD o.db.uploads.nextId = place
  place_le : place ≤ o.db.uploads.nextId
  linked : new.causalGroup = none → sqlNormalizedKind new.kind ∉ causalUploadKinds
  pending : new.status = .pending
  superseded : new.supersededByUploadId = none
  recovery : place < o.db.uploads.nextId → new.isRecovery = true
  /-- The upload in whose place it stands was replaced by it. -/
  twin : ∀ p ∈ o.placed, new.causalGroup = some p.group → p.place = place →
    ∃ row', db'.uploads.get? p.uploadId = some row' ∧
      row'.supersededByUploadId = some o.db.uploads.nextId
  chained : ∀ p ∈ o.placed, new.causalGroup = some p.group → p.place < place →
    o.Resolved p.uploadId ∨ ∃ m ∈ o.placed, new.predecessorUploadId = some m.uploadId ∧
      m.group = p.group ∧ p.place ≤ m.place
  /-- What is behind it waits. -/
  behind : ∀ q ∈ o.placed, new.causalGroup = some q.group → place < q.place →
    ∃ row, o.db.uploads.get? q.uploadId = some row ∧ row.status = .pending ∧
      ∃ m ∈ o.placed, row.predecessorUploadId = some m.uploadId ∧ m.group = q.group ∧
        place ≤ m.place

theorem added_of_grows {o : Outbox} {db' : Database} {new : UploadRow} {place : Nat}
    (hg : Grows o.db.uploads db'.uploads new) (hs : StandsAt o db' new place) :
    ∀ p, p ∈ o.added db' ↔ new.causalGroup = some p.group ∧ p.uploadId = o.db.uploads.nextId ∧
      p.place = place := by
  rintro ⟨uploadId, group, place'⟩
  unfold added
  rw [hg.new]
  dsimp only
  rw [hs.stands]
  cases new.causalGroup with
  | none => simp
  | some group' => simp [and_left_comm, eq_comm]

/-- A step that adds a row in its place keeps the order. -/
theorem Causal.grown {o : Outbox} (h : o.Causal) {db' : Database} {new : UploadRow} {place : Nat}
    (hg : Grows o.db.uploads db'.uploads new) (hs : StandsAt o db' new place) :
    (o.after db').Causal := by
  have hadded := added_of_grows hg hs
  have hmono : ∀ {id}, o.Resolved id → (o.after db').Resolved id := resolved_of_keepsAll hg.forth
  have hpurged : (o.after db').purged = o.purged := by
    unfold after
    rw [removed_of_keepsAll hg.forth, List.append_nil]
  -- An upload of the new state is an old one or the new one.
  have hplaced : ∀ {p}, p ∈ (o.after db').placed → p ∈ o.placed ∨
      (new.causalGroup = some p.group ∧ p.uploadId = o.db.uploads.nextId ∧ p.place = place) := by
    intro p hp
    exact (List.mem_append.mp hp).imp_right (hadded p).mp
  have hold : ∀ {p}, p ∈ o.placed → p ∈ (o.after db').placed := fun hp =>
    List.mem_append_left _ hp
  have hne : ∀ {p}, p ∈ o.placed → p.uploadId ≠ o.db.uploads.nextId := fun hp =>
    (h.known _ hp).1.ne
  refine ⟨?_, ?_, ?_, ?_, ?_, ?_, hg.buried, ?_, ?_, ?_, ?_, ?_⟩
  · intro id row' hrow' hnone
    by_cases hid : id = o.db.uploads.nextId
    · subst hid
      cases hg.new.symm.trans hrow'
      exact hs.linked hnone
    · obtain ⟨row, hrow, hk, -⟩ := hg.back id row' hid hrow'
      rw [hk.kind]
      exact h.linked id row hrow (hk.causalGroup ▸ hnone)
  · intro p hp
    show p.uploadId < db'.uploads.nextId ∧ p.place ≤ p.uploadId
    rw [hg.next]
    rcases hplaced hp with hp | ⟨-, hid, hplace⟩
    · have := h.known p hp
      omega
    · have := hs.place_le
      omega
  · intro p hp q hq hid
    rcases hplaced hp with hp | ⟨hgp, hip, hpp⟩ <;> rcases hplaced hq with hq | ⟨hgq, hiq, hpq⟩
    · exact h.unique p hp q hq hid
    · exact absurd (hid.trans hiq) (hne hp)
    · exact absurd (hid.symm.trans hip) (hne hq)
    · cases p
      cases q
      simp_all
  · intro id row' group hrow' hgroup
    by_cases hid : id = o.db.uploads.nextId
    · subst hid
      cases hg.new.symm.trans hrow'
      exact ⟨⟨o.db.uploads.nextId, group, place⟩,
        List.mem_append_right _ ((hadded _).mpr ⟨hgroup, rfl, rfl⟩), rfl, rfl⟩
    · obtain ⟨row, hrow, hk, -⟩ := hg.back id row' hid hrow'
      obtain ⟨p, hp, hpid, hpg⟩ := h.placed id row group hrow (hk.causalGroup ▸ hgroup)
      exact ⟨p, hold hp, hpid, hpg⟩
  · intro p hp
    rw [hpurged]
    rcases hplaced hp with hp | ⟨hgroup, hid, -⟩
    · refine (h.kept p hp).imp_left ?_
      rintro ⟨row, hrow, hgroup⟩
      obtain ⟨row', hrow', hk⟩ := hg.forth _ _ hrow
      exact ⟨row', hrow', hk.causalGroup.trans hgroup⟩
    · exact Or.inl ⟨new, hid ▸ hg.new, hgroup⟩
  · intro id hid
    rw [hpurged] at hid
    obtain ⟨hlt, hnone⟩ := h.absent id hid
    show id < db'.uploads.nextId ∧ db'.uploads.get? id = none
    refine ⟨by rw [hg.next]; omega, ?_⟩
    cases hrow' : db'.uploads.get? id with
    | none => rfl
    | some row' =>
      obtain ⟨row, hrow, -⟩ := hg.back id row' hlt.ne hrow'
      rw [hnone] at hrow
      cases hrow
  · intro p hp hlt row' hrow'
    rcases hplaced hp with hp | ⟨-, hid, hplace⟩
    · obtain ⟨row, hrow, hk, -⟩ := hg.back _ row' (hne hp) hrow'
      obtain ⟨hrecovery, hnone⟩ := h.recovery p hp hlt row hrow
      exact ⟨hk.isRecovery.trans hrecovery, hk.unreplaced hrecovery hnone⟩
    · cases hg.new.symm.trans (hid ▸ hrow')
      exact ⟨hs.recovery (by omega), hs.superseded⟩
  · intro p hp q hq hgroup hplace hlt
    rw [hpurged]
    rcases hplaced hp with hp | ⟨-, hip, -⟩
    · rcases hplaced hq with hq | ⟨hgq, hiq, hpq⟩
      · rcases h.twins p hp q hq hgroup hplace hlt with ⟨hgone, hresolved⟩ | ⟨row, hrow, hlink⟩
        · exact Or.inl ⟨hgone, hmono hresolved⟩
        · obtain ⟨row', hrow', hk⟩ := hg.forth _ _ hrow
          exact Or.inr ⟨row', hrow', hk.superseded _ hlink⟩
      · obtain ⟨row', hrow', hlink⟩ := hs.twin p hp (hgroup ▸ hgq) (hplace.trans hpq)
        exact Or.inr ⟨row', hrow', hiq ▸ hlink⟩
    · -- The new upload is the youngest.
      rcases hplaced hq with hq | ⟨-, hiq, -⟩
      · have := (h.known q hq).1
        omega
      · omega
  · intro p q hpq row' hrow'
    rcases hplaced hpq.right with hq | ⟨hgq, hiq, hplq⟩
    · obtain ⟨row, hrow, hk, -⟩ := hg.back _ row' (hne hq) hrow'
      rw [hk.predecessor]
      rcases hplaced hpq.left with hp | ⟨hgp, -, hplp⟩
      · rcases h.chained p q ⟨hp, hq, hpq.group, hpq.place⟩ row hrow with hr | ⟨m, hm, hchain⟩
        · exact Or.inl (hmono hr)
        · exact Or.inr ⟨m, hold hm, hchain⟩
      · obtain ⟨row₁, hrow₁, -, m, hm, hlink, hgm, hle⟩ :=
          hs.behind q hq (hpq.group ▸ hgp) (hplp ▸ hpq.place)
        cases hrow.symm.trans hrow₁
        exact Or.inr ⟨m, hold hm, hlink, hgm, hplp ▸ hle⟩
    · cases hg.new.symm.trans (hiq ▸ hrow')
      rcases hplaced hpq.left with hp | ⟨-, -, hplp⟩
      · rcases hs.chained p hp (hpq.group ▸ hgq) (hplq ▸ hpq.place) with hr | ⟨m, hm, hl, hgm, hle⟩
        · exact Or.inl (hmono hr)
        · exact Or.inr ⟨m, hold hm, hl, hgm.trans hpq.group, hle⟩
      · have := hpq.place
        omega
  · intro p q hpq row' hrow' hstatus
    rcases hplaced hpq.right with hq | ⟨-, hiq, -⟩
    · obtain ⟨row, hrow, -, hstarted⟩ := hg.back _ row' (hne hq) hrow'
      rcases hplaced hpq.left with hp | ⟨hgp, -, hplp⟩
      · exact hmono (h.started p q ⟨hp, hq, hpq.group, hpq.place⟩ row hrow (hstarted hstatus))
      · obtain ⟨row₁, hrow₁, hpending, -⟩ :=
          hs.behind q hq (hpq.group ▸ hgp) (hplp ▸ hpq.place)
        cases hrow.symm.trans hrow₁
        exact absurd hpending (hstarted hstatus)
    · cases hg.new.symm.trans (hiq ▸ hrow')
      exact absurd hs.pending hstatus
  · intro p q hpq hgone
    rw [hpurged] at hgone
    rcases hplaced hpq.right with hq | ⟨-, hiq, -⟩
    · rcases hplaced hpq.left with hp | ⟨hgp, -, hplp⟩
      · exact hmono (h.finished p q ⟨hp, hq, hpq.group, hpq.place⟩ hgone)
      · obtain ⟨row₁, hrow₁, -⟩ := hs.behind q hq (hpq.group ▸ hgp) (hplp ▸ hpq.place)
        exact absurd hgone (h.not_purged hrow₁)
    · have := (h.absent _ hgone).1
      omega

/-! ## Steps that delete rows -/

theorem mem_removed_of_deletes {o : Outbox} {db' : Database} {deleted : List Nat}
    (hd : Deletes o.db.uploads deleted) (hdb : db'.uploads = deleteUploads deleted o.db.uploads)
    (id : Nat) : id ∈ o.removed db' ↔ id ∈ deleted := by
  unfold removed
  simp only [List.mem_map, Prod.exists, exists_and_right, exists_eq_right, Table.mem_select,
    Bool.and_eq_true, Option.isNone_iff_eq_none]
  constructor
  · rintro ⟨row, hrow, -, hgone⟩
    by_contra hkept
    rw [hdb, get?_deleteUploads.mpr ⟨hkept, row, hrow, rfl⟩] at hgone
    cases hgone
  · intro hid
    obtain ⟨row, hrow, hdelivered⟩ := hd.delivered id hid
    refine ⟨row, hrow, hdelivered, ?_⟩
    cases hget : db'.uploads.get? id with
    | none => rfl
    | some row' =>
      rw [hdb] at hget
      exact absurd hid (get?_deleteUploads.mp hget).1

theorem delivered_deleteUploads {t : Table UploadRow} {deleted : List Nat} (hd : Deletes t deleted)
    {id : Nat} {row : UploadRow} (hrow : t.get? id = some row) (hkept : id ∉ deleted)
    (hdelivered : delivered t row = true) :
    ∃ row', (deleteUploads deleted t).get? id = some row' ∧
      delivered (deleteUploads deleted t) row' = true := by
  refine ⟨_, get?_deleteUploads.mpr ⟨hkept, row, hrow, rfl⟩, ?_⟩
  rw [delivered_iff] at hdelivered ⊢
  rcases hdelivered with hs | ⟨r, replacement, hr, hget, hs⟩
  · exact Or.inl hs
  · have hrkept : r ∉ deleted := fun hgone =>
      hd.links id row hrow hkept r hgone replacement hr hget hs
    exact Or.inr ⟨r, _, keepLink_eq_some.mpr ⟨hr, hrkept⟩,
      get?_deleteUploads.mpr ⟨hrkept, replacement, hget, rfl⟩, hs⟩

/-- A purge keeps the order: what it deletes is resolved and stays so. -/
theorem Causal.deleted {o : Outbox} (h : o.Causal) {db' : Database} {deleted : List Nat}
    (hd : Deletes o.db.uploads deleted)
    (hdb : db'.uploads = deleteUploads deleted o.db.uploads) : (o.after db').Causal := by
  have hremoved := mem_removed_of_deletes hd hdb
  have hback : ∀ {id row'}, db'.uploads.get? id = some row' → id ∉ deleted ∧
      ∃ row, o.db.uploads.get? id = some row ∧ row' = { row with
        predecessorUploadId := keepLink deleted row.predecessorUploadId
        supersededByUploadId := keepLink deleted row.supersededByUploadId
        resyncForUploadId := keepLink deleted row.resyncForUploadId } := by
    intro id row' hrow'
    rw [hdb] at hrow'
    exact get?_deleteUploads.mp hrow'
  have hforth : ∀ {id row}, o.db.uploads.get? id = some row → id ∉ deleted →
      db'.uploads.get? id = some { row with
        predecessorUploadId := keepLink deleted row.predecessorUploadId
        supersededByUploadId := keepLink deleted row.supersededByUploadId
        resyncForUploadId := keepLink deleted row.resyncForUploadId } := by
    intro id row hrow hkept
    rw [hdb]
    exact get?_deleteUploads.mpr ⟨hkept, row, hrow, rfl⟩
  have hresolved : ∀ {id}, id ∈ deleted → o.Resolved id := fun hid => Or.inl (hd.delivered _ hid)
  have hmono : ∀ {id}, o.Resolved id → (o.after db').Resolved id := by
    intro id hr
    rcases hr with ⟨row, hrow, hdelivered⟩ | hpurged
    · by_cases hid : id ∈ deleted
      · exact Or.inr (List.mem_append_right _ ((hremoved id).mpr hid))
      · obtain ⟨row', hrow', hd'⟩ := delivered_deleteUploads hd hrow hid hdelivered
        rw [← hdb] at hrow' hd'
        exact Or.inl ⟨row', hrow', hd'⟩
    · exact Or.inr (List.mem_append_left _ hpurged)
  have hplaced : (o.after db').placed = o.placed := by
    unfold after added
    rw [hdb]
    cases hget : (deleteUploads deleted o.db.uploads).get? o.db.uploads.nextId with
    | none => simp
    | some row' =>
      obtain ⟨-, row, hrow, -⟩ := get?_deleteUploads.mp hget
      rw [Table.get?_nextId] at hrow
      cases hrow
  have hpurged : ∀ {id}, id ∈ (o.after db').purged ↔ id ∈ o.purged ∨ id ∈ deleted := by
    intro id
    unfold after
    rw [List.mem_append, hremoved]
  have hnext : (o.after db').db.uploads.nextId = o.db.uploads.nextId := by
    show db'.uploads.nextId = _
    rw [hdb]
    rfl
  have hahead : ∀ {p q}, (o.after db').Ahead p q → o.Ahead p q := fun hpq =>
    ⟨hplaced ▸ hpq.left, hplaced ▸ hpq.right, hpq.group, hpq.place⟩
  refine ⟨?_, ?_, ?_, ?_, ?_, ?_, ?_, ?_, ?_, ?_, ?_, ?_⟩
  · intro id row' hrow' hnone
    obtain ⟨-, row, hrow, rfl⟩ := hback hrow'
    exact h.linked id row hrow hnone
  · rw [hplaced, hnext]
    exact h.known
  · rw [hplaced]
    exact h.unique
  · intro id row' group hrow' hgroup
    obtain ⟨-, row, hrow, rfl⟩ := hback hrow'
    rw [hplaced]
    exact h.placed id row group hrow hgroup
  · rw [hplaced]
    intro p hp
    rw [hpurged]
    rcases h.kept p hp with ⟨row, hrow, hgroup⟩ | hgone
    · by_cases hid : p.uploadId ∈ deleted
      · exact Or.inr (Or.inr hid)
      · exact Or.inl ⟨_, hforth hrow hid, hgroup⟩
    · exact Or.inr (Or.inl hgone)
  · intro id hid
    rw [hnext]
    have hnone : ∀ row', db'.uploads.get? id ≠ some row' := by
      intro row' hrow'
      obtain ⟨hkept, row, hrow, -⟩ := hback hrow'
      rcases hpurged.mp hid with hgone | hgone
      · exact h.not_purged hrow hgone
      · exact hkept hgone
    refine ⟨?_, Option.eq_none_iff_forall_ne_some.mpr hnone⟩
    rcases hpurged.mp hid with hgone | hgone
    · exact (h.absent id hgone).1
    · obtain ⟨row, hrow, -⟩ := hd.delivered id hgone
      exact Table.lt_nextId hrow
  · intro id row' r hrow' hr
    obtain ⟨-, row, hrow, rfl⟩ := hback hrow'
    obtain ⟨hlink, hkept⟩ := keepLink_eq_some.mp hr
    obtain ⟨hdead, existing, hexisting⟩ := h.superseded id row r hrow hlink
    exact ⟨hdead, _, hforth hexisting hkept⟩
  · rw [hplaced]
    intro p hp hlt row' hrow'
    obtain ⟨-, row, hrow, rfl⟩ := hback hrow'
    obtain ⟨hrecovery, hnone⟩ := h.recovery p hp hlt row hrow
    refine ⟨hrecovery, ?_⟩
    show keepLink deleted row.supersededByUploadId = none
    rw [hnone]
    rfl
  · rw [hplaced]
    intro p hp q hq hgroup hplace hlt
    rw [hpurged]
    rcases h.twins p hp q hq hgroup hplace hlt with ⟨hgone, hr⟩ | ⟨row, hrow, hlink⟩
    · exact Or.inl ⟨Or.inl hgone, hmono hr⟩
    · by_cases hid : p.uploadId ∈ deleted
      · exact Or.inl ⟨Or.inr hid, hmono ((h.resolved_twin hp hq hgroup hplace hlt).mp
          (hresolved hid))⟩
      · -- The recovery upload stays while the upload that it replaced is there.
        obtain ⟨-, existing, hexisting⟩ := h.superseded _ row _ hrow hlink
        have hqkept : q.uploadId ∉ deleted := by
          intro hqgone
          have hsmall := (h.known p hp).2
          have hunlinked := (h.recovery q hq (by omega) existing hexisting).2
          have hnot := hd.links _ row hrow hid _ hqgone existing hlink hexisting
          rcases hd.unused _ hqgone existing hexisting with hs | ⟨-, hs⟩
          · exact hnot hs
          · exact hs hunlinked
        exact Or.inr ⟨_, hforth hrow hid, keepLink_eq_some.mpr ⟨hlink, hqkept⟩⟩
  · intro p q hpq row' hrow'
    obtain ⟨-, row, hrow, rfl⟩ := hback hrow'
    rw [hplaced]
    have hpq := hahead hpq
    rcases h.chained p q hpq row hrow with hr | ⟨m, hm, hlink, hgroup, hle⟩
    · exact Or.inl (hmono hr)
    · by_cases hgone : m.uploadId ∈ deleted
      · exact Or.inl (hmono (h.resolved_of_le hpq.left hm (hpq.group.trans hgroup.symm) hle
          (hresolved hgone)))
      · exact Or.inr ⟨m, hm, keepLink_eq_some.mpr ⟨hlink, hgone⟩, hgroup, hle⟩
  · intro p q hpq row' hrow' hstatus
    obtain ⟨-, row, hrow, rfl⟩ := hback hrow'
    exact hmono (h.started p q (hahead hpq) row hrow hstatus)
  · intro p q hpq hgone
    have hpq := hahead hpq
    rcases hpurged.mp hgone with hgone | hgone
    · exact hmono (h.finished p q hpq hgone)
    · exact hmono (h.resolved_ahead hpq (hresolved hgone))

/-! ## The calls -/

theorem Moves.inPlace {o : Outbox} (h : o.Causal) {id : Nat} {row row' : UploadRow}
    (hrow : o.db.uploads.get? id = some row) (hm : Moves o.db.uploads row row') :
    InPlace o.db.uploads row row' where
  kind := hm.kind
  causalGroup := hm.causalGroup
  predecessor := hm.predecessor
  isRecovery := hm.isRecovery
  succeeded := hm.succeeded
  superseded _ hr := hm.superseded.trans hr
  unreplaced _ hnone := hm.superseded.trans hnone
  buried r hr := by
    rw [hm.superseded] at hr
    obtain ⟨hdead, hexisting⟩ := h.superseded id row r hrow hr
    exact ⟨hm.buried hdead (by simp [hr]), hexisting⟩
  started := hm.started

theorem InPlace.refl {o : Outbox} (h : o.Causal) {id : Nat} {row : UploadRow}
    (hrow : o.db.uploads.get? id = some row) : InPlace o.db.uploads row row :=
  Moves.inPlace h hrow (Moves.refl _ row)

/-- One row moves. -/
theorem Causal.modified {o : Outbox} (h : o.Causal) {db' : Database} {id : Nat}
    {f : UploadRow → UploadRow} (hdb : db'.uploads = o.db.uploads.modify id f)
    (hf : ∀ row, o.db.uploads.get? id = some row → InPlace o.db.uploads row (f row)) :
    (o.after db').Causal := by
  refine h.inPlace hdb fun id' row hrow => ?_
  split
  · rename_i hid
    exact hf row (hid ▸ hrow)
  · exact InPlace.refl h hrow

theorem Causal.unchanged {o : Outbox} (h : o.Causal) {db' : Database}
    (hdb : db'.uploads = o.db.uploads) : (o.after db').Causal := by
  refine h.inPlace (f := fun _ row => row) ?_ fun id row hrow => InPlace.refl h hrow
  rw [Table.update_eq_self fun _ _ _ => rfl, hdb]

theorem Supersedes.keeps {o : Outbox} (h : o.Causal) {id recoveryId : Nat} {row row' : UploadRow}
    (hrow : o.db.uploads.get? id = some row) (hs : Supersedes row recoveryId row') :
    Keeps row row' where
  kind := hs.kind
  causalGroup := hs.causalGroup
  predecessor := hs.predecessor
  isRecovery := hs.isRecovery
  succeeded hsucceeded := absurd (hs.inFlight.symm.trans hsucceeded) (by decide)
  superseded r hr :=
    absurd (hs.inFlight.symm.trans (h.superseded id row r hrow hr).1) (by decide)
  unreplaced hr := absurd (hs.original.symm.trans hr) (by decide)

/-- A claimed upload is given up for one that is there already. -/
theorem Causal.superseded_existing {o : Outbox} (h : o.Causal) {db' : Database} {id recoveryId : Nat}
    {row existing : UploadRow} {f : UploadRow → UploadRow}
    (hrow : o.db.uploads.get? id = some row)
    (hexisting : o.db.uploads.get? recoveryId = some existing)
    (hs : Supersedes row recoveryId (f row)) (hdb : db'.uploads = o.db.uploads.modify id f) :
    (o.after db').Causal := by
  refine h.modified hdb fun row₁ hrow₁ => ?_
  cases hrow.symm.trans hrow₁
  refine ⟨Supersedes.keeps h hrow hs, fun r hr => ?_, fun _ => Or.inl (by rw [hs.inFlight]; decide)⟩
  rw [hs.superseded, Option.some.injEq] at hr
  exact ⟨hs.status, existing, hr ▸ hexisting⟩

/-- An upload that is appended behind all unresolved uploads of its group keeps the order. -/
theorem Causal.appended {o : Outbox} (h : o.Causal) {db' : Database} {new : UploadRow}
    (ha : Appended o.db.uploads new) (hdb : db'.uploads = o.db.uploads.insert new)
    (hlast : ∀ group, new.causalGroup = some group →
      ∀ newest ∈ (newestUpload o.db.uploads group).map Prod.fst,
        ∀ p ∈ o.placed, p.group = group → ¬ o.Resolved p.uploadId →
          ∃ q ∈ o.placed, q.uploadId = newest ∧ p.place ≤ q.place) : (o.after db').Causal := by
  have hsmall : ∀ p ∈ o.placed, p.place < o.db.uploads.nextId := by
    intro p hp
    have := h.known p hp
    omega
  have hold : ∀ id, id ≠ o.db.uploads.nextId → db'.uploads.get? id = o.db.uploads.get? id := by
    intro id hid
    rw [hdb, Table.get?_insert, if_neg hid]
  have hforth : ∀ id row, o.db.uploads.get? id = some row → db'.uploads.get? id = some row := by
    intro id row hrow
    rw [hold id (Table.lt_nextId hrow).ne, hrow]
  have hnew : db'.uploads.get? o.db.uploads.nextId = some new := by
    rw [hdb, Table.get?_insert_self]
  refine @Causal.grown o h _ new o.db.uploads.nextId ⟨by rw [hdb]; rfl, hnew,
    fun id row hrow => ⟨row, hforth id row hrow, Keeps.refl row⟩, fun id row' hid hrow' => ?_,
    fun id row' r hrow' hr => ?_⟩ ⟨?_, le_refl _, ha.linked, ha.pending, ha.superseded,
    fun hlt => absurd hlt (lt_irrefl _), fun p hp _ hplace => absurd hplace (hsmall p hp).ne,
    fun p hp hgroup _ => ?_, fun q hq _ hlt => absurd (hsmall q hq) (by omega)⟩
  · rw [hold id hid] at hrow'
    exact ⟨row', hrow', Keeps.refl row', fun hstatus => hstatus⟩
  · by_cases hid : id = o.db.uploads.nextId
    · subst hid
      cases hnew.symm.trans hrow'
      rw [ha.superseded] at hr
      cases hr
    · rw [hold id hid] at hrow'
      obtain ⟨hdead, existing, hexisting⟩ := h.superseded id row' r hrow' hr
      exact ⟨hdead, existing, hforth r existing hexisting⟩
  · rw [ha.resyncFor]
    rfl
  · by_cases hresolved : o.Resolved p.uploadId
    · exact Or.inl hresolved
    · refine Or.inr ?_
      -- The unresolved upload is a row of the group, so the group has a newest row.
      obtain ⟨row, hrow, hrowgroup⟩ := (h.kept p hp).resolve_right fun hgone =>
        hresolved (Or.inr hgone)
      cases hnewest : newestUpload o.db.uploads p.group with
      | none =>
        have hnot := Table.last?_eq_none.mp hnewest _ row hrow
        rw [decide_eq_false_iff_not] at hnot
        exact absurd hrowgroup hnot
      | some newest =>
        obtain ⟨m, mrow⟩ := newest
        obtain ⟨hmrow, hmgroup⟩ := Table.last?_eq_some hnewest
        rw [decide_eq_true_eq] at hmgroup
        obtain ⟨q, hq, hqm, hle⟩ := hlast p.group hgroup m (by rw [hnewest]; rfl) p hp rfl hresolved
        obtain ⟨q', hq', hq'm, hq'group⟩ := h.placed m mrow p.group hmrow hmgroup
        have hqq : q = q' := h.unique q hq q' hq' (hqm.trans hq'm.symm)
        refine ⟨q, hq, ?_, hqq ▸ hq'group, hle⟩
        rw [ha.predecessor, hgroup, Option.bind_some, hnewest, hqm]
        rfl

theorem placeOf_eq {o : Outbox} (h : o.Causal) {p : Placed} (hp : p ∈ o.placed) :
    placeOf o.placed p.uploadId = some p.place := by
  unfold placeOf
  cases hfind : o.placed.find? fun q => decide (q.uploadId = p.uploadId) with
  | none =>
    have := List.find?_eq_none.mp hfind p hp
    simp at this
  | some q =>
    have hq : q.uploadId = p.uploadId := by simpa using List.find?_some hfind
    rw [h.unique q (List.mem_of_find?_eq_some hfind) p hp hq]
    rfl

/-- A recovery upload that takes the place of the upload it replaces keeps the order. -/
theorem Causal.recovered {o : Outbox} (h : o.Causal) {db' : Database} {id : Nat}
    {row recovery : UploadRow} {f : UploadRow → UploadRow}
    (hrow : o.db.uploads.get? id = some row) (hr : Recovers row id recovery)
    (hs : Supersedes row o.db.uploads.nextId (f row))
    (hdb : db'.uploads = (o.db.uploads.insert recovery).modify id f) : (o.after db').Causal := by
  have hid : id ≠ o.db.uploads.nextId := (Table.lt_nextId hrow).ne
  have hunresolved : ¬ o.Resolved id := by
    rw [h.resolved_iff hrow, delivered_iff]
    rintro (hsucceeded | ⟨r, -, hlink, -⟩)
    · exact absurd (hs.inFlight.symm.trans hsucceeded) (by decide)
    · exact absurd (hs.inFlight.symm.trans (h.superseded id row r hrow hlink).1) (by decide)
  have hnew : db'.uploads.get? o.db.uploads.nextId = some recovery := by
    rw [hdb, Table.get?_modify, if_neg hid.symm, Table.get?_insert_self]
  have hreplaced : db'.uploads.get? id = some (f row) := by
    rw [hdb, Table.get?_modify, if_pos rfl, Table.get?_insert_of_some hrow]
    rfl
  have hold : ∀ id', id' ≠ id → id' ≠ o.db.uploads.nextId →
      db'.uploads.get? id' = o.db.uploads.get? id' := by
    intro id' h₁ h₂
    rw [hdb, Table.get?_modify, if_neg h₁, Table.get?_insert, if_neg h₂]
  have hforth : KeepsAll o.db.uploads db'.uploads := by
    intro id' row' hrow'
    by_cases hsame : id' = id
    · subst hsame
      cases hrow.symm.trans hrow'
      exact ⟨f row, hreplaced, Supersedes.keeps h hrow hs⟩
    · exact ⟨row', by rw [hold id' hsame (Table.lt_nextId hrow').ne, hrow'], Keeps.refl row'⟩
  have hexists : ∀ r existing, o.db.uploads.get? r = some existing →
      ∃ existing', db'.uploads.get? r = some existing' := fun r existing hexisting =>
    (hforth r existing hexisting).imp fun _ hx => hx.1
  -- The place of the upload that is replaced, when it is in a group.
  have hentry : ∀ group, recovery.causalGroup = some group → ∃ a ∈ o.placed, a.uploadId = id ∧
      a.group = group ∧ (placeOf o.placed id).getD o.db.uploads.nextId = a.place := by
    intro group hgroup
    obtain ⟨a, ha, haid, hagroup⟩ := h.placed id row group hrow (hr.causalGroup ▸ hgroup)
    refine ⟨a, ha, haid, hagroup, ?_⟩
    rw [← haid, placeOf_eq h ha]
    rfl
  refine @Causal.grown o h _ recovery
    ((placeOf o.placed id).getD o.db.uploads.nextId) ⟨by rw [hdb]; rfl, hnew, hforth,
    fun id' row' hne hrow' => ?_, fun id' row' r hrow' hlink => ?_⟩ ⟨?_, ?_, fun _ => hr.kind,
    hr.pending, hr.superseded, fun _ => hr.isRecovery, fun p hp hgroup hplace => ?_,
    fun p hp hgroup hlt => ?_, fun q hq hgroup hlt => ?_⟩
  · by_cases hsame : id' = id
    · subst hsame
      cases hreplaced.symm.trans hrow'
      exact ⟨row, hrow, Supersedes.keeps h hrow hs, fun _ => by rw [hs.inFlight]; decide⟩
    · rw [hold id' hsame hne] at hrow'
      exact ⟨row', hrow', Keeps.refl row', fun hstatus => hstatus⟩
  · by_cases hsame : id' = id
    · subst hsame
      cases hreplaced.symm.trans hrow'
      rw [hs.superseded, Option.some.injEq] at hlink
      exact ⟨hs.status, recovery, hlink ▸ hnew⟩
    · by_cases hfresh : id' = o.db.uploads.nextId
      · subst hfresh
        cases hnew.symm.trans hrow'
        rw [hr.superseded] at hlink
        cases hlink
      · rw [hold id' hsame hfresh] at hrow'
        obtain ⟨hdead, existing, hexisting⟩ := h.superseded id' row' r hrow' hlink
        exact ⟨hdead, hexists r existing hexisting⟩
  · rw [hr.resyncFor]
    rfl
  · unfold placeOf
    cases hfind : o.placed.find? fun q => decide (q.uploadId = id) with
    | none => exact le_refl _
    | some q =>
      have := h.known q (List.mem_of_find?_eq_some hfind)
      simp only [Option.map_some, Option.getD_some]
      omega
  · obtain ⟨a, ha, haid, hagroup, haplace⟩ := hentry p.group hgroup
    rw [haplace] at hplace
    rcases lt_trichotomy p.uploadId a.uploadId with hlt | heq | hlt
    · -- An upload that was replaced by this one would make it a recovery upload.
      rcases h.twins p hp a ha hagroup.symm hplace hlt with ⟨-, hresolved⟩ | ⟨prow, hprow, hlink⟩
      · exact absurd (haid ▸ hresolved) hunresolved
      · have hsmall := (h.known p hp).2
        have hrecovery := (h.recovery a ha (by omega) row (haid ▸ hrow)).1
        exact absurd (hs.original.symm.trans hrecovery) (by decide)
    · rw [heq, haid]
      exact ⟨f row, hreplaced, hs.superseded⟩
    · rcases h.twins a ha p hp hagroup hplace.symm hlt with ⟨hgone, -⟩ | ⟨arow, harow, hlink⟩
      · exact absurd (haid ▸ hgone) (h.not_purged hrow)
      · rw [haid] at harow
        cases hrow.symm.trans harow
        exact absurd (hs.inFlight.symm.trans (h.superseded id row _ hrow hlink).1) (by decide)
  · obtain ⟨a, ha, haid, hagroup, haplace⟩ := hentry p.group hgroup
    rw [haplace] at hlt
    refine Or.inl (h.started p a ⟨hp, ha, hagroup.symm, hlt⟩ row (haid ▸ hrow) ?_)
    rw [hs.inFlight]
    decide
  · obtain ⟨a, ha, haid, hagroup, haplace⟩ := hentry q.group hgroup
    rw [haplace] at hlt
    have hahead : o.Ahead a q := ⟨ha, hq, hagroup, hlt⟩
    rw [← haid] at hunresolved
    obtain ⟨qrow, hqrow, -⟩ := (h.kept q hq).resolve_right fun hgone =>
      hunresolved (h.finished a q hahead hgone)
    refine ⟨qrow, hqrow, ?_, ?_⟩
    · by_contra hstarted
      exact hunresolved (h.started a q hahead qrow hqrow hstarted)
    · rw [haplace]
      exact (h.chained a q hahead qrow hqrow).resolve_left hunresolved

theorem uploadWithKey_eq_some {db : Database} {key : String} {id : Nat} {row : UploadRow}
    (h : uploadWithKey db key = some (id, row)) : db.uploads.get? id = some row :=
  (Table.first?_eq_some h).1

/-- Every call keeps the order, if an enqueued upload is appended last. -/
theorem causal_step {rt : Runtime} {o : Outbox} (h : o.Causal) {call : QueueCall}
    (hlast : o.AppendsLast rt call) : (o.step rt call).Causal := by
  unfold step
  cases call with
  | enqueue request uuid now =>
    simp only [QueueCall.perform]
    rcases hcall : enqueueUpload rt request uuid now o.db with e | ⟨result, db'⟩
    · exact h.unchanged rfl
    · rcases enqueueUpload_eq_ok h.linked hcall with ⟨-, -, -, -, rfl⟩ | ⟨hkey, -, fields, hf, rfl⟩
      · exact h.unchanged rfl
      · exact h.appended (appended_newUpload hf) rfl (hlast hkey)
  | claim limit leaseSeconds current leaseToken =>
    simp only [QueueCall.perform]
    rcases hcall : claimUploads rt limit leaseSeconds current leaseToken o.db with e | ⟨leases, db'⟩
    · exact h.unchanged rfl
    · obtain ⟨⟨f, hf, rfl⟩, -⟩ := claimUploads_eq_ok h.linked hcall
      exact h.inPlace rfl fun id row hrow => Moves.inPlace h hrow (hf id row hrow)
  | succeeded uploadId leaseToken deliveredAt =>
    simp only [QueueCall.perform]
    rcases hcall : markUploadSucceeded uploadId leaseToken deliveredAt o.db with e | ⟨done, db'⟩
    · exact h.unchanged rfl
    · rcases markUploadSucceeded_eq_ok hcall with ⟨-, rfl⟩ | ⟨-, ⟨row, hlease⟩, f, rfl, hf⟩
      · exact h.unchanged rfl
      · obtain ⟨hrow, hflight, -⟩ := leasedUpload_eq_some hlease
        refine h.modified rfl fun row₁ hrow₁ => ?_
        cases hrow.symm.trans hrow₁
        exact Moves.inPlace h hrow (hf row hflight).2
  | failed uploadId leaseToken failure current =>
    simp only [QueueCall.perform]
    rcases hcall : markUploadFailed rt uploadId leaseToken failure current o.db with
      e | ⟨status, db'⟩
    · exact h.unchanged rfl
    · obtain ⟨⟨row, hlease⟩, f, rfl, hf⟩ := markUploadFailed_eq_ok hcall
      obtain ⟨hrow, hflight, -⟩ := leasedUpload_eq_some hlease
      refine h.modified rfl fun row₁ hrow₁ => ?_
      cases hrow.symm.trans hrow₁
      exact Moves.inPlace h hrow (hf row hflight).2.2
  | resync uploadId leaseToken error uuid current =>
    simp only [QueueCall.perform]
    rcases hcall : scheduleFullResync rt uploadId leaseToken error uuid current o.db with
      e | ⟨result, db'⟩
    · exact h.unchanged rfl
    · obtain ⟨row, recovery, f, hlease, hrecovery, hs, hcases⟩ := scheduleFullResync_eq_ok hcall
      obtain ⟨hrow, -, -⟩ := leasedUpload_eq_some hlease
      obtain ⟨-, _, _, _, _, _, -, -, -, -, rfl⟩ := recoveryFor_eq_ok hrecovery
      rcases hcases with ⟨existing, hkey, -, rfl⟩ | ⟨-, hresult, rfl⟩
      · exact h.superseded_existing hrow (uploadWithKey_eq_some hkey) hs rfl
      · exact h.recovered hrow (recovers_recoveryUpload _ _ _ _ _ _ _ _) (hresult ▸ hs) rfl
  | requeue uploadId request recordedAt auditEventId current =>
    simp only [QueueCall.perform]
    rcases hcall : requeueDeadUpload rt uploadId request recordedAt auditEventId current o.db with
      e | ⟨result, db'⟩
    · exact h.unchanged rfl
    · obtain ⟨row, f, auditLog, hrow, -, -, hm, rfl⟩ := requeueDeadUpload_eq_ok hcall
      refine h.modified rfl fun row₁ hrow₁ => ?_
      cases hrow.symm.trans hrow₁
      exact Moves.inPlace h hrow hm
  | purge olderThan limit =>
    simp only [QueueCall.perform]
    rcases hcall : purgeSucceededUploads olderThan limit o.db with e | ⟨count, db'⟩
    · exact h.unchanged rfl
    · obtain ⟨deleted, hd, rfl⟩ := purgeSucceededUploads_eq_ok hcall
      exact h.deleted hd rfl
  | stored snapshots payloads => exact h.unchanged rfl

theorem causal_run {rt : Runtime} {calls : List QueueCall}
    (h : Guarded (step rt) (AppendsLast rt) initial calls) :
    (runFrom (step rt) initial calls).Causal :=
  h.invariant (fun _ _ hlast hcausal => causal_step hcausal hlast) causal_initial

end Outbox

/--
In every run that appends each new upload behind the unresolved ones of its group, a claim
never returns an upload while one ahead of it is unresolved.
-/
theorem claims_in_causal_order {rt : Runtime} {calls : List QueueCall}
    (hrun : Guarded (Outbox.step rt) (Outbox.AppendsLast rt) Outbox.initial calls)
    {limit : Int} {leaseSeconds current : ℚ} {leaseToken : Nat → String}
    {leases : List QueuedUpload} {db' : Database}
    (hclaim : claimUploads rt limit leaseSeconds current leaseToken
      (runFrom (Outbox.step rt) Outbox.initial calls).db = .ok (leases, db'))
    {p q : Placed} (hahead : (runFrom (Outbox.step rt) Outbox.initial calls).Ahead p q)
    (hlease : q.uploadId ∈ leases.map QueuedUpload.uploadId) :
    (runFrom (Outbox.step rt) Outbox.initial calls).Resolved p.uploadId := by
  have hcausal := Outbox.causal_run hrun
  obtain ⟨lease, hmem, hid⟩ := List.mem_map.mp hlease
  obtain ⟨row, hrow, hdelivered⟩ := (claimUploads_eq_ok hcausal.linked hclaim).2 lease hmem
  exact hcausal.resolved_of_predecessor hahead (hid ▸ hrow) hdelivered

/-! ## A run that does not append last -/

/-- A snapshot, as `store_snapshot` leaves it. -/
def sampleSnapshot (scanId : String) : SnapshotRow where
  endpointId := "endpoint-1"
  scanId := scanId
  payloadHash := "digest"
  previousSnapshotId := none
  schemaVersion := "1.0"
  policyVersion := none
  scannerVersion := none
  changed := true
  diff := []

/-- The upload of a scan. -/
def sampleUpload (scanId : String) : UploadRequest where
  kind := "scan_result"
  payload := .document (.obj [("inventory_sync", .obj [("scan_id", .str scanId)])])
  idempotencyKey := "scan-result:" ++ scanId
  endpoint := "/v1/scans/" ++ scanId ++ "/results"
  metadata := [("endpoint_id", .str "endpoint-1"), ("scan_id", .str scanId)]

def sampleGroup : String := (requestGroup Runtime.sample (sampleUpload "scan-1")).getD ""

/-- Two scans are enqueued, one upload is claimed and delivered. -/
def deliveredChain : List QueueCall :=
  [.enqueue (sampleUpload "scan-1") "uuid-1" 0,
    .enqueue (sampleUpload "scan-2") "uuid-2" 0,
    .claim 10 60 1 (fun _ => "lease-1"),
    .succeeded 1 "lease-1" "2026-01-01T00:00:00Z"]

/--
The upload of `scan-1` is replaced by a recovery upload, `scan-3` is enqueued while that is the
newest row, and the recovery upload is delivered.
-/
def forkedChain : List QueueCall :=
  [.stored ((∅ : Table SnapshotRow).insert (sampleSnapshot "scan-1"))
      ((∅ : Dict String Json).set "digest" (.obj [])),
    .enqueue (sampleUpload "scan-1") "uuid-1" 0,
    .enqueue (sampleUpload "scan-2") "uuid-2" 0,
    .claim 1 60 1 (fun _ => "lease-1"),
    .resync 1 "lease-1" "409" "uuid-3" 2,
    .enqueue (sampleUpload "scan-3") "uuid-4" 3,
    .claim 1 60 4 (fun _ => "lease-2"),
    .succeeded 3 "lease-2" "2026-01-01T00:00:00Z"]

/-- A claim whose identifiers are computed returns these uploads. -/
theorem exists_claimed {result : Except StorageError (List QueuedUpload × Database)} {ids : List Nat}
    (h : (match result with
      | .ok (leases, _) => some (leases.map QueuedUpload.uploadId)
      | .error _ => none) = some ids) :
    ∃ leases db', result = .ok (leases, db') ∧ leases.map QueuedUpload.uploadId = ids := by
  rcases result with _ | ⟨leases, db'⟩
  · cases h
  · exact ⟨leases, db', rfl, Option.some.inj h⟩

theorem claims_in_causal_order_delivered :
    (runFrom (Outbox.step Runtime.sample) Outbox.initial deliveredChain).Resolved 1 := by
  obtain ⟨leases, db', hclaim, hids⟩ := @exists_claimed
    (claimUploads Runtime.sample 10 60 2 (fun _ => "lease-2")
      (runFrom (Outbox.step Runtime.sample) Outbox.initial deliveredChain).db)
    [2] (by decide +kernel)
  refine claims_in_causal_order (p := ⟨1, sampleGroup, 1⟩) (q := ⟨2, sampleGroup, 2⟩)
    (by decide +kernel) hclaim (by decide +kernel) ?_
  rw [hids]
  decide

/-- The upload of `scan-3` is claimed while that of `scan-2`, ahead of it, is unresolved. -/
theorem claim_overtakes_forkedChain :
    ∃ leases db' p q, claimUploads Runtime.sample 10 60 5 (fun _ => "lease-3")
        (runFrom (Outbox.step Runtime.sample) Outbox.initial forkedChain).db = .ok (leases, db') ∧
      (runFrom (Outbox.step Runtime.sample) Outbox.initial forkedChain).Ahead p q ∧
      q.uploadId ∈ leases.map QueuedUpload.uploadId ∧
      ¬ (runFrom (Outbox.step Runtime.sample) Outbox.initial forkedChain).Resolved p.uploadId := by
  obtain ⟨leases, db', hclaim, hids⟩ := @exists_claimed
    (claimUploads Runtime.sample 10 60 5 (fun _ => "lease-3")
      (runFrom (Outbox.step Runtime.sample) Outbox.initial forkedChain).db)
    [2, 4] (by decide +kernel)
  refine ⟨leases, db', ⟨2, sampleGroup, 2⟩, ⟨4, sampleGroup, 4⟩, hclaim, by decide +kernel, ?_,
    by decide +kernel⟩
  rw [hids]
  decide

end OsScanner.Storage
