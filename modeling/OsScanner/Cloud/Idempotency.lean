import Mathlib
import OsScanner.Cloud.Answers

/-!
# An idempotency key takes effect at most once

Seven methods take an idempotency key. Each of them answers from the record of its triple
(tenant, operation, key) before it looks at anything else, and whenever it writes it also
records its answer. Records are never replaced, so in any run a triple takes effect at most
once, and every later call under it gets the recorded answer or a conflict.
-/

namespace OsScanner.Cloud

open Lib

/-! ## Kinds of responses -/

inductive ResponseKind where
  | grant
  | credential
  | scan
  | accepted
  deriving DecidableEq, Repr

def Response.kind : Response → ResponseKind
  | .grant _ => .grant
  | .credential _ => .credential
  | .scan _ => .scan
  | .accepted => .accepted

/-- The names of the operations tell what they record. -/
def operationKind (operation : String) : ResponseKind :=
  match operation.toList with
  | 'c' :: 'r' :: 'e' :: 'a' :: 't' :: 'e' :: '-' :: 'e' :: _ => .grant
  | 'e' :: _ => .credential
  | 'r' :: 'o' :: _ => .credential
  | 'r' :: 'e' :: _ => .accepted
  | _ => .scan

@[simp] theorem operationKind_createEnrollmentGrant :
    operationKind "create-enrollment-grant" = .grant := by decide

@[simp] theorem operationKind_enroll : operationKind "enroll" = .credential := by decide

@[simp] theorem operationKind_createScan : operationKind "create-scan" = .scan := by decide

@[simp] theorem operationKind_rotate (endpointId : String) :
    operationKind (rotateOperation endpointId) = .credential := by
  simp [operationKind, rotateOperation]

@[simp] theorem operationKind_ingest (scanId : String) :
    operationKind (ingestOperation scanId) = .scan := by
  simp [operationKind, ingestOperation]

@[simp] theorem operationKind_scanStatus (scanId : String) :
    operationKind (scanStatusOperation scanId) = .scan := by
  simp [operationKind, scanStatusOperation]

@[simp] theorem operationKind_rejection (documentSha256 : String) :
    operationKind (rejectionOperation documentSha256) = .accepted := by
  simp [operationKind, rejectionOperation]

/-- Every recorded response has the kind of its operation. -/
def RecordedKinds (repo : InMemoryRepository) : Prop :=
  ∀ id digest response, repo.idempotency.get? id = some (digest, response) →
    response.kind = operationKind id.operation

/-! ## A call under a recorded triple -/

/-- What the record of a triple makes of a call with a digest. -/
def recordedAnswer (recorded : String × Response) (digest : String) :
    Except RepositoryError Answer :=
  if recorded.1 = digest then .ok (.response recorded.2)
  else fail .idempotencyConflict "idempotency key was reused with different content"

/-- A recorded triple answers a method whose response is read back as it was recorded. -/
theorem run_idempotent_recorded {α : Type} {tenant operation key digest : String}
    {response : Response → Except RepositoryError α} {fresh : RepositoryMethod α}
    {answer : α → Answer} {repo : InMemoryRepository} {recorded : String × Response}
    (hrecorded : repo.idempotency.get? ⟨tenant, operation, key⟩ = some recorded)
    (hresponse : answer <$> response recorded.2 = .ok (.response recorded.2)) :
    (answer <$> idempotent tenant operation key digest response fresh).run repo =
      (recordedAnswer recorded digest, repo) := by
  simp only [idempotent, replay, Method.run_map, Method.run_reading_bind, hrecorded,
    recordedAnswer]
  by_cases hdigest : recorded.1 = digest
  · obtain ⟨a, ha, hanswer⟩ := map_eq_ok.mp hresponse
    simp only [hdigest, ne_eq, not_true_eq_false, if_false, if_true, Method.run_ofExcept, ha,
      hanswer]
  · simp only [hdigest, ne_eq, not_false_eq_true, if_true, if_false, fail]

theorem asGrant_of_kind {response : Response} (h : response.kind = .grant) :
    Answer.grant <$> response.asGrant = .ok (.response response) := by
  cases response with
  | grant value => rfl
  | _ => cases h

theorem asCredential_of_kind {response : Response} (h : response.kind = .credential) :
    Answer.credential <$> response.asCredential = .ok (.response response) := by
  cases response with
  | credential value => rfl
  | _ => cases h

theorem asScan_of_kind {response : Response} (h : response.kind = .scan) :
    Answer.scan <$> response.asScan = .ok (.response response) := by
  cases response with
  | scan value => rfl
  | _ => cases h

theorem asAccepted_of_kind {response : Response} (h : response.kind = .accepted) :
    (fun _ => Answer.response .accepted) <$> response.asAccepted = .ok (.response response) := by
  cases response with
  | accepted => rfl
  | _ => cases h

/-- A call under a recorded triple gets the recorded answer and changes nothing. -/
theorem Call.run_recorded (rt : Runtime) {repo : InMemoryRepository} {call : Call}
    {id : IdempotencyKey} {digest : String} {recorded : String × Response}
    (hkinds : RecordedKinds repo) (hrequest : call.request = some (id, digest))
    (hrecorded : repo.idempotency.get? id = some recorded) :
    (call.method rt).run repo = (recordedAnswer recorded digest, repo) := by
  have hkind := hkinds id recorded.1 recorded.2 hrecorded
  cases call with
  | identity call =>
    cases call <;> cases hrequest
    · exact run_idempotent_recorded hrecorded (asGrant_of_kind (by rw [hkind]; simp))
    · exact run_idempotent_recorded hrecorded (asCredential_of_kind (by rw [hkind]; simp))
    · exact run_idempotent_recorded hrecorded (asCredential_of_kind (by rw [hkind]; simp))
  | scan call =>
    cases call <;> cases hrequest
    · exact run_idempotent_recorded hrecorded (asScan_of_kind (by rw [hkind]; simp))
    · exact run_idempotent_recorded hrecorded (asScan_of_kind (by rw [hkind]; simp))
    · exact run_idempotent_recorded hrecorded (asScan_of_kind (by rw [hkind]; simp))
    · exact run_idempotent_recorded hrecorded (asAccepted_of_kind (by rw [hkind]; simp))

/-! ## A call under a fresh triple -/

/-- The call wrote the state and recorded its response under a fresh triple. -/
structure Records (rt : Runtime) (repo : InMemoryRepository) (call : Call) (id : IdempotencyKey)
    (digest : String) (response : Response) : Prop where
  request : call.request = some (id, digest)
  fresh : repo.idempotency.get? id = none
  recorded : (call.step rt repo).idempotency = repo.idempotency.set id (digest, response)
  kind : response.kind = operationKind id.operation
  answered : ∀ answer, call.answer rt repo = .ok answer → answer = .response response

/-- A fresh triple is not replayed. -/
theorem error_of_fresh {α : Type} {tenant operation key digest : String}
    {response : Response → Except RepositoryError α} {repo : InMemoryRepository}
    {result : Except RepositoryError α}
    (hfresh : repo.idempotency.get? ⟨tenant, operation, key⟩ = none)
    (h : Replays tenant operation key digest response repo result ∨ ∃ e, result = .error e) :
    ∃ e, result = .error e := by
  rcases h with h | h
  · cases h with
    | conflict found _ => rw [hfresh] at found; cases found
    | replayed found => rw [hfresh] at found; cases found
  · exact h

/-- What a call with a request does: it records, or it changes nothing. -/
theorem Call.records_or_same (rt : Runtime) (repo : InMemoryRepository) {call : Call}
    {id : IdempotencyKey} {digest : String} (hrequest : call.request = some (id, digest)) :
    (call.step rt repo = repo ∧
        (repo.idempotency.get? id = none → ∃ e, call.answer rt repo = .error e)) ∨
      ∃ response, Records rt repo call id digest response := by
  have hraised : ∀ {α : Type} {f : α → Answer} {m : RepositoryMethod α},
      (∃ e, (m.run repo).1 = .error e) → ∃ e, ((f <$> m).run repo).1 = .error e := by
    rintro α f m ⟨e, he⟩
    exact ⟨e, by rw [run_map_fst]; exact map_eq_error.mpr he⟩
  have hanswered : ∀ {α : Type} {f : α → Answer} {m : RepositoryMethod α} {a : α},
      (m.run repo).1 = .ok a → ∀ answer, ((f <$> m).run repo).1 = .ok answer → answer = f a := by
    intro α f m a ha answer h
    rw [run_map_fst, ha] at h
    exact (Except.ok.inj h).symm
  have hnever : ∀ {α : Type} {f : α → Answer} {m : RepositoryMethod α} {e : RepositoryError}
      {P : Answer → Prop}, (m.run repo).1 = .error e →
      ∀ answer, ((f <$> m).run repo).1 = .ok answer → P answer := by
    intro α f m e P he answer h
    rw [run_map_fst, he] at h
    cases h
  cases call with
  | identity call =>
    cases call with
    | createEnrollmentGrant =>
      cases hrequest
      rcases createEnrollmentGrant_effect (Prod.mk.eta).symm with
        ⟨h, hr⟩ | ⟨hnone, -, hok, _, h⟩
      · exact Or.inl ⟨h, fun hfresh => hraised (error_of_fresh hfresh hr)⟩
      · exact Or.inr ⟨_, rfl, hnone, congrArg InMemoryRepository.idempotency h,
          by simp [Response.kind], hanswered hok⟩
    | enrollEndpoint =>
      cases hrequest
      rcases enrollEndpoint_effect (Prod.mk.eta).symm with
        ⟨h, hr⟩ | ⟨_, hnone, -, -, -, hok, _, h⟩
      · exact Or.inl ⟨h, fun hfresh => hraised (error_of_fresh hfresh hr)⟩
      · exact Or.inr ⟨_, rfl, hnone, congrArg InMemoryRepository.idempotency h,
          by simp [Response.kind], hanswered hok⟩
    | rotateCredential =>
      cases hrequest
      rcases rotateCredential_effect (Prod.mk.eta).symm with
        ⟨h, hr⟩ | ⟨_, _, _, hnone, -, hok, _, h⟩
      · exact Or.inl ⟨h, fun hfresh => hraised (error_of_fresh hfresh hr)⟩
      · exact Or.inr ⟨_, rfl, hnone, congrArg InMemoryRepository.idempotency h,
          by simp [Response.kind], hanswered hok⟩
  | scan call =>
    cases call with
    | createScanJob =>
      cases hrequest
      rcases createScanJob_effect (Prod.mk.eta).symm with
        ⟨h, hr⟩ | ⟨hnone, -, -, ⟨_, -, hok⟩ | ⟨_, -, herror⟩, _, h⟩
      · exact Or.inl ⟨h, fun hfresh => hraised (error_of_fresh hfresh hr)⟩
      · exact Or.inr ⟨_, rfl, hnone, congrArg InMemoryRepository.idempotency h,
          by simp [Response.kind], hanswered hok⟩
      · exact Or.inr ⟨_, rfl, hnone, congrArg InMemoryRepository.idempotency h,
          by simp [Response.kind], hnever herror⟩
    | ingestScan =>
      cases hrequest
      rcases ingestScan_effect (Prod.mk.eta).symm with
        ⟨h, hr⟩ | ⟨_, _, hnone, -, ⟨_, -, hok⟩ | ⟨_, -, herror⟩, _, h⟩
      · exact Or.inl ⟨h, fun hfresh => hraised (error_of_fresh hfresh hr)⟩
      · exact Or.inr ⟨_, rfl, hnone, congrArg InMemoryRepository.idempotency h,
          by simp [Response.kind], hanswered hok⟩
      · exact Or.inr ⟨_, rfl, hnone, congrArg InMemoryRepository.idempotency h,
          by simp [Response.kind], hnever herror⟩
    | recordScanStatus =>
      cases hrequest
      rcases recordScanStatus_effect (Prod.mk.eta).symm with
        ⟨h, hr⟩ | ⟨_, hnone, -, -, ⟨_, -, hok⟩ | ⟨_, -, herror⟩, _, h⟩
      · exact Or.inl ⟨h, fun hfresh => hraised (error_of_fresh hfresh hr)⟩
      · exact Or.inr ⟨_, rfl, hnone, congrArg InMemoryRepository.idempotency h,
          by simp [Response.kind], hanswered hok⟩
      · exact Or.inr ⟨_, rfl, hnone, congrArg InMemoryRepository.idempotency h,
          by simp [Response.kind], hnever herror⟩
    | recordRejection =>
      cases hrequest
      rcases recordRejection_effect (Prod.mk.eta).symm with
        ⟨h, hr⟩ | ⟨_, hnone, -, hok, _, h⟩
      · exact Or.inl ⟨h, fun hfresh => hraised (error_of_fresh hfresh hr)⟩
      · exact Or.inr ⟨_, rfl, hnone, congrArg InMemoryRepository.idempotency h,
          by simp [Response.kind], hanswered hok⟩
    | _ => cases hrequest

/-- A call without a request leaves the records alone. -/
theorem Call.idempotency_of_no_request {rt : Runtime} {repo : InMemoryRepository} {call : Call}
    (hrequest : call.request = none) : (call.step rt repo).idempotency = repo.idempotency := by
  cases call with
  | identity call => cases hrequest
  | scan call =>
    cases call with
    | claimNextJob principal now =>
      obtain ⟨⟨_, h⟩, -⟩ := claimNextJob_effect (Prod.mk.eta).symm
      rw [Call.step, ScanCall.step, h]
      exact (touchEndpoint_frame principal now repo).2.2.2.2
    | claimAnalysisTask =>
      rcases claimAnalysisTask_effect (Prod.mk.eta).symm with
        ⟨h, -⟩ | ⟨_, _, -, -, -, -, h⟩ <;> rw [Call.step, ScanCall.step, h]
    | completeAnalysisTask =>
      rcases completeAnalysisTask_effect (Prod.mk.eta).symm with
        ⟨h, -⟩ | ⟨_, -, -, h⟩ <;> rw [Call.step, ScanCall.step, h]
    | failAnalysisTask =>
      rcases failAnalysisTask_effect (Prod.mk.eta).symm with
        ⟨h, -⟩ | ⟨_, -, -, h⟩ <;> rw [Call.step, ScanCall.step, h]
    | finalizeScanReport =>
      rcases finalizeScanReport_effect (Prod.mk.eta).symm with
        h | ⟨_, -, -, -, -, _, h⟩ <;> rw [Call.step, ScanCall.step, h]
    | finalizeScanReportFailure =>
      rcases finalizeScanReportFailure_effect (Prod.mk.eta).symm with
        h | ⟨_, -, -, -, _, h⟩ <;> rw [Call.step, ScanCall.step, h]
    | _ => cases hrequest

/-! ## Runs -/

/-- The records of a step are those before it, and the one that a recording call adds. -/
theorem Call.idempotency_cases (rt : Runtime) (repo : InMemoryRepository) (call : Call) :
    (call.step rt repo).idempotency = repo.idempotency ∨
      ∃ id digest response, Records rt repo call id digest response := by
  cases hrequest : call.request with
  | none => exact Or.inl (Call.idempotency_of_no_request hrequest)
  | some request =>
    rcases Call.records_or_same rt repo hrequest with ⟨h, -⟩ | ⟨response, h⟩
    · exact Or.inl (by rw [h])
    · exact Or.inr ⟨_, _, response, h⟩

theorem RecordedKinds.step {rt : Runtime} {repo : InMemoryRepository} (call : Call)
    (hkinds : RecordedKinds repo) : RecordedKinds (call.step rt repo) := by
  intro id digest response h
  rcases Call.idempotency_cases rt repo call with hsame | ⟨id', digest', response', hr⟩
  · rw [hsame] at h
    exact hkinds id digest response h
  · rw [hr.recorded, Dict.get?_set] at h
    split at h
    · cases h
      subst_vars
      exact hr.kind
    · exact hkinds id digest response h

theorem recordedKinds_run (rt : Runtime) (calls : List Call) :
    RecordedKinds (runFrom (Call.step rt) {} calls) :=
  @run_invariant _ _ (Call.step rt) RecordedKinds (fun _ call h => h.step call) _ _
    (fun _ _ _ h => by cases h)

/-- A record stays what it is, whatever is called. -/
theorem recorded_run (rt : Runtime) (calls : List Call) {id : IdempotencyKey}
    {recorded : String × Response} {repo : InMemoryRepository}
    (h : repo.idempotency.get? id = some recorded) :
    (runFrom (Call.step rt) repo calls).idempotency.get? id = some recorded := by
  refine @run_invariant _ _ (Call.step rt)
    (fun repo => repo.idempotency.get? id = some recorded) (fun repo call h => ?_) _ _ h
  rcases Call.idempotency_cases rt repo call with hsame | ⟨id', digest', response', hr⟩
  · rw [hsame]
    exact h
  · rw [hr.recorded, Dict.get?_set]
    split
    · rename_i hid
      rw [← hid, hr.fresh] at h
      cases h
    · exact h

/-- The triples whose calls changed the state in a run, in the order in which they did. -/
def effects (rt : Runtime) : InMemoryRepository → List Call → List IdempotencyKey
  | _, [] => []
  | repo, call :: calls =>
    match call.request with
    | none => effects rt (call.step rt repo) calls
    | some (id, _) =>
      if call.step rt repo = repo then effects rt (call.step rt repo) calls
      else id :: effects rt (call.step rt repo) calls

/-- A recorded triple takes no further effect. -/
theorem not_mem_effects {rt : Runtime} {id : IdempotencyKey} {calls : List Call} :
    ∀ {repo : InMemoryRepository} {recorded : String × Response},
      repo.idempotency.get? id = some recorded → id ∉ effects rt repo calls := by
  induction calls with
  | nil => exact fun _ h => by cases h
  | cons call calls ih =>
    intro repo recorded hrecorded
    have hnext := recorded_run rt [call] hrecorded
    rw [effects]
    split
    · exact ih hnext
    · rename_i id' digest hrequest
      split
      · exact ih hnext
      · rename_i hchanged
        rcases Call.records_or_same rt repo hrequest with
          ⟨hsame, -⟩ | ⟨response, hr⟩
        · exact absurd hsame hchanged
        · intro hmem
          rcases List.mem_cons.mp hmem with rfl | hmem
          · rw [hr.fresh] at hrecorded
            cases hrecorded
          · exact ih hnext hmem

/-- In any run, each triple takes effect at most once. -/
theorem nodup_effects (rt : Runtime) (calls : List Call) (repo : InMemoryRepository) :
    (effects rt repo calls).Nodup := by
  induction calls generalizing repo with
  | nil => exact List.nodup_nil
  | cons call calls ih =>
    rw [effects]
    split
    · exact ih _
    · rename_i id digest hrequest
      split
      · exact ih _
      · rename_i hchanged
        rcases Call.records_or_same rt repo hrequest with
          ⟨hsame, -⟩ | ⟨response, hr⟩
        · exact absurd hsame hchanged
        · have hrecorded : (call.step rt repo).idempotency.get? id = some (digest, response) := by
            rw [hr.recorded, Dict.get?_set_self]
          exact List.nodup_cons.mpr ⟨not_mem_effects hrecorded, ih _⟩

/-- What a call with a request answered is recorded under its digest. -/
theorem Call.recorded_of_answer {rt : Runtime} {repo : InMemoryRepository} {call : Call}
    {id : IdempotencyKey} {digest : String} {answer : Answer} (hkinds : RecordedKinds repo)
    (hrequest : call.request = some (id, digest)) (h : call.answer rt repo = .ok answer) :
    ∃ response, answer = .response response ∧
      (call.step rt repo).idempotency.get? id = some (digest, response) := by
  rcases Call.records_or_same rt repo hrequest with
    ⟨hsame, hfresh⟩ | ⟨response, hr⟩
  · cases hrecord : repo.idempotency.get? id with
    | none =>
      obtain ⟨e, he⟩ := hfresh hrecord
      rw [h] at he
      cases he
    | some recorded =>
      have hrun := Call.run_recorded rt hkinds hrequest hrecord
      rw [Call.run_method, h, Prod.mk.injEq, recordedAnswer] at hrun
      split at hrun
      · rename_i hdigest
        refine ⟨recorded.2, Except.ok.inj hrun.1, ?_⟩
        rw [hsame, hrecord, ← hdigest]
      · cases hrun.1
  · exact ⟨response, hr.answered answer h, by rw [hr.recorded, Dict.get?_set_self]⟩

/--
In every run each triple takes effect at most once. A call that finds its triple recorded
leaves the whole state as it was: with the recorded digest it returns the recorded response,
with another digest it is refused. And what a call answered is what it finds recorded there,
however many other calls were made in between.
-/
theorem idempotency_at_most_once (rt : Runtime) (calls : List Call) :
    (effects rt {} calls).Nodup ∧
    (∀ (call : Call) (id : IdempotencyKey) (digest recordedDigest : String) (response : Response),
      call.request = some (id, digest) →
      (runFrom (Call.step rt) {} calls).idempotency.get? id = some (recordedDigest, response) →
      (digest = recordedDigest → (call.method rt).run (runFrom (Call.step rt) {} calls) =
        (.ok (.response response), runFrom (Call.step rt) {} calls)) ∧
      (digest ≠ recordedDigest → (call.method rt).run (runFrom (Call.step rt) {} calls) =
        (fail .idempotencyConflict "idempotency key was reused with different content",
          runFrom (Call.step rt) {} calls))) ∧
    ∀ (call : Call) (later : List Call) (id : IdempotencyKey) (digest : String) (answer : Answer),
      call.request = some (id, digest) →
      call.answer rt (runFrom (Call.step rt) {} calls) = .ok answer →
      ∃ response, answer = .response response ∧
        (runFrom (Call.step rt) {} (calls ++ call :: later)).idempotency.get? id =
          some (digest, response) := by
  have hkinds := recordedKinds_run rt calls
  refine ⟨nodup_effects rt calls {}, fun call id digest recordedDigest response hrequest
    hrecorded => ?_, fun call later id digest answer hrequest hanswer => ?_⟩
  · have hrun := Call.run_recorded rt hkinds hrequest hrecorded
    refine ⟨fun hdigest => ?_, fun hdigest => ?_⟩
    · rw [hrun, recordedAnswer, if_pos hdigest.symm]
    · rw [hrun, recordedAnswer, if_neg (Ne.symm hdigest)]
  · obtain ⟨response, hresponse, hrecorded⟩ := Call.recorded_of_answer hkinds hrequest hanswer
    refine ⟨response, hresponse, ?_⟩
    rw [runFrom_append, runFrom_cons]
    exact recorded_run rt later hrecorded

end OsScanner.Cloud
