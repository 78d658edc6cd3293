import Mathlib
import OsScanner.Cloud.Noninterference
import OsScanner.Cloud.ScanLifecycle

/-!
# The poll of the PostgreSQL repository

`PostgresRepository.claim_next_job` reads at most 256 queued or dispatched scans of the
endpoint and then goes through them as the in-memory repository goes through all scans. The
tables hold the same records, so they are modelled by the same state; the order in which they
keep their rows is any order.

The two agree as long as the limit does not cut off a job that should be handed out or expired.
-/

namespace OsScanner.Cloud

open Lib

namespace Postgres

/-! ## The method -/

/-- `LIMIT 256` -/
def candidateLimit : Nat := 256

/-- `ORDER BY created_at` -/
def byCreation (a b : ScanRecord) : Prop := a.createdAt ≤ b.createdAt

instance : DecidableRel byCreation := fun a b => inferInstanceAs (Decidable (a.createdAt ≤ b.createdAt))
instance : Std.Total byCreation := ⟨fun a b => le_total a.createdAt b.createdAt⟩
instance : IsTrans ScanRecord byCreation := ⟨fun _ _ _ h₁ h₂ => le_trans h₁ h₂⟩

/-- The queued and dispatched scans of the endpoint, oldest first. -/
def openScans (principal : DevicePrincipal) (tables : InMemoryRepository) : List ScanRecord :=
  (tables.scans.values.filter fun record => decide (isDispatchCandidate principal record)).insertionSort
    byCreation

/-- The loop over the rows, which are candidates already. -/
def rowLoop (rt : Runtime) (principal : DevicePrincipal) (now auditedAt : Timestamp) :
    List ScanRecord → RepositoryMethod (Option ScanRecord)
  | [] => pure none
  | record :: rows =>
    match jobDispatchEligibility rt record principal.endpointId now with
    | .expired => do
      expireRecord principal now auditedAt record
      rowLoop rt principal now auditedAt rows
    | .eligible => some <$> dispatchRecord principal now auditedAt record
    | .active | .waiting => rowLoop rt principal now auditedAt rows

/-- `claim_next_job`, in one transaction -/
def claimNextJob (rt : Runtime) (principal : DevicePrincipal) (now auditedAt : Timestamp) :
    RepositoryMethod (Option ScanRecord) :=
  .transaction do
    .modify (touchEndpoint principal now)
    let rows ← .reading fun tables => .ok ((openScans principal tables).take candidateLimit)
    rowLoop rt principal now auditedAt rows

/-! ## Agreement -/

/-- Both repositories hold the same scans. -/
def SameScans (repo tables : InMemoryRepository) : Prop :=
  ∀ scanId, tables.scans.get? scanId = repo.scans.get? scanId

/-- No two scans were created at the same time. -/
def DistinctCreation (repo : InMemoryRepository) : Prop :=
  ∀ scanId scanId' record record', repo.scans.get? scanId = some record →
    repo.scans.get? scanId' = some record' → record.createdAt = record'.createdAt →
      scanId = scanId'

/-- The same answer, and the same states on the same scans. -/
structure Agrees (answer answer' : Except RepositoryError (Option ScanRecord))
    (scans scans' : Dict String ScanRecord) : Prop where
  answer : answer = answer'
  states : ∀ scanId, (scans.get? scanId).map ScanRecord.state =
    (scans'.get? scanId).map ScanRecord.state

def PollsAgree (rt : Runtime) (principal : DevicePrincipal) (now auditedAt : Timestamp)
    (repo tables : InMemoryRepository) : Prop :=
  Agrees ((Cloud.claimNextJob rt principal now auditedAt).run repo).1
    ((claimNextJob rt principal now auditedAt).run tables).1
    ((Cloud.claimNextJob rt principal now auditedAt).run repo).2.scans
    ((claimNextJob rt principal now auditedAt).run tables).2.scans

/-- The limit cuts off nothing that matters, and the job that is handed out has its timeout. -/
def WithinCandidates (rt : Runtime) (principal : DevicePrincipal) (now : Timestamp)
    (scans : List ScanRecord) : Prop :=
  match (scans.take candidateLimit).find? (handsOut rt principal now) with
  | some record => ∃ timeout, requireKey record.jobDocument "timeout_seconds" = .ok timeout
  | none => ∀ record ∈ scans.drop candidateLimit,
      handsOut rt principal now record = false ∧ expires rt principal now record = false

section

variable {rt : Runtime} {principal : DevicePrincipal} {now auditedAt : Timestamp}

/-! ## One loop -/

theorem rowLoop_eq {rows : List ScanRecord}
    (h : ∀ record ∈ rows, isDispatchCandidate principal record) :
    rowLoop rt principal now auditedAt rows = dispatchLoop rt principal now auditedAt rows := by
  induction rows with
  | nil => rfl
  | cons record rows ih =>
    have hrest := ih fun r hr => h r (List.mem_cons_of_mem _ hr)
    have hcandidate := h record List.mem_cons_self
    cases heligibility : jobDispatchEligibility rt record principal.endpointId now <;>
      simp only [rowLoop, dispatchLoop, if_pos hcandidate, hrest, heligibility]

/-- The loop over the scans of all endpoints answers as the one over the candidates. -/
theorem dispatchAnswer_candidates (candidates : List ScanRecord) :
    dispatchAnswer rt principal now candidates =
      dispatchAnswer rt principal now
        (candidates.filter fun record => decide (isDispatchCandidate principal record)) := by
  induction candidates with
  | nil => rfl
  | cons record candidates ih =>
    by_cases hcandidate : isDispatchCandidate principal record
    · rw [List.filter_cons_of_pos (by simpa using hcandidate)]
      simp only [dispatchAnswer, ih]
    · rw [List.filter_cons_of_neg (by simpa using hcandidate)]
      simp only [dispatchAnswer, if_neg hcandidate, ih]

/-- What the loop answers: the first record that is handed out. -/
theorem dispatchAnswer_eq {candidates : List ScanRecord} :
    dispatchAnswer rt principal now candidates =
      match candidates.find? (handsOut rt principal now) with
      | none => .ok none
      | some record => (requireKey record.jobDocument "timeout_seconds").map fun _ =>
          some (dispatchedRecord now record) := by
  induction candidates with
  | nil => rfl
  | cons record candidates ih =>
    by_cases hout : handsOut rt principal now record = true
    · rw [List.find?_cons_of_pos hout]
      unfold handsOut at hout
      simp only [Bool.and_eq_true, decide_eq_true_eq] at hout
      simp only [dispatchAnswer, if_pos hout.1, hout.2]
      rfl
    · rw [List.find?_cons_of_neg hout, ← ih]
      unfold handsOut at hout
      simp only [Bool.and_eq_true, decide_eq_true_eq, not_and] at hout
      rw [dispatchAnswer]
      split
      · next hcandidate =>
        have hne := hout hcandidate
        split
        · next helig => exact absurd helig hne
        all_goals rfl
      · rfl

/-! ## The rows that are read -/

theorem mem_openScans {tables : InMemoryRepository} {record : ScanRecord} :
    record ∈ openScans principal tables ↔
      record ∈ tables.scans.values ∧ isDispatchCandidate principal record := by
  rw [openScans, List.mem_insertionSort, List.mem_filter, decide_eq_true_eq]

theorem nodup_values {scans : Dict String ScanRecord} (hkeys : ScanKeys scans) :
    scans.values.Nodup := List.Nodup.of_map ScanRecord.scanId (Dict.nodup_map_values hkeys)

/-- The scans of the endpoint in the order of their creation do not depend on the repository. -/
theorem openScans_eq {repo tables : InMemoryRepository} (hkeys : ScanKeys repo.scans)
    (hsame : SameScans repo tables) (hdistinct : DistinctCreation repo) :
    openScans principal tables =
      (dispatchOrder repo).filter fun record => decide (isDispatchCandidate principal record) := by
  have hkeys' : ScanKeys tables.scans := fun k record h => hkeys k record (by rw [← hsame, h])
  have horder : dispatchOrder repo = repo.scans.values.insertionSort byCreation := rfl
  have hvalues : tables.scans.values.Perm repo.scans.values := by
    refine (List.perm_ext_iff_of_nodup (nodup_values hkeys') (nodup_values hkeys)).mpr fun record => ?_
    rw [Dict.mem_values_iff, Dict.mem_values_iff]
    simp only [hsame _]
  rw [horder, filter_insertionSort, openScans]
  refine List.Perm.eq_of_pairwise ?_ (List.pairwise_insertionSort byCreation _)
    (List.pairwise_insertionSort byCreation _) ?_
  · intro a b ha hb hab hba
    rw [List.mem_insertionSort, List.mem_filter] at ha hb
    obtain ⟨k, hk⟩ := Dict.mem_values_iff.mp (hvalues.mem_iff.mp ha.1)
    obtain ⟨k', hk'⟩ := Dict.mem_values_iff.mp hb.1
    obtain rfl := hdistinct k k' a b hk hk' (le_antisymm hab hba)
    exact Option.some.inj (hk.symm.trans hk')
  · exact ((List.perm_insertionSort _ _).trans (hvalues.filter _)).trans
      (List.perm_insertionSort _ _).symm

/-! ## Both polls over one list -/

/-- What is no candidate is neither handed out nor expired. -/
theorem polledRecord_candidates (candidates : List ScanRecord) :
    polledRecord rt principal now (candidates.filter fun record =>
        decide (isDispatchCandidate principal record)) =
      polledRecord rt principal now candidates := by
  have hfind : (candidates.filter fun record => decide (isDispatchCandidate principal record)).find?
      (handsOut rt principal now) = candidates.find? (handsOut rt principal now) := by
    rw [List.find?_filter]
    congr 1
    funext record
    by_cases hc : isDispatchCandidate principal record <;> simp [handsOut, hc]
  have hvisited : (visited rt principal now (candidates.filter fun record =>
      decide (isDispatchCandidate principal record))).filter (expires rt principal now) =
        (visited rt principal now candidates).filter (expires rt principal now) := by
    clear hfind
    unfold visited
    induction candidates with
    | nil => rfl
    | cons record candidates ih =>
      by_cases hc : isDispatchCandidate principal record
      · rw [List.filter_cons_of_pos (by simpa using hc), List.takeWhile_cons, List.takeWhile_cons]
        split
        · rw [List.filter_cons, List.filter_cons, ih]
        · rfl
      · have hout : handsOut rt principal now record = false := by simp [handsOut, hc]
        have hexp : expires rt principal now record = false := by simp [expires, hc]
        rw [List.filter_cons_of_neg (by simpa using hc), ih, List.takeWhile_cons, if_pos (by simp [hout]),
          List.filter_cons_of_neg (by simp [hexp])]
  funext record
  unfold polledRecord
  rw [hfind, hvisited]

/-- The answer and the scans of the in-memory poll. -/
theorem run_inMemory {repo : InMemoryRepository} (hkeys : ScanKeys repo.scans) :
    ((Cloud.claimNextJob rt principal now auditedAt).run repo).1 =
        dispatchAnswer rt principal now ((dispatchOrder repo).filter fun record =>
          decide (isDispatchCandidate principal record)) ∧
      ∀ scanId, ((Cloud.claimNextJob rt principal now auditedAt).run repo).2.scans.get? scanId =
        (repo.scans.get? scanId).map (polledRecord rt principal now
          ((dispatchOrder repo).filter fun record =>
            decide (isDispatchCandidate principal record))) := by
  constructor
  · rw [← dispatchAnswer_candidates, Cloud.claimNextJob, Method.run_modify_bind,
      Method.run_reading_bind, dispatchOrder, touchEndpoint_scans]
    exact run_dispatchLoop_fst _
  · intro scanId
    obtain ⟨⟨events, h⟩, -⟩ :=
      @claimNextJob_effect rt principal now auditedAt repo _ _ (Prod.mk.eta).symm
    rw [h, polledRecord_candidates]
    exact get?_polledScans hkeys scanId

/-- The rows that one poll reads. -/
def readRows (principal : DevicePrincipal) (tables : InMemoryRepository) : List ScanRecord :=
  (openScans principal tables).take candidateLimit

/-- The answer of the poll over the rows that are read, and its scans when it does not raise. -/
theorem run_rows {tables : InMemoryRepository} (hkeys : ScanKeys tables.scans) :
    ((claimNextJob rt principal now auditedAt).run tables).1 =
        dispatchAnswer rt principal now (readRows principal tables) ∧
      ∀ scanId, ((claimNextJob rt principal now auditedAt).run tables).2.scans.get? scanId =
        match dispatchAnswer rt principal now (readRows principal tables) with
        | .ok _ => (tables.scans.get? scanId).map
            (polledRecord rt principal now (readRows principal tables))
        | .error _ => tables.scans.get? scanId := by
  have hsub : (readRows principal tables).Sublist (openScans principal tables) :=
    List.take_sublist _ _
  have hmem : ∀ record ∈ readRows principal tables,
      record ∈ tables.scans.values ∧ isDispatchCandidate principal record :=
    fun record h => mem_openScans.mp (hsub.subset h)
  have hstored : ∀ x ∈ readRows principal tables, tables.scans.get? x.scanId = some x := by
    intro x hx
    obtain ⟨k, hk⟩ := Dict.mem_values_iff.mp (hmem x hx).1
    rwa [hkeys k x hk]
  have hnodup : ((readRows principal tables).map ScanRecord.scanId).Nodup := by
    refine (hsub.map _).nodup ((((List.perm_insertionSort _ _).map _).nodup_iff).mpr ?_)
    exact (List.filter_sublist.map _).nodup (Dict.nodup_map_values hkeys)
  have hrows : (openScans principal (touchEndpoint principal now tables)).take candidateLimit =
      readRows principal tables := by
    rw [openScans, touchEndpoint_scans]
    rfl
  have hbody : (do
      .modify (touchEndpoint principal now)
      let rows ← .reading fun tables => .ok ((openScans principal tables).take candidateLimit)
      rowLoop rt principal now auditedAt rows : RepositoryMethod (Option ScanRecord)).run tables =
        (dispatchLoop rt principal now auditedAt (readRows principal tables)).run
          (touchEndpoint principal now tables) := by
    rw [Method.run_modify_bind, Method.run_reading_bind, hrows]
    dsimp only
    rw [rowLoop_eq fun r hr => (hmem r hr).2]
  have hanswer := @run_dispatchLoop_fst rt principal now auditedAt (readRows principal tables)
    (touchEndpoint principal now tables)
  obtain ⟨⟨events, heffect⟩, -⟩ := @dispatchLoop_effect rt principal now auditedAt
    (readRows principal tables) (touchEndpoint principal now tables) _ _ (Prod.mk.eta).symm
  unfold claimNextJob Method.transaction
  dsimp only
  rw [hbody]
  generalize (dispatchLoop rt principal now auditedAt (readRows principal tables)).run
    (touchEndpoint principal now tables) = outcome at hanswer heffect
  obtain ⟨result, after⟩ := outcome
  simp only at hanswer heffect
  subst hanswer heffect
  cases dispatchAnswer rt principal now (readRows principal tables) with
  | error e => exact ⟨rfl, fun _ => rfl⟩
  | ok answer =>
    refine ⟨rfl, fun scanId => ?_⟩
    rw [touchEndpoint_scans]
    exact get?_polledScans_of_nodup hkeys hstored hnodup scanId

/-! ## When they agree -/

/-- An eligible record is free of any lease. -/
theorem leaseEligibility_of_eligible {record : ScanRecord} {endpointId : String}
    (h : jobDispatchEligibility rt record endpointId now = .eligible) :
    leaseEligibility record now = .eligible := by
  unfold jobDispatchEligibility at h
  split at h
  · cases h
  · split at h
    · cases h
    · split at h
      · cases h
      · split at h
        · next eligibility hnotBefore =>
          subst h
          unfold notBeforeEligibility at hnotBefore
          split at hnotBefore
          · cases hnotBefore
          · split at hnotBefore
            · cases hnotBefore
            · split at hnotBefore <;> cases hnotBefore
        · exact h

/-- A job that was dispatched before has a timeout. -/
theorem queued_of_no_timeout {record : ScanRecord} {e : RepositoryError}
    (hout : handsOut rt principal now record = true)
    (htimeout : requireKey record.jobDocument "timeout_seconds" = .error e) :
    record.state = .queued := by
  unfold handsOut at hout
  simp only [Bool.and_eq_true, decide_eq_true_eq] at hout
  obtain ⟨hcandidate, heligible⟩ := hout
  by_contra hstate
  have hnone : record.jobDocument.get "timeout_seconds" = .null := by
    unfold requireKey at htimeout
    unfold JsonObject.get
    split at htimeout
    · cases htimeout
    · next hlookup => rw [hlookup]; rfl
  have hlease := leaseEligibility_of_eligible heligible
  unfold leaseEligibility at hlease
  rw [if_neg hstate, hnone] at hlease
  split at hlease
  · cases hlease
  · cases hlease

section

variable {scans : List ScanRecord}

theorem polledRecord_of_found {record : ScanRecord}
    (h : (scans.take candidateLimit).find? (handsOut rt principal now) = some record) :
    polledRecord rt principal now scans =
      polledRecord rt principal now (scans.take candidateLimit) := by
  have hfind := (List.take_prefix candidateLimit scans).find?_eq_some h
  have hvisited : visited rt principal now scans =
      visited rt principal now (scans.take candidateLimit) := by
    unfold visited
    conv_lhs => rw [← List.take_append_drop candidateLimit scans]
    rw [List.takeWhile_append, if_neg]
    intro hlength
    have hall := List.takeWhile_eq_self_iff.mp ((List.takeWhile_prefix _).eq_of_length hlength)
    have hout := hall record (List.mem_of_find?_eq_some h)
    rw [List.find?_some h] at hout
    cases hout
  funext r
  unfold polledRecord
  rw [hfind, h, hvisited]

/-- Nothing is handed out: every row is visited. -/
theorem polledRecord_of_none (h : scans.find? (handsOut rt principal now) = none)
    (record : ScanRecord) : polledRecord rt principal now scans record =
      if record ∈ scans.filter (expires rt principal now) then expiredRecord now record
      else record := by
  have hvisited : visited rt principal now scans = scans := by
    refine List.takeWhile_eq_self_iff.mpr fun r hr => ?_
    simpa using List.find?_eq_none.mp h r hr
  unfold polledRecord
  rw [h, hvisited, if_neg (by simp)]

end

/-- The scans that a poll reads, of repositories that hold the same. -/
theorem readRows_eq {repo tables : InMemoryRepository} (hkeys : ScanKeys repo.scans)
    (hsame : SameScans repo tables) (hdistinct : DistinctCreation repo) :
    readRows principal tables = (openScans principal repo).take candidateLimit := by
  rw [readRows, openScans_eq hkeys hsame hdistinct, openScans_eq hkeys (fun _ => rfl) hdistinct]

theorem nodup_openScans {repo : InMemoryRepository} (hkeys : ScanKeys repo.scans) :
    (openScans principal repo).Nodup :=
  (List.perm_insertionSort _ _).nodup_iff.mpr ((nodup_values hkeys).filter _)

theorem open_of_candidate {record : ScanRecord} (h : isDispatchCandidate principal record) :
    record.state ≠ .expired := by
  obtain hs | hs := h.2.2 <;> rw [hs] <;> decide

section

variable {scans : List ScanRecord} {before after after' : Dict String ScanRecord}

/-- Nothing is handed out within the limit. -/
theorem agrees_of_none (hstored : ∀ record ∈ scans, before.get? record.scanId = some record)
    (hopen : ∀ record ∈ scans, isDispatchCandidate principal record) (hnodup : scans.Nodup)
    (hafter : ∀ scanId, after.get? scanId =
      (before.get? scanId).map (polledRecord rt principal now scans))
    (hafter' : ∀ scanId, after'.get? scanId =
      (before.get? scanId).map (polledRecord rt principal now (scans.take candidateLimit)))
    (h : (scans.take candidateLimit).find? (handsOut rt principal now) = none) :
    Agrees (dispatchAnswer rt principal now scans)
        (dispatchAnswer rt principal now (scans.take candidateLimit)) after after' ↔
      ∀ record ∈ scans.drop candidateLimit,
        handsOut rt principal now record = false ∧ expires rt principal now record = false := by
  have hanswer : dispatchAnswer rt principal now (scans.take candidateLimit) = .ok none := by
    rw [dispatchAnswer_eq, h]
  rw [hanswer]
  have hsplit := List.take_append_drop candidateLimit scans
  constructor
  · intro hagree record hrecord
    have hmem : record ∈ scans := List.mem_of_mem_drop hrecord
    have hnone : scans.find? (handsOut rt principal now) = none := by
      have hfirst := hagree.answer
      rw [dispatchAnswer_eq] at hfirst
      split at hfirst
      · assumption
      · next found hfound =>
        cases htimeout : requireKey found.jobDocument "timeout_seconds" <;>
          rw [htimeout] at hfirst <;> cases hfirst
    refine ⟨by simpa using List.find?_eq_none.mp hnone record hmem, ?_⟩
    by_contra hexpires
    rw [Bool.not_eq_false] at hexpires
    -- The row is behind the limit, so that the tables keep it as it was.
    have hbehind : record ∉ scans.take candidateLimit := by
      rw [← hsplit, List.nodup_append'] at hnodup
      exact fun hread => hnodup.2.2 hread hrecord
    have hstate := hagree.states record.scanId
    rw [hafter, hafter', hstored record hmem] at hstate
    simp only [Option.map_some] at hstate
    rw [polledRecord_of_none hnone, polledRecord_of_none h, if_pos (List.mem_filter.mpr ⟨hmem, hexpires⟩),
      if_neg (fun hin => hbehind (List.mem_filter.mp hin).1)] at hstate
    exact open_of_candidate (hopen record hmem) (Option.some.inj hstate).symm
  · intro hbehind
    have hnone : scans.find? (handsOut rt principal now) = none := by
      rw [← hsplit, List.find?_append, h, Option.none_or, List.find?_eq_none]
      intro record hrecord
      simp [(hbehind record hrecord).1]
    have hexpires : scans.filter (expires rt principal now) =
        (scans.take candidateLimit).filter (expires rt principal now) := by
      have hnothing : (scans.drop candidateLimit).filter (expires rt principal now) = [] := by
        refine List.filter_eq_nil_iff.mpr fun record hrecord => ?_
        simp [(hbehind record hrecord).2]
      conv_lhs => rw [← hsplit, List.filter_append, hnothing, List.append_nil]
    refine ⟨by rw [dispatchAnswer_eq, hnone], fun scanId => ?_⟩
    have hpolled : polledRecord rt principal now scans =
        polledRecord rt principal now (scans.take candidateLimit) := by
      funext record
      rw [polledRecord_of_none hnone, polledRecord_of_none h, hexpires]
    rw [hafter, hafter', hpolled]

/-- A job is handed out within the limit. -/
theorem agrees_of_found {record : ScanRecord}
    (hstored : ∀ record ∈ scans, before.get? record.scanId = some record)
    (hafter : ∀ scanId, after.get? scanId =
      (before.get? scanId).map (polledRecord rt principal now scans))
    (hafter' : ∀ scanId, after'.get? scanId =
      match dispatchAnswer rt principal now (scans.take candidateLimit) with
      | .ok _ => (before.get? scanId).map
          (polledRecord rt principal now (scans.take candidateLimit))
      | .error _ => before.get? scanId)
    (h : (scans.take candidateLimit).find? (handsOut rt principal now) = some record) :
    Agrees (dispatchAnswer rt principal now scans)
        (dispatchAnswer rt principal now (scans.take candidateLimit)) after after' ↔
      ∃ timeout, requireKey record.jobDocument "timeout_seconds" = .ok timeout := by
  have hfind := (List.take_prefix candidateLimit scans).find?_eq_some h
  have hmem : record ∈ scans := List.mem_of_find?_eq_some hfind
  have hanswer : dispatchAnswer rt principal now scans =
      dispatchAnswer rt principal now (scans.take candidateLimit) := by
    rw [dispatchAnswer_eq, dispatchAnswer_eq, h, hfind]
  cases htimeout : requireKey record.jobDocument "timeout_seconds" with
  | ok timeout =>
    refine iff_of_true ⟨hanswer, fun scanId => ?_⟩ ⟨timeout, rfl⟩
    have hok : dispatchAnswer rt principal now (scans.take candidateLimit) =
        .ok (some (dispatchedRecord now record)) := by
      rw [dispatchAnswer_eq, h]
      simp only [htimeout]
      rfl
    rw [hafter, hafter', hok, polledRecord_of_found h]
  | error e =>
    refine iff_of_false ?_ (fun ⟨timeout, hok⟩ => nomatch hok)
    intro hagree
    -- The tables take the dispatch back, the repository in memory does not.
    have herror : dispatchAnswer rt principal now (scans.take candidateLimit) = .error e := by
      rw [dispatchAnswer_eq, h]
      simp only [htimeout]
      rfl
    have hstate := hagree.states record.scanId
    rw [hafter, hafter', herror, hstored record hmem] at hstate
    simp only [Option.map_some, polledRecord, hfind, if_true] at hstate
    have hqueued := queued_of_no_timeout (List.find?_some h) htimeout
    rw [hqueued] at hstate
    cases hstate

end

/--
Both repositories answer a poll alike and leave the same states exactly when a job that can be
handed out, and has its timeout, is among the 256 oldest open scans, or none is and behind them
no scan is to be handed out or to expire.
-/
theorem polls_agree_iff {repo tables : InMemoryRepository} (hkeys : ScanKeys repo.scans)
    (hsame : SameScans repo tables) (hdistinct : DistinctCreation repo) :
    PollsAgree rt principal now auditedAt repo tables ↔
      WithinCandidates rt principal now (openScans principal repo) := by
  have hkeys' : ScanKeys tables.scans := fun k record h => hkeys k record (by rw [← hsame, h])
  obtain ⟨hanswer, hscans⟩ := @run_inMemory rt principal now auditedAt repo hkeys
  obtain ⟨hanswer', hscans'⟩ := @run_rows rt principal now auditedAt tables hkeys'
  rw [readRows_eq hkeys hsame hdistinct] at hanswer' hscans'
  rw [← openScans_eq hkeys (fun _ => rfl) hdistinct] at hanswer hscans
  have hstored : ∀ record ∈ openScans principal repo, repo.scans.get? record.scanId = some record := by
    intro record h
    obtain ⟨k, hk⟩ := Dict.mem_values_iff.mp (mem_openScans.mp h).1
    rwa [hkeys k record hk]
  have hopen : ∀ record ∈ openScans principal repo, isDispatchCandidate principal record :=
    fun record h => (mem_openScans.mp h).2
  simp only [hsame _] at hscans'
  rw [PollsAgree, hanswer, hanswer', WithinCandidates]
  cases hfind : ((openScans principal repo).take candidateLimit).find? (handsOut rt principal now) with
  | some record => exact agrees_of_found hstored hscans hscans' hfind
  | none =>
    refine agrees_of_none hstored hopen (nodup_openScans hkeys) hscans ?_ hfind
    intro scanId
    rw [hscans', dispatchAnswer_eq, hfind]

end

/-! ## A job behind the limit -/

/-- Before its time within the authorization window. -/
def notYetJob : JsonObject := ("not_before", .str "2023-11-14T22:33:20+00:00") :: halfHourJob

def pollTime : Timestamp := seconds 1700000060

/-- The scan that was created `n` microseconds after the epoch. -/
def queuedScan (job : JsonObject) (n : Nat) : ScanRecord where
  tenantId := "tenant"
  endpointId := "endpoint-1"
  scanId := String.ofList (List.replicate n 'x')
  jobId := String.ofList (List.replicate n 'x')
  state := .queued
  jobDocument := job
  createdAt := n
  updatedAt := n

/-- Jobs that wait, and behind them one that can be handed out. -/
def queuedScans (waiting : Nat) : List ScanRecord :=
  (List.range waiting).map (queuedScan notYetJob) ++ [queuedScan halfHourJob waiting]

theorem createdAt_queuedScans (waiting : Nat) :
    (queuedScans waiting).map ScanRecord.createdAt =
      (List.range (waiting + 1)).map (fun n : Nat => (n : Int)) := by
  rw [queuedScans, List.range_succ, List.map_append, List.map_append, List.map_map]
  rfl

theorem exists_queuedScan {waiting : Nat} {record : ScanRecord}
    (h : record ∈ queuedScans waiting) : ∃ job n, record = queuedScan job n := by
  rw [queuedScans, List.mem_append, List.mem_map, List.mem_singleton] at h
  obtain ⟨n, -, rfl⟩ | rfl := h
  · exact ⟨_, n, rfl⟩
  · exact ⟨_, _, rfl⟩

theorem queuedScan_scanId_inj {job job' : JsonObject} {n n' : Nat}
    (h : (queuedScan job n).scanId = (queuedScan job' n').scanId) : n = n' := by
  have hlength := congrArg List.length (String.ofList_injective h)
  simpa using hlength

theorem nodup_queuedScans (waiting : Nat) :
    (((queuedScans waiting).map fun record => (record.scanId, record)).map Prod.fst).Nodup := by
  have hcreated : ((queuedScans waiting).map ScanRecord.createdAt).Nodup := by
    rw [createdAt_queuedScans]
    exact List.nodup_range.map fun _ _ h => Int.ofNat.inj h
  rw [List.map_map]
  refine List.Nodup.map_on ?_ (List.Nodup.of_map _ hcreated)
  intro a ha b hb h
  obtain ⟨job, n, rfl⟩ := exists_queuedScan ha
  obtain ⟨job', n', rfl⟩ := exists_queuedScan hb
  obtain rfl := @queuedScan_scanId_inj job job' n n' h
  exact List.inj_on_of_nodup_map hcreated ha hb rfl

/-- A repository that holds only these jobs. -/
def queueOf (waiting : Nat) : InMemoryRepository where
  scans := ⟨(queuedScans waiting).map fun record => (record.scanId, record),
    nodup_queuedScans waiting⟩

theorem values_queueOf (waiting : Nat) : (queueOf waiting).scans.values = queuedScans waiting := by
  rw [queueOf, Dict.values, List.map_map]
  exact List.map_id _

theorem mem_queueOf {waiting : Nat} {scanId : String} {record : ScanRecord}
    (h : (queueOf waiting).scans.get? scanId = some record) :
    record ∈ queuedScans waiting ∧ record.scanId = scanId := by
  have hmem := Dict.mem_entries_iff.mpr h
  rw [queueOf, List.mem_map] at hmem
  obtain ⟨record', hrecord, heq⟩ := hmem
  cases heq
  exact ⟨hrecord, rfl⟩

theorem scanKeys_queueOf (waiting : Nat) : ScanKeys (queueOf waiting).scans :=
  fun _ _ h => (mem_queueOf h).2

theorem distinctCreation_queueOf (waiting : Nat) : DistinctCreation (queueOf waiting) := by
  intro scanId scanId' record record' h h' hcreated
  obtain ⟨hmem, rfl⟩ := mem_queueOf h
  obtain ⟨hmem', rfl⟩ := mem_queueOf h'
  obtain ⟨job, n, rfl⟩ := exists_queuedScan hmem
  obtain ⟨job', n', rfl⟩ := exists_queuedScan hmem'
  obtain rfl : n = n' := Int.ofNat.inj hcreated
  rfl

theorem openScans_queueOf (waiting : Nat) :
    openScans sampleDevice (queueOf waiting) = queuedScans waiting := by
  have hopen : (queuedScans waiting).filter (fun record =>
      decide (isDispatchCandidate sampleDevice record)) = queuedScans waiting := by
    refine List.filter_eq_self.mpr fun record h => decide_eq_true ?_
    obtain ⟨job, n, rfl⟩ := exists_queuedScan h
    exact ⟨rfl, rfl, Or.inl rfl⟩
  have hsorted : (queuedScans waiting).Pairwise byCreation := by
    have horder : ((queuedScans waiting).map ScanRecord.createdAt).Pairwise (· ≤ ·) := by
      rw [createdAt_queuedScans, List.pairwise_map]
      exact List.pairwise_le_range.imp fun h => Int.ofNat_le.mpr h
    rwa [List.pairwise_map] at horder
  rw [openScans, values_queueOf, hopen, hsorted.insertionSort_eq]

theorem handsOut_queuedScan (job : JsonObject) (n : Nat) :
    handsOut Runtime.sample sampleDevice pollTime (queuedScan job n) =
      handsOut Runtime.sample sampleDevice pollTime (queuedScan job 0) := rfl

theorem notYet_waits (n : Nat) :
    handsOut Runtime.sample sampleDevice pollTime (queuedScan notYetJob n) = false := by
  rw [handsOut_queuedScan]
  decide +kernel

theorem halfHour_handedOut (n : Nat) :
    handsOut Runtime.sample sampleDevice pollTime (queuedScan halfHourJob n) = true := by
  rw [handsOut_queuedScan]
  decide +kernel

theorem waiting_not_handedOut (waiting : Nat) :
    ((List.range waiting).map (queuedScan notYetJob)).find?
      (handsOut Runtime.sample sampleDevice pollTime) = none := by
  refine List.find?_eq_none.mpr fun record h => ?_
  obtain ⟨n, -, rfl⟩ := List.mem_map.mp h
  simp [notYet_waits]

/-- With at most 256 jobs before it, the job is handed out. -/
theorem polls_agree_two_jobs :
    PollsAgree Runtime.sample sampleDevice pollTime pollTime (queueOf 1) (queueOf 1) := by
  refine (polls_agree_iff (scanKeys_queueOf 1) (fun _ => rfl) (distinctCreation_queueOf 1)).mpr ?_
  have hread : (queuedScans 1).take candidateLimit =
      (List.range 1).map (queuedScan notYetJob) ++ [queuedScan halfHourJob 1] := rfl
  rw [WithinCandidates, openScans_queueOf, hread, List.find?_append, waiting_not_handedOut,
    Option.none_or, List.find?_cons_of_pos (halfHour_handedOut 1)]
  exact ⟨.int 900, rfl⟩

/-- Behind 256 jobs that wait, the tables do not find the one that can be handed out. -/
theorem polls_disagree_behind_limit :
    ¬ ∀ rt principal now auditedAt repo tables, ScanKeys repo.scans → SameScans repo tables →
      DistinctCreation repo → PollsAgree rt principal now auditedAt repo tables := by
  intro h
  have hagree := (h Runtime.sample sampleDevice pollTime pollTime (queueOf candidateLimit)
    (queueOf candidateLimit) (scanKeys_queueOf _) (fun _ => rfl)
    (distinctCreation_queueOf _)).answer
  have hlength : ((List.range candidateLimit).map (queuedScan notYetJob)).length =
      candidateLimit := by simp
  have hread : (queuedScans candidateLimit).take candidateLimit =
      (List.range candidateLimit).map (queuedScan notYetJob) := by
    rw [queuedScans, List.take_left' hlength]
  have hkeys := scanKeys_queueOf candidateLimit
  rw [(run_inMemory hkeys).1, (run_rows hkeys).1, ← openScans_eq hkeys (fun _ => rfl)
    (distinctCreation_queueOf _), readRows, openScans_queueOf, hread, dispatchAnswer_eq,
    dispatchAnswer_eq, waiting_not_handedOut, queuedScans, List.find?_append,
    waiting_not_handedOut, Option.none_or,
    List.find?_cons_of_pos (halfHour_handedOut candidateLimit)] at hagree
  cases hagree

end Postgres

end OsScanner.Cloud
