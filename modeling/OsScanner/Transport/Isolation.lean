import Mathlib
import OsScanner.Transport.Recording

/-!
# Isolation of the uploads of a run

A run of the worker returns exactly when each outcome can be recorded. A run that returns has let
go of every upload that it claimed, has counted all of them except deliveries under a lost lease,
and stops before its limit only when no upload can be claimed.
-/

namespace OsScanner.Transport

open Lib Lib.Check Storage

variable {rt : Runtime} {worker : UploadWorker} {db db' after : Database}

/-! ## The statements -/

def Delivery.token (delivery : Delivery) (id : Nat) : String := (delivery.leaseToken id).text

/-- No other claim of an upload draws the token of an earlier one. -/
def Fresh (world : Nat → Delivery) : Prop :=
  ∀ k id, (∀ call ∈ (world k).meanwhile ++ (world k).afterRefusal,
      ¬ call.Draws id ((world k).token id)) ∧
    ∀ j, k < j → (world j).token id ≠ (world k).token id ∧
      ∀ call ∈ (world j).before ++ (world j).meanwhile ++ (world j).afterRefusal,
        ¬ call.Draws id ((world k).token id)

/-- What the run of a worker owes to the uploads. -/
structure Isolated (world : Nat → Delivery) (limit : Nat) (run : Run) : Prop where
  /-- The run returns, with every claimed upload counted as far as no lease was lost. -/
  returned : ∃ stats, run.result = .ok stats ∧ stats.claimed = run.handled.length ∧
    ((∀ h ∈ run.handled, h.leased ≠ none) →
      stats.claimed = stats.succeeded + stats.retried + stats.dead)
  /-- What was claimed is not left in flight, unless another claimant owns it. -/
  released : ∀ h ∈ run.handled,
    leasedUpload h.after h.upload.uploadId h.upload.leaseToken = none ∧
      (Fresh world → leasedUpload run.db h.upload.uploadId h.upload.leaseToken = none)
  /-- A failed upload keeps no other upload from being attempted. -/
  attempted : run.handled.length = limit ∨ ∀ id row, run.db.uploads.get? id = some row →
    claimable run.db.uploads (world run.handled.length).claimedAt row = false

/-! ## The loop -/

section

variable {lease : ℚ} {world : Nat → Delivery}

/-- The ways in which the loop goes on, with what the calls of each pass returned. -/
inductive Drains (rt : Runtime) (worker : UploadWorker) (lease : ℚ) (world : Nat → Delivery) :
    Nat → UploadRunStats → Database → Run → Prop
  | limit (stats : UploadRunStats) (db : Database) :
    Drains rt worker lease world 0 stats db ⟨.ok stats, db, []⟩
  | finished {remaining : Nat} {stats : UploadRunStats} {db db' : Database}
    (hclaim : claimUploads rt 1 lease (world stats.claimed).claimedAt (world stats.claimed).token
      (performed rt (world stats.claimed).before db) = .ok ([], db')) :
    Drains rt worker lease world (remaining + 1) stats db ⟨.ok stats, db', []⟩
  | raised {remaining : Nat} {stats : UploadRunStats} {db db' atOutcome after : Database}
    {upload : QueuedUpload} {rest : List QueuedUpload} {e : StorageError}
    (hclaim : claimUploads rt 1 lease (world stats.claimed).claimedAt (world stats.claimed).token
      (performed rt (world stats.claimed).before db) = .ok (upload :: rest, db'))
    (houtcome : atOutcome = performed rt (world stats.claimed).meanwhile db')
    (hsettle : worker.settle rt upload (world stats.claimed) atOutcome = (.error e, after)) :
    Drains rt worker lease world (remaining + 1) stats db
      ⟨.error e, after, [⟨upload, world stats.claimed, atOutcome, after⟩]⟩
  | settled {remaining : Nat} {stats : UploadRunStats} {db db' atOutcome after : Database}
    {upload : QueuedUpload} {rest : List QueuedUpload} {counted : Counted} {run : Run}
    (hclaim : claimUploads rt 1 lease (world stats.claimed).claimedAt (world stats.claimed).token
      (performed rt (world stats.claimed).before db) = .ok (upload :: rest, db'))
    (houtcome : atOutcome = performed rt (world stats.claimed).meanwhile db')
    (hsettle : worker.settle rt upload (world stats.claimed) atOutcome = (.ok counted, after))
    (hrest : Drains rt worker lease world remaining (stats.count counted) after run) :
    Drains rt worker lease world (remaining + 1) stats db
      { run with handled := ⟨upload, world stats.claimed, atOutcome, after⟩ :: run.handled }

theorem deliverable_claim {current : ℚ} {leaseToken : Nat → String} {leases : List QueuedUpload}
    (hd : Deliverable db.uploads)
    (h : claimUploads rt 1 lease current leaseToken db = .ok (leases, db')) :
    Deliverable db'.uploads := by
  have hperform : db' = QueueCall.perform rt (.claim 1 lease current leaseToken) db := by
    show db' = committed db (claimUploads rt 1 lease current leaseToken db)
    rw [h]
    rfl
  rw [hperform]
  exact deliverable_perform hd _

theorem SettledBy.deliverable {delivery : Delivery} (h : SettledBy rt delivery db after)
    (hd : Deliverable db.uploads) : Deliverable after.uploads := by
  obtain ⟨calls, rfl, -⟩ := h
  exact deliverable_performed hd calls

theorem drains (hlease : 1 ≤ lease ∧ lease ≤ 86400) (remaining : Nat) (stats : UploadRunStats)
    (db : Database) (hd : Deliverable db.uploads) :
    Drains rt worker lease world remaining stats db
      (worker.drain rt lease world remaining stats db) := by
  induction remaining generalizing stats db with
  | zero => exact .limit stats db
  | succ remaining ih =>
    have hd₁ : Deliverable (performed rt (world stats.claimed).before db).uploads :=
      deliverable_performed hd _
    obtain ⟨leases, db₂, hclaim, -⟩ := @claimUploads_ok rt _ hd₁.linked lease
      (world stats.claimed).claimedAt hlease (world stats.claimed).token
    unfold UploadWorker.drain
    dsimp only
    rw [show (fun id => ((world stats.claimed).leaseToken id).text) =
      (world stats.claimed).token from rfl, hclaim]
    cases leases with
    | nil => exact .finished hclaim
    | cons upload rest =>
      dsimp only
      generalize hsettle : worker.settle rt upload (world stats.claimed)
        (performed rt (world stats.claimed).meanwhile db₂) = settled
      obtain ⟨counted | counted, after⟩ := settled
      · exact .raised hclaim rfl hsettle
      · refine .settled hclaim rfl hsettle (ih _ _ ?_)
        have hby : SettledBy rt (world stats.claimed)
            (performed rt (world stats.claimed).meanwhile db₂)
            (worker.settle rt upload (world stats.claimed)
              (performed rt (world stats.claimed).meanwhile db₂)).2 := settledBy_settle
        rw [hsettle] at hby
        exact hby.deliverable (deliverable_performed (deliverable_claim hd₁ hclaim) _)

theorem claim_spec (hd : Deliverable db.uploads) (hlease : 1 ≤ lease ∧ lease ≤ 86400)
    {current : ℚ} {leaseToken : Nat → String} {leases : List QueuedUpload}
    (h : claimUploads rt 1 lease current leaseToken db = .ok (leases, db')) :
    (∀ upload ∈ leases, upload.leaseToken = leaseToken upload.uploadId) ∧
      (leases = [] → ∀ id row, db'.uploads.get? id = some row →
        claimable db'.uploads current row = false) := by
  obtain ⟨leases', db'', hclaim, htokens, hempty⟩ :=
    @claimUploads_ok rt _ hd.linked lease current hlease leaseToken
  rw [h, Except.ok.injEq, Prod.mk.injEq] at hclaim
  obtain ⟨rfl, rfl⟩ := hclaim
  exact ⟨htokens, hempty⟩

/-- What a pass of the loop starts its request with. -/
theorem pass_spec (hd : Deliverable db.uploads) (hlease : 1 ≤ lease ∧ lease ≤ 86400)
    {delivery : Delivery} {atOutcome : Database} {upload : QueuedUpload} {rest : List QueuedUpload}
    (hclaim : claimUploads rt 1 lease delivery.claimedAt delivery.token
      (performed rt delivery.before db) = .ok (upload :: rest, db'))
    (houtcome : atOutcome = performed rt delivery.meanwhile db') :
    Deliverable atOutcome.uploads ∧
      upload.leaseToken = (delivery.leaseToken upload.uploadId).text := by
  have hd₁ : Deliverable (performed rt delivery.before db).uploads := deliverable_performed hd _
  refine ⟨?_, (claim_spec hd₁ hlease hclaim).1 upload List.mem_cons_self⟩
  rw [houtcome]
  exact deliverable_performed (deliverable_claim hd₁ hclaim) _

theorem deliverable_settle {delivery : Delivery} {upload : QueuedUpload}
    {result : Except StorageError Counted} (hd : Deliverable db.uploads)
    (h : worker.settle rt upload delivery db = (result, after)) : Deliverable after.uploads := by
  have hby : SettledBy rt delivery db (worker.settle rt upload delivery db).2 := settledBy_settle
  rw [h] at hby
  exact hby.deliverable hd

/-- The run returns exactly when every outcome can be recorded. -/
theorem Drains.returned_iff {remaining : Nat} {stats : UploadRunStats} {run : Run}
    (h : Drains rt worker lease world remaining stats db run)
    (hlease : 1 ≤ lease ∧ lease ≤ 86400) (hd : Deliverable db.uploads) :
    (∃ final, run.result = .ok final) ↔ ∀ h ∈ run.handled, h.Recordable rt := by
  induction h with
  | limit stats db => exact iff_of_true ⟨stats, rfl⟩ fun _ h => absurd h List.not_mem_nil
  | finished _ => exact iff_of_true ⟨_, rfl⟩ fun _ h => absurd h List.not_mem_nil
  | raised hclaim houtcome hsettle =>
    obtain ⟨hd', htoken⟩ := pass_spec hd hlease hclaim houtcome
    refine iff_of_false ?_ fun hall => ?_
    · rintro ⟨final, hfinal⟩
      cases hfinal
    · rcases settle_cases hd' htoken _ with ⟨-, counted, after, hok, -⟩ | ⟨hnot, -⟩
      · rw [hsettle] at hok
        cases hok
      · exact hnot (hall _ List.mem_cons_self)
  | settled hclaim houtcome hsettle hrest ih =>
    obtain ⟨hd', htoken⟩ := pass_spec hd hlease hclaim houtcome
    rcases settle_cases hd' htoken _ with ⟨hrecordable, -⟩ | ⟨-, e, after, herror⟩
    · rw [List.forall_mem_cons]
      rw [ih (deliverable_settle hd' hsettle)]
      exact ⟨fun hall => ⟨hrecordable, hall⟩, fun hall => hall.2⟩
    · rw [hsettle] at herror
      cases herror

theorem UploadRunStats.claimed_count (stats : UploadRunStats) (counted : Counted) :
    (stats.count counted).claimed = stats.claimed + 1 := by
  cases counted <;> rfl

/-- What is counted besides the claim. -/
theorem UploadRunStats.sum_count {stats : UploadRunStats} {counted : Counted}
    (h : counted ≠ .nothing) :
    (stats.count counted).succeeded + (stats.count counted).retried + (stats.count counted).dead =
      stats.succeeded + stats.retried + stats.dead + 1 := by
  cases counted with
  | succeeded => simp only [UploadRunStats.count]; omega
  | retried => simp only [UploadRunStats.count]; omega
  | dead => simp only [UploadRunStats.count]; omega
  | nothing => exact absurd rfl h

theorem Drains.accounted {remaining : Nat} {stats : UploadRunStats} {run : Run}
    (h : Drains rt worker lease world remaining stats db run)
    (hlease : 1 ≤ lease ∧ lease ≤ 86400) (hd : Deliverable db.uploads) {final : UploadRunStats}
    (hfinal : run.result = .ok final) :
    final.claimed = stats.claimed + run.handled.length ∧
      ((∀ h ∈ run.handled, h.leased ≠ none) →
        final.succeeded + final.retried + final.dead =
          stats.succeeded + stats.retried + stats.dead + run.handled.length) := by
  induction h with
  | limit stats db =>
    cases hfinal
    exact ⟨rfl, fun _ => rfl⟩
  | finished _ =>
    cases hfinal
    exact ⟨rfl, fun _ => rfl⟩
  | raised _ _ _ => cases hfinal
  | @settled remaining stats db db' atOutcome after upload rest counted run hclaim houtcome hsettle
      hrest ih =>
    obtain ⟨hd', htoken⟩ := pass_spec hd hlease hclaim houtcome
    obtain ⟨hclaimed, hsum⟩ := ih (deliverable_settle hd' hsettle) hfinal
    rw [UploadRunStats.claimed_count] at hclaimed
    refine ⟨by simp only [List.length_cons]; omega, fun hleased => ?_⟩
    rw [List.forall_mem_cons] at hleased
    have hrest := hsum hleased.2
    rcases settle_cases hd' htoken after with ⟨-, counted', after', hok, hcounted, -⟩ | ⟨-, e, _, he⟩
    · rw [hsettle, Prod.mk.injEq, Except.ok.injEq] at hok
      obtain ⟨rfl, -⟩ := hok
      rw [UploadRunStats.sum_count (hcounted hleased.1)] at hrest
      simp only [List.length_cons]
      omega
    · rw [hsettle] at he
      cases he

/-- Below the limit the run ends when nothing can be claimed. -/
theorem Drains.attempted {remaining : Nat} {stats : UploadRunStats} {run : Run}
    (h : Drains rt worker lease world remaining stats db run)
    (hlease : 1 ≤ lease ∧ lease ≤ 86400) (hd : Deliverable db.uploads) {final : UploadRunStats}
    (hfinal : run.result = .ok final) :
    run.handled.length = remaining ∨ ∀ id row, run.db.uploads.get? id = some row →
      claimable run.db.uploads (world (stats.claimed + run.handled.length)).claimedAt row = false := by
  induction h with
  | limit stats db => exact .inl rfl
  | finished hclaim => exact .inr ((claim_spec (deliverable_performed hd _) hlease hclaim).2 rfl)
  | raised _ _ _ => cases hfinal
  | @settled remaining stats db db' atOutcome after upload rest counted run hclaim houtcome hsettle
      hrest ih =>
    obtain ⟨hd', -⟩ := pass_spec hd hlease hclaim houtcome
    rcases ih (deliverable_settle hd' hsettle) hfinal with hlimit | hnone
    · exact .inl (by rw [List.length_cons, hlimit])
    · refine .inr ?_
      rw [UploadRunStats.claimed_count, Nat.add_assoc, Nat.add_comm 1] at hnone
      rw [List.length_cons]
      exact hnone

/-! ## Leases that are over -/

theorem unleased_perform (hd : Deliverable db.uploads) {call : QueueCall} {id : Nat} {token : String}
    (h : leasedUpload db id token = none) (hdraws : ¬ call.Draws id token) :
    leasedUpload (call.perform rt db) id token = none := by
  rw [Option.eq_none_iff_forall_ne_some]
  intro row' hlease
  obtain ⟨hrow', hflight', htoken'⟩ := leasedUpload_eq_some hlease
  have hkept : LeasesKept call db.uploads (call.perform rt db).uploads :=
    leasesKept_perform hd.linked call
  rcases hkept id row' hrow' hflight' with ⟨row, hrow, hflight, htoken, -⟩ | ⟨token', htoken, hdraw, -⟩
  · have hheld : leasedUpload db id token = some row := by
      unfold leasedUpload
      rw [hrow, Option.filter_some, if_pos (by simp [hflight, htoken, htoken'])]
    rw [h] at hheld
    cases hheld
  · rw [htoken', Option.some.injEq] at htoken
    exact hdraws (htoken ▸ hdraw)

theorem unleased_performed (hd : Deliverable db.uploads) {calls : List QueueCall} {id : Nat}
    {token : String} (h : leasedUpload db id token = none)
    (hdraws : ∀ call ∈ calls, ¬ call.Draws id token) :
    leasedUpload (performed rt calls db) id token = none := by
  unfold performed
  induction calls generalizing db with
  | nil => exact h
  | cons call calls ih =>
    rw [List.forall_mem_cons] at hdraws
    exact ih (deliverable_perform hd call) (unleased_perform hd h hdraws.1) hdraws.2

/-- Nothing that happens around the upload draws the token for the row. -/
def Delivery.Avoids (delivery : Delivery) (id : Nat) (token : String) : Prop :=
  delivery.token id ≠ token ∧
    ∀ call ∈ delivery.before ++ delivery.meanwhile ++ delivery.afterRefusal, ¬ call.Draws id token

theorem unleased_settle {delivery : Delivery} {upload : QueuedUpload}
    {result : Except StorageError Counted} (hd : Deliverable db.uploads) {id : Nat} {token : String}
    (h : worker.settle rt upload delivery db = (result, after))
    (hnone : leasedUpload db id token = none)
    (hdraws : ∀ call ∈ delivery.afterRefusal, ¬ call.Draws id token) :
    leasedUpload after id token = none := by
  have hby : SettledBy rt delivery db (worker.settle rt upload delivery db).2 := settledBy_settle
  rw [h] at hby
  obtain ⟨calls, hafter, hcalls⟩ := hby
  dsimp only at hafter
  rw [hafter]
  refine unleased_performed hd hnone fun call hcall => ?_
  rcases hcalls call hcall with hrefusal | hown
  · exact hdraws call hrefusal
  · exact hown id token

/-- A pass that draws other tokens gives the lease out to nobody. -/
theorem unleased_pass (hd : Deliverable db.uploads) {delivery : Delivery} {leases : List QueuedUpload}
    {id : Nat} {token : String} (hnone : leasedUpload db id token = none)
    (hne : delivery.token id ≠ token) (hbefore : ∀ call ∈ delivery.before, ¬ call.Draws id token)
    (hclaim : claimUploads rt 1 lease delivery.claimedAt delivery.token
      (performed rt delivery.before db) = .ok (leases, db')) :
    leasedUpload db' id token = none := by
  have hperform : db' = QueueCall.perform rt (.claim 1 lease delivery.claimedAt delivery.token)
      (performed rt delivery.before db) := by
    show db' = committed _ (claimUploads rt 1 lease delivery.claimedAt delivery.token _)
    rw [hclaim]
    rfl
  rw [hperform]
  refine unleased_perform (deliverable_performed hd _) (unleased_performed hd hnone hbefore) ?_
  rintro ⟨_, _, _, _, hcall, hdraw⟩
  cases hcall
  exact hne hdraw

theorem Drains.unleased {remaining : Nat} {stats : UploadRunStats} {run : Run}
    (h : Drains rt worker lease world remaining stats db run)
    (hlease : 1 ≤ lease ∧ lease ≤ 86400) (hd : Deliverable db.uploads) {id : Nat} {token : String}
    (hnone : leasedUpload db id token = none)
    (havoids : ∀ j, stats.claimed ≤ j → (world j).Avoids id token) :
    leasedUpload run.db id token = none := by
  induction h with
  | limit stats db => exact hnone
  | @finished remaining stats db db' hclaim =>
    obtain ⟨hne, hcalls⟩ := havoids stats.claimed le_rfl
    exact unleased_pass hd hnone hne (fun call hc => hcalls call (by simp [hc])) hclaim
  | @raised remaining stats db db' atOutcome after upload rest e hclaim houtcome hsettle =>
    obtain ⟨hne, hcalls⟩ := havoids stats.claimed le_rfl
    have hclaimed := unleased_pass hd hnone hne (fun call hc => hcalls call (by simp [hc])) hclaim
    obtain ⟨hd', -⟩ := pass_spec hd hlease hclaim houtcome
    have hd₁ := deliverable_claim (deliverable_performed hd _) hclaim
    refine unleased_settle hd' hsettle ?_ fun call hc => hcalls call (by simp [hc])
    rw [houtcome]
    exact unleased_performed hd₁ hclaimed fun call hc => hcalls call (by simp [hc])
  | @settled remaining stats db db' atOutcome after upload rest counted run hclaim houtcome hsettle
      hrest ih =>
    obtain ⟨hne, hcalls⟩ := havoids stats.claimed le_rfl
    have hclaimed := unleased_pass hd hnone hne (fun call hc => hcalls call (by simp [hc])) hclaim
    obtain ⟨hd', -⟩ := pass_spec hd hlease hclaim houtcome
    have hd₁ := deliverable_claim (deliverable_performed hd _) hclaim
    refine ih (deliverable_settle hd' hsettle) ?_ fun j hj => havoids j ?_
    · refine unleased_settle hd' hsettle ?_ fun call hc => hcalls call (by simp [hc])
      rw [houtcome]
      exact unleased_performed hd₁ hclaimed fun call hc => hcalls call (by simp [hc])
    · rw [UploadRunStats.claimed_count] at hj
      omega

/-- What a returning run has claimed it holds no more. -/
theorem Drains.released {remaining : Nat} {stats : UploadRunStats} {run : Run}
    (h : Drains rt worker lease world remaining stats db run)
    (hlease : 1 ≤ lease ∧ lease ≤ 86400) (hd : Deliverable db.uploads) {final : UploadRunStats}
    (hfinal : run.result = .ok final) : ∀ h ∈ run.handled,
      leasedUpload h.after h.upload.uploadId h.upload.leaseToken = none ∧
        (Fresh world → leasedUpload run.db h.upload.uploadId h.upload.leaseToken = none) := by
  induction h with
  | limit stats db => exact fun _ h => absurd h List.not_mem_nil
  | finished _ => exact fun _ h => absurd h List.not_mem_nil
  | raised _ _ _ => cases hfinal
  | @settled remaining stats db db' atOutcome after upload rest counted run hclaim houtcome hsettle
      hrest ih =>
    obtain ⟨hd', htoken⟩ := pass_spec hd hlease hclaim houtcome
    have hdAfter := deliverable_settle hd' hsettle
    rw [List.forall_mem_cons]
    refine ⟨?_, ih hdAfter hfinal⟩
    have hnone : leasedUpload after upload.uploadId upload.leaseToken = none := by
      rcases settle_cases hd' htoken after with ⟨-, counted', after', hok, -, hnone⟩ | ⟨-, e, _, he⟩
      · rw [hsettle, Prod.mk.injEq] at hok
        rw [hok.2]
        exact hnone
      · rw [hsettle] at he
        cases he
    refine ⟨hnone, fun hfresh => hrest.unleased hlease hdAfter hnone fun j hj => ?_⟩
    rw [UploadRunStats.claimed_count] at hj
    rw [htoken]
    exact (hfresh stats.claimed upload.uploadId).2 j (by omega)

end

/-! ## The run -/

theorem effectiveLeaseSeconds_eq_ok {lease : ℚ} (h : worker.effectiveLeaseSeconds = .ok lease) :
    1 ≤ lease ∧ lease ≤ 86400 := by
  unfold UploadWorker.effectiveLeaseSeconds raiseIf at h
  dsimp only at h
  split at h
  · cases h
  · next hvalid =>
    rw [ok_bind] at h
    cases h
    exact not_not.mp hvalid

theorem drains_runOnce {lease : ℚ} (hlease : worker.effectiveLeaseSeconds = .ok lease) {limit : Int}
    (hlimit : 1 ≤ limit ∧ limit ≤ 1000) (world : Nat → Delivery) (hd : Deliverable db.uploads) :
    Drains rt worker lease world limit.toNat {} db (worker.runOnce rt limit world db) := by
  unfold UploadWorker.runOnce
  rw [if_pos hlimit, hlease]
  exact drains (effectiveLeaseSeconds_eq_ok hlease) _ _ _ hd

theorem isolated_iff (rt : Runtime) (worker : UploadWorker) {lease : ℚ}
    (hlease : worker.effectiveLeaseSeconds = .ok lease) {limit : Int}
    (hlimit : 1 ≤ limit ∧ limit ≤ 1000) (world : Nat → Delivery) (hd : Deliverable db.uploads) :
    let run := worker.runOnce rt limit world db
    Isolated world limit.toNat run ↔ ∀ h ∈ run.handled, h.Recordable rt := by
  intro run
  have hvalid := effectiveLeaseSeconds_eq_ok hlease
  have hdrains : Drains rt worker lease world limit.toNat {} db run :=
    drains_runOnce hlease hlimit world hd
  refine (Iff.trans ⟨fun h => ?_, fun h => ?_⟩ (hdrains.returned_iff hvalid hd))
  · obtain ⟨stats, hstats, -⟩ := h.returned
    exact ⟨stats, hstats⟩
  · obtain ⟨final, hfinal⟩ := h
    obtain ⟨hclaimed, hsum⟩ := hdrains.accounted hvalid hd hfinal
    have hzero : ({} : UploadRunStats).claimed = 0 := rfl
    have hattempted := hdrains.attempted hvalid hd hfinal
    rw [hzero, Nat.zero_add] at hclaimed hattempted
    refine ⟨⟨final, hfinal, hclaimed, fun hleased => ?_⟩, hdrains.released hvalid hd hfinal,
      hattempted⟩
    have hcounts := hsum hleased
    simp only [Nat.zero_add] at hcounts
    omega

theorem Drains.delivery {lease : ℚ} {world : Nat → Delivery} {remaining : Nat}
    {stats : UploadRunStats} {run : Run} (h : Drains rt worker lease world remaining stats db run) :
    ∀ h ∈ run.handled, ∃ k, h.delivery = world k := by
  induction h with
  | limit _ _ => exact fun _ h => absurd h List.not_mem_nil
  | finished _ => exact fun _ h => absurd h List.not_mem_nil
  | raised _ _ _ => exact List.forall_mem_singleton.mpr ⟨_, rfl⟩
  | settled _ _ _ _ ih => exact List.forall_mem_cons.mpr ⟨⟨_, rfl⟩, ih⟩

/--
In every state that the queue reaches, and whatever the client and other processes do, a run of
the worker keeps its uploads apart exactly when each of their outcomes can be recorded.
-/
theorem run_once_isolated_iff (rt : Runtime) (worker : UploadWorker) {lease : ℚ}
    (hlease : worker.effectiveLeaseSeconds = .ok lease) {limit : Int}
    (hlimit : 1 ≤ limit ∧ limit ≤ 1000) (world : Nat → Delivery) (calls : List QueueCall) :
    let run := worker.runOnce rt limit world (performed rt calls Database.empty)
    Isolated world limit.toNat run ↔ ∀ h ∈ run.handled, h.Recordable rt :=
  isolated_iff rt worker hlease hlimit world (deliverable_run rt calls)

def defaultWorker : UploadWorker :=
  { config := {}
    retryPolicy := .ofMaxAttempts 8 (by decide) }

theorem effectiveLeaseSeconds_defaultWorker : defaultWorker.effectiveLeaseSeconds = .ok 145 := by
  decide +kernel

/-! ## A lease that is lost -/

def leaseOf (digit : Char) (h : digit.isAlphanum = true) : UuidHex where
  text := String.ofList (List.replicate 32 digit)
  length := by rw [String.toList_ofList, List.length_replicate]
  digits c hc := by
    rw [String.toList_ofList] at hc
    rwa [List.eq_of_mem_replicate hc]

def statusUpload (endpointId : String) : UploadRequest where
  kind := "scan_status"
  payload := .document (.obj [("endpoint_id", .str endpointId)])
  idempotencyKey := "scan-status:" ++ endpointId
  endpoint := "/api/v1/scans/status"
  metadata := [("endpoint_id", .str endpointId)]

/-- One upload of each of two endpoints. -/
def twoEndpoints : List QueueCall :=
  [.enqueue (statusUpload "endpoint-1") "uuid-1" 0, .enqueue (statusUpload "endpoint-2") "uuid-2" 0]

def sampleLease : UuidHex := leaseOf 'a' rfl

def deliveredAt (claimedAt : ℚ) : Delivery where
  before := []
  claimedAt := claimedAt
  leaseToken _ := sampleLease
  meanwhile := []
  outcome := .delivered
  rebasedAt := claimedAt
  recoveryRequestId := "uuid-3"
  afterRefusal := []
  failedAt := claimedAt
  uniform _ _ := 0
  deliveredAt := "2026-01-01T00:00:00Z"

/-- The first request outlasts its lease and ends in a network error after another claim. -/
def outlastedLease : Delivery :=
  { deliveredAt 1 with
    meanwhile := [.claim 10 60 200 fun _ => (leaseOf 'b' rfl).text]
    outcome := .transportError "connection reset" true
    failedAt := 201 }

theorem run_once_isolated_twoEndpoints :
    Isolated (fun _ => deliveredAt 1) 10 (defaultWorker.runOnce Runtime.sample 10
      (fun _ => deliveredAt 1) (performed Runtime.sample twoEndpoints Database.empty)) := by
  have hlimit : (1 : Int) ≤ 10 ∧ (10 : Int) ≤ 1000 := by decide
  refine (run_once_isolated_iff Runtime.sample defaultWorker effectiveLeaseSeconds_defaultWorker
    hlimit (fun _ => deliveredAt 1) twoEndpoints).mpr fun h hh => .inl ?_
  obtain ⟨k, hk⟩ := (drains_runOnce effectiveLeaseSeconds_defaultWorker hlimit
    (fun _ => deliveredAt 1) (deliverable_run Runtime.sample twoEndpoints)).delivery h hh
  rw [hk]
  rfl

/-- The lease goes to another claimant, and the run ends without trying the other endpoint. -/
theorem outlastedLease_raises :
    let run := defaultWorker.runOnce Runtime.sample 10 (fun _ => outlastedLease)
      (performed Runtime.sample twoEndpoints Database.empty)
    run.result = .error ⟨.storage, "upload lease is no longer valid"⟩ ∧ run.handled.length = 1 ∧
      ¬ Isolated (fun _ => outlastedLease) 10 run := by
  intro run
  have hresult : run.result = .error ⟨.storage, "upload lease is no longer valid"⟩ := by
    decide +kernel
  refine ⟨hresult, by decide +kernel, fun h => ?_⟩
  obtain ⟨stats, hstats, -⟩ := h.returned
  rw [hresult] at hstats
  cases hstats

end OsScanner.Transport
