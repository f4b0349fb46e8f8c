-- SUMMARY: Recomputes of loans that commit between the two statements of the bulk pass: the bulk insert fails exactly when one of them puts a row of its own loans back.
import LoanArrears.Proofs.Book.Owing
import LoanArrears.Proofs.Job.Effects
import LoanArrears.Proofs.Job.Passes

/-!
# Recomputes within the bulk pass

The bulk pass clears the table in one statement and inserts in another one. A loan that is
recomputed in between gets its row back if it is in arrears. The bulk insert has no place for a
row that is there: with such a row of a loan that it ages itself it is refused as a whole. Rows
of other loans are in nobody's way.
-/

namespace LoanArrears

/-- Recompute loans, one after another. -/
def recomputeAll [BookAccess σ] [ArrearsAccess σ] (loans : List LoanId) (today : Date) :
    Act σ Unit :=
  loans.forM fun id => discard (recompute id today .auto)

/-- The bulk pass up to its second statement, with recomputes behind the first one. -/
def resetAndRecompute [BookAccess σ] [ArrearsAccess σ] (loans : List LoanId) (today : Date) :
    Act σ Unit := do
  discard ArrearsAccess.reset
  recomputeAll loans today

/-- The bulk pass, with recomputes before its first statement. -/
def recomputeAndBulk [BookAccess σ] [ArrearsAccess σ] (loans : List LoanId) (today : Date) :
    Act σ Nat := do
  recomputeAll loans today
  discard ArrearsAccess.reset
  ArrearsAccess.bulkInsert today

namespace Store

variable {b : Book} {today : Date} {tx : Bool}

/-- A recompute does the write that it computes. -/
theorem does_recompute {id : LoanId} {w : ArrearsWrite} (hw : b.writeOf id today .auto = .ok w)
    {r : Except Fault Unit} (hanswer : w.answer = r) :
    (recompute id today .auto : Act Store ArrearsWrite).Does b tx (r.map fun _ => w) [w] := by
  have hcompute : (computeWrite id today .auto : Act Store ArrearsWrite).Does b tx
      (b.writeOf id today .auto) [] := does_computeWrite id today .auto
  have hdo : (ArrearsAccess.write w : Act Store Unit).Does b tx w.answer [w] := does_write w
  rw [hw] at hcompute
  rw [hanswer] at hdo
  unfold recompute
  cases r with
  | ok u => exact hcompute.bind_ok (hdo.bind_ok (.pure w))
  | error f => exact hcompute.bind_ok hdo.bind_error

theorem does_recompute_error {id : LoanId} {f : Fault} (h : b.writeOf id today .auto = .error f) :
    (recompute id today .auto : Act Store ArrearsWrite).Does b tx (.error f) [] := by
  have hcompute : (computeWrite id today .auto : Act Store ArrearsWrite).Does b tx
      (b.writeOf id today .auto) [] := does_computeWrite id today .auto
  rw [h] at hcompute
  exact hcompute.bind_error

theorem exists_does_discard_recompute (b : Book) (today : Date) (tx : Bool) (id : LoanId) :
    ∃ r ws, (discard (recompute id today .auto) : Act Store Unit).Does b tx r ws ∧
      ∀ u, r = .ok u → ws = b.writesOf today [id] := by
  cases hwrite : b.writeOf id today .auto with
  | error f =>
    refine ⟨_, _, (does_recompute_error hwrite).map _, ?_⟩
    intro u hu
    cases hu
  | ok w =>
    refine ⟨_, _, (does_recompute hwrite rfl).map _, ?_⟩
    intro u _
    exact (Book.writesOf_cons_ok hwrite []).symm

theorem exists_does_recomputeAll (b : Book) (today : Date) (tx : Bool) (loans : List LoanId) :
    ∃ r ws, (recomputeAll loans today : Act Store Unit).Does b tx r ws ∧
      ∀ u, r = .ok u → ws = b.writesOf today loans := by
  induction loans with
  | nil => exact ⟨_, _, .pure (), fun u _ => rfl⟩
  | cons id loans ih =>
    obtain ⟨r, ws, hone, hfirst⟩ := exists_does_discard_recompute b today tx id
    obtain ⟨r', ws', hall, hrest⟩ := ih
    cases r with
    | error f =>
      refine ⟨_, _, hone.bind_error, ?_⟩
      intro u hu
      cases hu
    | ok u =>
      refine ⟨_, _, hone.bind_ok hall, ?_⟩
      intro u' hu'
      rw [hfirst u rfl, hrest u' hu']
      exact (Book.writesOf_append [id] loans).symm

/-- Recomputes that succeed do the writes of their loans, whatever the table holds. -/
theorem does_recomputeAll_of_exec {loans : List LoanId} {t : ArrearsTable} {s : Store}
    (h : (recomputeAll loans today : Act Store Unit).exec ⟨some ⟨b, t⟩, tx⟩ = (.ok (), s)) :
    (recomputeAll loans today : Act Store Unit).Does b tx (.ok ()) (b.writesOf today loans) := by
  obtain ⟨r, ws, hdoes, hok⟩ := exists_does_recomputeAll b today tx loans
  have hr : r = .ok () := by
    rw [hdoes t] at h
    exact (Prod.mk.inj h).1
  subst hr
  rw [← hok () rfl]
  exact hdoes

/-- Recomputing a loan in arrears succeeds if its numbers fit. -/
theorem does_recomputeAll_of_upsert (hfits : b.Fits today) (hb : b.Sound) {id : LoanId}
    {a : ArrearsPosition} (ha : b.writeOf id today .auto = .ok (.upsert a)) :
    (recomputeAll [id] today : Act Store Unit).Does b tx (.ok ()) (b.writesOf today [id]) := by
  obtain ⟨-, -, e, -, -, hentry, -⟩ := hfits.exists_counts hb ha
  have hanswer : (ArrearsWrite.upsert a).answer = .ok () := by
    rw [ArrearsWrite.answer, ← Book.entryOf_of_writeOf ha, hentry]
    rfl
  rw [Book.writesOf_cons_ok ha]
  exact ((does_recompute ha hanswer).map _).bind_ok (.pure ())

theorem exec_reset (t : ArrearsTable) :
    (discard ArrearsAccess.reset : Act Store Unit).exec ⟨some ⟨b, t⟩, false⟩ =
      (.ok (), ⟨some ⟨b, Table.empty⟩, false⟩) := rfl

end Store

namespace Book

variable {b : Book} {today : Date} {loans : List LoanId} {id : LoanId}

/-- What recomputes leave of a table that was cleared. -/
def recomputed (b : Book) (today : Date) (loans : List LoanId) : ArrearsTable :=
  ArrearsTable.applyAll Table.empty (b.writesOf today loans)

theorem exec_resetAndRecompute (hdoes : (recomputeAll loans today : Act Store Unit).Does b false
      (.ok ()) (b.writesOf today loans)) (t : ArrearsTable) :
    (resetAndRecompute loans today : Act Store Unit).exec ⟨some ⟨b, t⟩, false⟩ =
      (.ok (), ⟨some ⟨b, b.recomputed today loans⟩, false⟩) :=
  (Act.exec_bind_ok (Store.exec_reset t)).trans (hdoes Table.empty)

theorem entryOf_of_expectedRow? {e : ArrearsEntry} (h : b.expectedRow? today id = some e) :
    b.entryOf id today = .ok (some e) := by
  unfold expectedRow? at h
  split at h
  · next hentry => rw [hentry, h]
  · cases h

theorem find?_recomputed (b : Book) (today : Date) (loans : List LoanId) (id : LoanId) :
    (b.recomputed today loans).find? id =
      if id ∈ loans then b.expectedRow? today id else none := by
  rw [recomputed, find?_applyAll_writesOf, expectedRow?]
  cases b.entryOf id today with
  | ok e => rfl
  | error f => exact (ite_self none).symm

namespace Fits

/-- The bulk pass behind recomputes leaves what it leaves without them. -/
theorem exists_recomputeAndBulk (hfits : b.Fits today) (htoday : today.HasFourDigitYear)
    (hyears : b.HasFourDigitYears) (hdoes : (recomputeAll loans today : Act Store Unit).Does b false
      (.ok ()) (b.writesOf today loans)) (t : ArrearsTable) :
    ∃ n t₀, (recomputeAndBulk loans today : Act Store Nat).exec ⟨some ⟨b, t⟩, false⟩ =
      (.ok n, ⟨some ⟨b, t₀⟩, false⟩) ∧ ∀ id, t₀.find? id = b.bulkRow? today id := by
  obtain ⟨n, t₀, hinsert, hrows⟩ := exists_bulkInsert (hfits.bulkAccepts htoday hyears)
  refine ⟨n, t₀, ?_, hrows⟩
  rw [recomputeAndBulk, Act.exec_bind_ok (hdoes t), Act.exec_bind_ok (Store.exec_reset _),
    Job.exec_bulkInsert, hinsert]

/-- The row of a recomputed loan is in the way of the bulk insert if the loan is in arrears and
    does not replay its planned schedule. -/
theorem isFree_iff (hfits : b.Fits today) (hb : b.Sound) (htoday : today.HasFourDigitYear)
    (hyears : b.HasFourDigitYears) (loans : List LoanId) (id : LoanId) :
    IsFree (b.recomputed today loans) id (b.bulkRow? today id) ↔
      (id ∈ loans → ∀ a, b.writeOf id today .auto = .ok (.upsert a) → b.Replays id) := by
  rw [IsFree, find?_recomputed]
  constructor
  · intro hfree hid a ha
    by_contra hlive
    obtain ⟨-, -, e, -, -, hentry, -⟩ := hfits.exists_counts hb ha
    have hrow := (hfits.isSome_bulkRow?_iff hb htoday hyears ha).2 hlive
    rcases hfree with hnone | hnone
    · rw [hnone] at hrow
      cases hrow
    · rw [if_pos hid, expectedRow?, hentry] at hnone
      cases hnone
  · intro hreplays
    by_cases hid : id ∈ loans
    · rw [if_pos hid]
      rcases hfits.bulkRow?_eq_or hb htoday hyears id with hrow | hrow
      · cases hexpected : b.expectedRow? today id with
        | none => exact .inr rfl
        | some e =>
          obtain ⟨a, ha⟩ := exists_upsert_of_entryOf (entryOf_of_expectedRow? hexpected)
          have hsome : (b.bulkRow? today id).isSome := by
            rw [hrow, hexpected]
            rfl
          have hlive := (hfits.isSome_bulkRow?_iff hb htoday hyears ha).1 hsome
          exact absurd (hreplays hid a ha) hlive
      · exact .inl hrow
    · exact .inr (if_neg hid)

/-- A row of a loan in arrears that the bulk insert ages itself ends the bulk insert. -/
theorem exec_bulkInsert_eq_notUnique (hfits : b.Fits today) (hb : b.Sound)
    (htoday : today.HasFourDigitYear) (hyears : b.HasFourDigitYears) (hid : id ∈ loans)
    {a : ArrearsPosition} (ha : b.writeOf id today .auto = .ok (.upsert a))
    (hlive : ¬ b.Replays id) :
    (ArrearsAccess.bulkInsert today : Act Store Nat).exec
        ⟨some ⟨b, b.recomputed today loans⟩, false⟩ =
      (.error (.error (.notUnique "loan_arrears_aging" ["loan_id"])),
        ⟨some ⟨b, b.recomputed today loans⟩, false⟩) := by
  have htaken := mt (hfits.isFree_iff hb htoday hyears loans id).1 fun h => hlive (h hid a ha)
  rw [Job.exec_bulkInsert, bulkInsert_eq_notUnique (hfits.bulkAccepts htoday hyears) htaken]

/-- Rows of other loans stay, and the loans that the bulk insert ages get theirs. -/
theorem exists_exec_bulkInsert (hfits : b.Fits today) (hb : b.Sound)
    (htoday : today.HasFourDigitYear) (hyears : b.HasFourDigitYears)
    (hall : ∀ id ∈ loans, ∀ a, b.writeOf id today .auto = .ok (.upsert a) → b.Replays id) :
    ∃ n t, (ArrearsAccess.bulkInsert today : Act Store Nat).exec
        ⟨some ⟨b, b.recomputed today loans⟩, false⟩ = (.ok n, ⟨some ⟨b, t⟩, false⟩) ∧
      ∀ id, ¬ b.Replays id → t.find? id = b.bulkRow? today id := by
  obtain ⟨n, t, hinsert, hrows⟩ := exists_bulkInsert_of_isFree (hfits.bulkAccepts htoday hyears)
    fun id => (hfits.isFree_iff hb htoday hyears loans id).2 (hall id)
  have hbulk := @Job.exec_bulkInsert b today (b.recomputed today loans)
  rw [hinsert] at hbulk
  refine ⟨n, t, hbulk, fun id hlive => ?_⟩
  rw [hrows, find?_recomputed]
  split
  · next hid =>
    cases hexpected : b.expectedRow? today id with
    | none => exact Option.or_none
    | some e =>
      obtain ⟨a, ha⟩ := exists_upsert_of_entryOf (entryOf_of_expectedRow? hexpected)
      exact absurd (hall id hid a ha) hlive
  · exact Option.or_none

end Fits

end Book

/-! ## Loans of the sample book -/

namespace Sample

theorem replays_book : (book 2).Replays 2 :=
  ⟨replayingLoan.activeTerms 2 ⟨"planned", true, 0⟩, rfl, rfl⟩

theorem not_replays_book : ¬ (book 2).Replays 1 := by
  rintro ⟨terms, hterms, hreplays⟩
  cases hterms
  cases hreplays

end Sample

/-- Loans that are recomputed between the reset and the bulk insert do no harm exactly when
    each of them that is in arrears replays its planned schedule: then the bulk insert succeeds,
    and a loan that does not replay has the row that it has when they are recomputed before the
    reset. Otherwise the bulk insert is refused for a row that is there, and adds none. -/
theorem bulk_insert_after_recomputes_iff {b : Book} (hb : b.IsBuilt) {today : Date}
    (htoday : today.HasFourDigitYear) (hyears : b.HasFourDigitYears) (hfits : b.Fits today)
    {loans : List LoanId} {t : ArrearsTable} {s : Store}
    (hbetween : (resetAndRecompute loans today : Act Store Unit).exec ⟨some ⟨b, t⟩, false⟩ =
      (.ok (), s)) :
    ∃ n t₀,
      (recomputeAndBulk loans today : Act Store Nat).exec ⟨some ⟨b, t⟩, false⟩ =
        (.ok n, ⟨some ⟨b, t₀⟩, false⟩) ∧
      ((∃ n' t', (ArrearsAccess.bulkInsert today : Act Store Nat).exec s =
          (.ok n', ⟨some ⟨b, t'⟩, false⟩) ∧
          ∀ id, ¬ b.Replays id → t'.find? id = t₀.find? id) ↔
        ∀ id ∈ loans, ∀ a, ((computeWrite id today .auto : Act Store ArrearsWrite).exec s).1 =
          .ok (.upsert a) → b.Replays id) ∧
      ((∃ id ∈ loans, ∃ a, ((computeWrite id today .auto : Act Store ArrearsWrite).exec s).1 =
          .ok (.upsert a) ∧ ¬ b.Replays id) →
        (ArrearsAccess.bulkInsert today : Act Store Nat).exec s =
          (.error (.error (.notUnique "loan_arrears_aging" ["loan_id"])), s)) := by
  have hrecomputes : (recomputeAll loans today : Act Store Unit).exec
      ⟨some ⟨b, Table.empty⟩, false⟩ = (.ok (), s) :=
    (Act.exec_bind_ok (Store.exec_reset t)).symm.trans hbetween
  have hdoes := Store.does_recomputeAll_of_exec hrecomputes
  rw [Book.exec_resetAndRecompute hdoes] at hbetween
  cases hbetween
  obtain ⟨n, t₀, hafter, hrows⟩ := hfits.exists_recomputeAndBulk htoday hyears hdoes t
  simp only [Store.does_computeWrite _ _ _ _]
  refine ⟨n, t₀, hafter, ⟨?_, ?_⟩, ?_⟩
  · rintro ⟨n', t', hok, -⟩ id hid a ha
    by_contra hlive
    rw [hfits.exec_bulkInsert_eq_notUnique hb.sound htoday hyears hid ha hlive] at hok
    cases hok
  · intro hall
    obtain ⟨n', t', hinsert, hrows'⟩ := hfits.exists_exec_bulkInsert hb.sound htoday hyears hall
    exact ⟨n', t', hinsert, fun id hlive => (hrows' id hlive).trans (hrows id).symm⟩
  · rintro ⟨id, hid, a, ha, hlive⟩
    exact hfits.exec_bulkInsert_eq_notUnique hb.sound htoday hyears hid ha hlive

/-- Loan 2 replays its planned schedule, so its recompute does the bulk insert no harm. -/
theorem bulk_insert_after_recompute_of_sample :
    ∃ s n t,
      (resetAndRecompute [2] Sample.today : Act Store Unit).exec
        ⟨some ⟨Sample.book 2, Table.empty⟩, false⟩ = (.ok (), s) ∧
      (ArrearsAccess.bulkInsert Sample.today : Act Store Nat).exec s =
        (.ok n, ⟨some ⟨Sample.book 2, t⟩, false⟩) := by
  have hb : (Sample.book 2).IsBuilt := Sample.isBuilt_book (by decide)
  have hfits : (Sample.book 2).Fits Sample.today := Sample.fits_book (.inl rfl)
  have hwrite := @Sample.writeOf_book 2 (.inl rfl)
  have hbetween := Book.exec_resetAndRecompute
    (Store.does_recomputeAll_of_upsert hfits hb.sound hwrite) Table.empty
  obtain ⟨n₀, t₀, -, hiff, -⟩ := bulk_insert_after_recomputes_iff hb
    Sample.hasFourDigitYear_today (Sample.hasFourDigitYears_book (.inl rfl)) hfits hbetween
  have hall : ∀ id ∈ [2], (Sample.book 2).Replays id :=
    List.forall_mem_singleton.2 Sample.replays_book
  obtain ⟨n, t, hinsert, -⟩ := hiff.2 fun id hid _ _ => hall id hid
  exact ⟨_, n, t, hbetween, hinsert⟩

/-- Loan 1 does not replay: recomputed between the two statements it has a row again, and the
    bulk insert is refused. Recomputed before the first one it does no harm. -/
theorem bulk_insert_fails_after_recompute_of_sample :
    (∃ s, (resetAndRecompute [1] Sample.today : Act Store Unit).exec
        ⟨some ⟨Sample.book 2, Table.empty⟩, false⟩ = (.ok (), s) ∧
      (ArrearsAccess.bulkInsert Sample.today : Act Store Nat).exec s =
        (.error (.error (.notUnique "loan_arrears_aging" ["loan_id"])), s)) ∧
    ∃ n s, (recomputeAndBulk [1] Sample.today : Act Store Nat).exec
      ⟨some ⟨Sample.book 2, Table.empty⟩, false⟩ = (.ok n, s) := by
  have hb : (Sample.book 2).Sound := (Sample.isBuilt_book (by decide)).sound
  have hfits : (Sample.book 2).Fits Sample.today := Sample.fits_book (.inl rfl)
  have hyears := Sample.hasFourDigitYears_book (.inl rfl)
  obtain ⟨a, ha, -⟩ := Sample.exists_writeOf_liveLoan
  have hdoes := @Store.does_recomputeAll_of_upsert _ _ false hfits hb _ _ ha
  have hrefused := hfits.exec_bulkInsert_eq_notUnique hb Sample.hasFourDigitYear_today hyears
    (List.mem_singleton_self 1) ha Sample.not_replays_book
  obtain ⟨n, t, hafter, -⟩ :=
    hfits.exists_recomputeAndBulk Sample.hasFourDigitYear_today hyears hdoes Table.empty
  exact ⟨⟨_, Book.exec_resetAndRecompute hdoes _, hrefused⟩, n, _, hafter⟩

end LoanArrears
