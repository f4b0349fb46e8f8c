-- SUMMARY: A repayment never worsens arrears: no installment of either schedule owes more after it, and other loans are left as they are.
import LoanArrears.Proofs.Book.Owing
import LoanArrears.Proofs.Book.StoredSum

/-!
# Repayments

A repayment raises what an installment completed and what its loan repaid over its lifetime. The
live schedule reads the one and the planned schedule the other, so on the live schedule a single
installment owes less, or is completed and owes nothing, while the allocation pours the larger
lifetime total over all planned installments again. Either way what the loan owes afterwards is
below what it owed before.
-/

namespace LoanArrears

open Outstanding (dueBefore)

/-! ## Credited numbers -/

namespace Stored

/-- The numbers differ by so much, as far as they are exact. -/
def MovesBy (x x' : Stored) (amount : Int) : Prop :=
  x.isExact → x'.isExact → x'.val = x.val + amount

theorem MovesBy.add {x x' : Stored} {amount : Int} (h : x.MovesBy x' amount) (y : Stored) :
    (x.add y).MovesBy (x'.add y) amount := by
  intro hexact hexact'
  obtain ⟨hx, -, hval⟩ := isExact_of_add hexact
  obtain ⟨hx', -, hval'⟩ := isExact_of_add hexact'
  rw [hval, hval', h hx hx']
  omega

/-- An amount is added in full, unless the column leaves the range. -/
theorem movesBy_credit (x : Stored) (amount : Cents) :
    x.MovesBy (x.add (.exact amount)).settle amount.val := by
  intro hx hexact
  obtain ⟨c, rfl⟩ := exists_of_isExact hx
  obtain ⟨sum, hsum⟩ := ofInt?_of_isExact_settle hexact
  rw [add_exact hsum]
  exact Cents.val_of_ofInt? hsum

end Stored

/-! ## Installments -/

namespace LiveEntry

variable {e : LiveEntry} {amount : Buckets Cents}

theorem movesBy_completed_repay (e : LiveEntry) (amount : Buckets Cents) (i : Bucket) :
    (e.completed.get i).MovesBy ((e.repay amount).completed.get i) (amount.get i).val := by
  simp only [repay, Book.credit, Buckets.get_zipWith]
  exact Stored.movesBy_credit _ _

theorem movesBy_consumed_repay (e : LiveEntry) (amount : Buckets Cents) (i : Bucket) :
    (e.consumed.get i).MovesBy ((e.repay amount).consumed.get i) (amount.get i).val := by
  simp only [consumed, Buckets.get_zipWith]
  exact ((e.movesBy_completed_repay amount i).add _).add _

/-- After a repayment no bucket of the installment owes more. -/
theorem owed_repay_atMost (hamount : ∀ i, 0 ≤ (amount.get i).val)
    (hexact : ∀ i, (e.consumed.get i).isExact)
    (hexact' : ∀ i, ((e.repay amount).consumed.get i).isExact) :
    (e.repay amount).owed.AtMost e.owed where
  dueDate := rfl
  cents_le i := by
    have hconsumed := e.movesBy_consumed_repay amount i (hexact i) (hexact' i)
    have hpos := hamount i
    simp only [owed, Buckets.get_tabulate]
    show ((e.due.get i).val - ((e.repay amount).consumed.get i).val).toNat ≤ _
    omega

theorem fullyCompleted_repay_of_fullyCompleted (h : e.fullyCompleted) (amount : Buckets Cents) :
    (e.repay amount).fullyCompleted := by
  simp [repay, h]

end LiveEntry

/-! ## Lists of installments -/

/-- One more item on both sides, open afterwards only if it was open, and with no more left. -/
theorem Outstanding.Below.cons_open {items : List α} {items' : List β} {p : α → Bool}
    {p' : β → Bool} {left : α → Outstanding} {left' : β → Outstanding}
    (h : Below ((items'.filter p').map left') ((items.filter p).map left)) {a : α} {a' : β}
    (ha : p' a' → p a ∧ (left' a').AtMost (left a)) :
    Below (((a' :: items').filter p').map left') (((a :: items).filter p).map left) := by
  by_cases hp' : p' a'
  · obtain ⟨hp, hle⟩ := ha hp'
    rw [List.filter_cons_of_pos hp, List.filter_cons_of_pos hp']
    exact .cons hle h
  · rw [List.filter_cons_of_neg hp']
    by_cases hp : p a
    · rw [List.filter_cons_of_pos hp]
      exact .cons_right h
    · rw [List.filter_cons_of_neg hp]
      exact h

theorem Outstanding.below_of_forall {items : List α} {p p' : α → Bool} {left left' : α → Outstanding}
    (h : ∀ a ∈ items, p' a → p a ∧ (left' a).AtMost (left a)) :
    Below ((items.filter p').map left') ((items.filter p).map left) := by
  induction items with
  | nil => exact .nil
  | cons a items ih =>
    exact Below.cons_open (ih fun a' ha' => h a' (List.mem_cons_of_mem _ ha'))
      (h a List.mem_cons_self)

/-- A larger pool leaves no installment with more. -/
theorem Waterfall.below_of_le {schedule : List PlannedInstallment} {pool pool' : Bucket → Nat}
    {allocated allocated' : List Coverage} (h : Waterfall schedule pool allocated)
    (h' : Waterfall schedule pool' allocated') (hle : ∀ i, pool i ≤ pool' i) :
    Outstanding.Below ((allocated'.filter (!·.complete)).map (·.left))
      ((allocated.filter (!·.complete)).map (·.left)) := by
  induction h generalizing pool' allocated' with
  | nil =>
    cases h'
    exact .nil
  | cons takes flows ih =>
    cases h' with
    | cons takes' flows' =>
      refine (ih flows' fun i => Nat.sub_le_sub_right (hle i) _).cons_open fun hopen => ?_
      simp only [Bool.not_eq_true', Bool.eq_false_iff, Ne, takes.complete, takes'.complete]
        at hopen ⊢
      refine ⟨fun hcovered => hopen fun i => Nat.le_trans (hcovered i) (hle i),
        takes'.dueDate.trans takes.dueDate.symm, fun i => ?_⟩
      rw [takes'.get_left, takes.get_left]
      exact Nat.sub_le_sub_left (hle i) _

/-! ## Loans -/

namespace Loan

/-- The sums of cents that the loan is aged by are in range, on its live schedule and over its
    lifetime. -/
structure HasExactSums (l : Loan) : Prop where
  live : ∀ e ∈ l.schedule, ∀ i, (e.consumed.get i).isExact
  lifetime : ∀ i, (l.consumed.get i).isExact

variable {l : Loan} {installment : Nat} {amount : Buckets Cents}

theorem movesBy_repaid_repay (l : Loan) (installment : Nat) (amount : Buckets Cents) (i : Bucket) :
    (l.repaid.get i).MovesBy ((l.repay installment amount).repaid.get i) (amount.get i).val := by
  simp only [repay, Book.credit, Buckets.get_zipWith]
  exact Stored.movesBy_credit _ _

theorem movesBy_consumed_repay (l : Loan) (installment : Nat) (amount : Buckets Cents)
    (i : Bucket) :
    (l.consumed.get i).MovesBy ((l.repay installment amount).consumed.get i)
      (amount.get i).val := by
  have hrepaid := l.movesBy_repaid_repay installment amount
  cases i with
  | principal => exact (hrepaid .principal).add _
  | interest => exact ((hrepaid .interest).add _).add _
  | fee => exact ((hrepaid .fee).add _).add _
  | penalty => exact ((hrepaid .penalty).add _).add _

/-- After a repayment the open installments of the live schedule owe no more. -/
theorem below_repay (hamount : ∀ i, 0 ≤ (amount.get i).val)
    (hexact : ∀ e ∈ l.schedule, ∀ i, (e.consumed.get i).isExact)
    (hexact' : ∀ e ∈ (l.repay installment amount).schedule, ∀ i, (e.consumed.get i).isExact) :
    Outstanding.Below
      (((l.repay installment amount).schedule.filter (!·.fullyCompleted)).map (·.owed))
      ((l.schedule.filter (!·.fullyCompleted)).map (·.owed)) := by
  let repaid (e : LiveEntry) : LiveEntry :=
    if e.installment = installment then e.repay amount else e
  have hschedule : (l.repay installment amount).schedule = l.schedule.map repaid := rfl
  rw [hschedule] at hexact' ⊢
  rw [List.filter_map, List.map_map]
  refine Outstanding.below_of_forall fun e he hopen => ?_
  have hexact' := hexact' _ (List.mem_map_of_mem he)
  simp only [Function.comp_apply, repaid] at hopen hexact' ⊢
  split at hopen
  · next hinstallment =>
    simp only [hinstallment, if_true] at hexact' ⊢
    refine ⟨?_, LiveEntry.owed_repay_atMost hamount (hexact e he) hexact'⟩
    by_contra hcompleted
    simp only [Bool.not_eq_true', Bool.not_eq_false] at hcompleted
    simp [LiveEntry.fullyCompleted_repay_of_fullyCompleted hcompleted] at hopen
  · next hinstallment =>
    simp only [hinstallment, if_false]
    exact ⟨hopen, refl _⟩

/-- After a repayment the loan owes no more, on whichever schedule it is aged by. -/
theorem Owes.repay {id : LoanId} {p : Product} {mode : AgingMode} {os : List Outstanding}
    (h : l.Owes id p mode os) (hhistory : l.HasNumberedHistory)
    (hamount : ∀ i, 0 ≤ (amount.get i).val) (hsums : (l.repay installment amount).HasExactSums) :
    ∃ os', (l.repay installment amount).Owes id p mode os' ∧ Outstanding.Below os' os := by
  cases h with
  | live hmode hexact =>
    exact ⟨_, .live hmode hsums.live, below_repay hamount hexact hsums.live⟩
  | @planned c allocated hmode hvalid hconsumed hlifetime hallocate hflows =>
    choose c' hc' using fun i => Stored.exists_of_isExact (hsums.lifetime i)
    have hnonneg := Amounts.anyNegative_ofCents_eq_false_iff.1
      (Consumption.not_anyNegative_of_validate hlifetime)
    have hmoves (i : Bucket) : (c' i).val = (c.get i).val + (amount.get i).val := by
      have hexact : l.consumed.get i = .exact (c.get i) := by
        rw [hconsumed, exactly, Buckets.get_map]
      have hmoves := l.movesBy_consumed_repay installment amount i (hexact ▸ rfl)
        (hsums.lifetime i)
      rw [hexact, hc'] at hmoves
      exact hmoves
    have hconsumed' : (l.repay installment amount).consumed = exactly (.tabulate c') := by
      apply Buckets.ext_get
      intro i
      rw [hc', exactly, Buckets.get_map, Buckets.get_tabulate]
    have hlifetime' : Consumption.validate ⟨id, Amounts.ofCents (.tabulate c')⟩ = .ok () := by
      refine if_neg (Bool.eq_false_iff.1 (Amounts.anyNegative_ofCents_eq_false_iff.2 fun i => ?_))
      rw [Buckets.get_tabulate, hmoves]
      exact Int.add_nonneg (hnonneg i) (hamount i)
    obtain ⟨allocated', hallocate', hflows', -⟩ := Book.exists_ofPlanned hhistory hvalid hlifetime'
    refine ⟨_, .planned hmode hvalid hconsumed' hlifetime' hallocate' hflows',
      hflows.below_of_le hflows' fun i => ?_⟩
    have hpos := hamount i
    simp only [Amounts.cents, Amounts.ofCents, Buckets.get_map, Buckets.get_tabulate,
      Decimal.ofCents, hmoves]
    omega

end Loan

/-! ## Books -/

namespace Book

variable {b b' : Book} {id : LoanId} {installment : Nat} {amount : Buckets Cents}

/-- What a repayment changes in the book is the loan `l`. -/
structure Repaid (b b' : Book) (id : LoanId) (installment : Nat) (amount : Buckets Cents)
    (l : Loan) : Prop where
  before : b.loans.find? id = some l
  after : b'.loans.find? id = some (l.repay installment amount)
  products : b'.products = b.products
  others : ∀ other, other ≠ id → b.SameLoan b' other

theorem exists_repaid (h : b.repay id installment amount = .ok b') :
    ∃ l, Repaid b b' id installment amount l := by
  obtain ⟨l, hl, rfl⟩ := exists_of_repay h
  refine ⟨l, hl, ?_, rfl, fun other hother => ⟨?_, fun _ _ => rfl⟩⟩
  · rw [Table.find?_put, if_pos rfl]
  · rw [Table.find?_put, if_neg hother]

theorem Repaid.terms_eq {l : Loan} (h : Repaid b b' id installment amount l) :
    b'.terms id = b.terms id := by
  have hproduct : (l.repay installment amount).product = l.product := rfl
  simp only [Book.terms, loanWithProduct?, h.before, h.after, h.products, hproduct, bind,
    Option.bind]
  cases b.products.find? l.product <;> rfl

/-- After a repayment the write of the loan is computed if it was before, and its row shrinks. -/
theorem IsBuilt.shrinksTo_of_repay (hb : b.IsBuilt) (h : b.repay id installment amount = .ok b')
    (hamount : ∀ i, 0 ≤ (amount.get i).val)
    (hsums : ∀ l', b'.loans.find? id = some l' → l'.HasExactSums) {today : Date}
    {mode : AgingMode} {w : ArrearsWrite} (hw : b.writeOf id today mode = .ok w) :
    ∃ w', b'.writeOf id today mode = .ok w' ∧ w.ShrinksTo w' := by
  obtain ⟨l, hrepaid⟩ := exists_repaid h
  rcases hb.isOwed_of_writeOf hw with ⟨terms, hterms, hstatus, rfl⟩ |
    ⟨l', p, os, cutoff, howed, hcutoff⟩
  · refine ⟨.delete id, ?_, ArrearsWrite.shrinksTo_delete _ id⟩
    rw [writeOf_of_terms (hrepaid.terms_eq.trans hterms), if_pos (by simpa using hstatus)]
  · obtain ⟨t, ht, hcounts⟩ := hb.exists_writeOf howed hcutoff
    rw [ht] at hw
    cases hw
    cases howed.find?.symm.trans hrepaid.before
    have hhistory := hb.sound.histories id l hrepaid.before
    have hschedule := (hb.hasNumberedSchedules id l hrepaid.before).of_numbers_eq
      (l.numbers_repay installment amount)
    obtain ⟨os', howes', hbelow⟩ := howed.owes.repay hhistory hamount (hsums _ hrepaid.after)
    have hp : b'.products.find? l.product = some p := hrepaid.products ▸ howed.product
    obtain ⟨t', ht', hcounts'⟩ := exists_writeOf_of_owes hrepaid.after hp howed.active hschedule
      ⟨hhistory.distinct, hhistory.lt⟩ howes' hcutoff
    exact ⟨_, ht', hcounts.shrinksTo hcounts' (hbelow.dueBefore cutoff) id⟩

end Book

/-- A repayment that succeeds posts its cents to the book. -/
theorem Store.HasBook.exists_of_exec_repay {b b' : Book} {s s' : Store} (hs : s.HasBook b)
    {id : LoanId} {installment : Nat} {amount : Amounts}
    (h : (Store.repay id installment amount : Act Store Unit).exec s = (.ok (), s'))
    (hs' : s'.HasBook b') :
    ∃ cents, Amounts.toCents amount = .ok cents ∧ b.repay id installment cents = .ok b' := by
  obtain ⟨tables, tx⟩ := s
  obtain ⟨arrears, rfl⟩ := hs
  have hexec := (Store.exec_act (.repay id installment amount)).symm.trans h
  cases happly : LoanWrite.apply (.repay id installment amount) b with
  | error e =>
    rw [happly] at hexec
    cases hexec
  | ok posted =>
    rw [happly] at hexec
    cases hexec
    obtain ⟨arrears', hbook⟩ := hs'
    cases hbook
    exact exists_of_bind_eq_ok happly

/-- A repayment without negative amounts never worsens arrears, as long as the sums of the loan
    stay in range: on any day the write of the loan is computed after it if it was before, a row
    is only there if there was one, with no larger amount and since no earlier date, and the
    writes of other loans are the same. -/
theorem repayment_never_worsens_arrears {b b' : Book} (hb : b.IsBuilt) {s s' : Store}
    (hs : s.HasBook b) {id : LoanId} {installment : Nat} {amount : Amounts}
    (hamount : amount.anyNegative = false)
    (hrepay : (Store.repay id installment amount : Act Store Unit).exec s = (.ok (), s'))
    (hs' : s'.HasBook b') (hsums : ∀ l, b'.loans.find? id = some l → l.HasExactSums)
    (today : Date) (mode : AgingMode) :
    (∀ w, ((computeWrite id today mode : Act Store ArrearsWrite).exec s).1 = .ok w →
      ∃ w', ((computeWrite id today mode : Act Store ArrearsWrite).exec s').1 = .ok w' ∧
        w.ShrinksTo w') ∧
      ∀ other, other ≠ id →
        ((computeWrite other today mode : Act Store ArrearsWrite).exec s').1 =
          ((computeWrite other today mode : Act Store ArrearsWrite).exec s).1 := by
  obtain ⟨cents, hcents, hposted⟩ := hs.exists_of_exec_repay hrepay hs'
  have hnonneg (i : Bucket) : 0 ≤ (cents.get i).val :=
    Decimal.val_nonneg_of_toCents (Buckets.mapM_eq_ok_iff.1 hcents i)
      (Amounts.anyNegative_eq_false_iff.1 hamount i)
  simp only [hs.computeWrite_eq, hs'.computeWrite_eq]
  refine ⟨fun w hw => hb.shrinksTo_of_repay hposted hnonneg hsums hw, fun other hother => ?_⟩
  obtain ⟨l, hrepaid⟩ := Book.exists_repaid hposted
  exact (hrepaid.others other hother).writeOf_eq today mode

/-! ## A repayment of the sample book -/

namespace Sample

/-- Principal of 40. -/
def forty : Amounts := Amounts.ofCents ⟨⟨4000, by decide, by decide⟩, .zero, .zero, .zero⟩

/-- Loan 1 has repaid 40 of the 100 of its installment. -/
def partlyRepaid : Book :=
  (book 2).after [.repay 1 1 forty]

theorem hasExactSums_partlyRepaid {l : Loan} (hl : partlyRepaid.loans.find? 1 = some l) :
    l.HasExactSums := by
  cases hl
  refine ⟨fun e he i => ?_, fun i => ?_⟩
  · rw [List.mem_singleton.1 he]
    cases i <;> rfl
  · cases i <;> rfl

end Sample

/-- Loan 1 is in arrears before a repayment of 40, has no larger row after it, and loan 2 is left
    as it is. -/
theorem repayment_never_worsens_sample :
    ∃ a w, ((computeWrite 1 Sample.today .auto : Act Store ArrearsWrite).exec
        ⟨some ⟨Sample.book 2, Table.empty⟩, false⟩).1 = .ok (.upsert a) ∧
      ((computeWrite 1 Sample.today .auto : Act Store ArrearsWrite).exec
        ⟨some ⟨Sample.partlyRepaid, Table.empty⟩, false⟩).1 = .ok w ∧
      (ArrearsWrite.upsert a).ShrinksTo w ∧
      ((computeWrite 2 Sample.today .auto : Act Store ArrearsWrite).exec
        ⟨some ⟨Sample.partlyRepaid, Table.empty⟩, false⟩).1 =
          ((computeWrite 2 Sample.today .auto : Act Store ArrearsWrite).exec
            ⟨some ⟨Sample.book 2, Table.empty⟩, false⟩).1 := by
  have hbook : Store.HasBook ⟨some ⟨Sample.book 2, Table.empty⟩, false⟩ (Sample.book 2) :=
    ⟨Table.empty, rfl⟩
  have hrepay : (Store.repay 1 1 Sample.forty : Act Store Unit).exec
      ⟨some ⟨Sample.book 2, Table.empty⟩, false⟩ =
        (.ok (), ⟨some ⟨Sample.partlyRepaid, Table.empty⟩, false⟩) := rfl
  obtain ⟨hloan, hothers⟩ := repayment_never_worsens_arrears (Sample.isBuilt_book (by decide))
    hbook rfl hrepay ⟨Table.empty, rfl⟩ (fun _ => Sample.hasExactSums_partlyRepaid)
    Sample.today .auto
  obtain ⟨a, ha, -⟩ := Sample.exists_writeOf_liveLoan
  have hbefore := (hbook.computeWrite_eq 1 Sample.today .auto).trans ha
  obtain ⟨w, hw, hshrinks⟩ := hloan _ hbefore
  exact ⟨a, w, hbefore, hw, hshrinks, hothers 2 (by decide)⟩

end LoanArrears
