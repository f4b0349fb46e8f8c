-- SUMMARY: The two ledgers of repayments: what a loan repaid over its lifetime and what its installments completed move together, and nothing else in the book changes.
import LoanArrears.Proofs.Book.Completing

/-!
# The two ledgers of repayments

A repayment is written down twice, under the installment it is posted to and in the lifetime totals
of the loan. A call that succeeds moves both ledgers by its amount, since the number of an
installment is its own; a call that fails moves neither. So the gap between the ledgers is kept by
every sequence of calls as long as both stay in range, and so is the `contract` of every loan, which
is all of it that repayments do not write.
-/

namespace LoanArrears

/-! ## One loan -/

/-- The installment without what repayments write. -/
def LiveEntry.contract (e : LiveEntry) : LiveEntry :=
  { e with completed := exactly (.all .zero), fullyCompleted := false }

/-- When one of the items with keys of their own grows by an amount, so does the sum. -/
theorem sum_map_of_moved {items : List α} {key : α → Nat} {k : Nat} {f g : α → Int} {amount : Int}
    (hnodup : (items.map key).Nodup) (hk : k ∈ items.map key)
    (hmoved : ∀ a ∈ items, key a = k → g a = f a + amount)
    (hkept : ∀ a ∈ items, key a ≠ k → g a = f a) :
    (items.map g).sum = (items.map f).sum + amount := by
  induction items with
  | nil => simp at hk
  | cons a items ih =>
    obtain ⟨hfresh, hnodup⟩ := List.nodup_cons.1 hnodup
    rw [List.forall_mem_cons] at hmoved hkept
    simp only [List.map_cons, List.sum_cons]
    by_cases ha : key a = k
    · have hothers : items.map g = items.map f := by
        refine List.map_congr_left fun a' ha' => hkept.2 a' ha' fun hkey => hfresh ?_
        exact ha ▸ hkey ▸ List.mem_map_of_mem ha'
      rw [hmoved.1 ha, hothers]
      omega
    · have hmem : k ∈ items.map key := by simpa [Ne.symm ha] using hk
      rw [hkept.1 ha, ih hnodup hmem hmoved.2 hkept.2]
      omega

namespace Loan

/-- The loan without what repayments write. -/
def contract (l : Loan) : Loan :=
  { l with repaid := exactly (.all .zero), schedule := l.schedule.map (·.contract) }

/-- What the installments of the live schedule completed. -/
def completedSum (l : Loan) (i : Bucket) : Int :=
  (l.schedule.map fun e => (e.completed.get i).val).sum

/-- What the loan repaid over its lifetime beyond what its installments completed. -/
def ledgerGap (l : Loan) (i : Bucket) : Int :=
  (l.repaid.get i).val - l.completedSum i

/-- The columns that repayments add to are in range. -/
structure HasExactLedgers (l : Loan) : Prop where
  repaid : ∀ i, (l.repaid.get i).isExact
  completed : ∀ e ∈ l.schedule, ∀ i, (e.completed.get i).isExact

instance (l : Loan) : Decidable l.HasExactLedgers :=
  decidable_of_iff
    ((∀ i, (l.repaid.get i).isExact) ∧ ∀ e ∈ l.schedule, ∀ i, (e.completed.get i).isExact)
    ⟨fun h => ⟨h.1, h.2⟩, fun h => ⟨h.repaid, h.completed⟩⟩

variable {l l' : Loan} {installment : Nat} {amount : Buckets Cents}

theorem numbers_of_contract_eq (h : l'.contract = l.contract) : l'.numbers = l.numbers := by
  have hnumbers (l : Loan) : l.contract.numbers = l.numbers := by
    simp [numbers, contract, LiveEntry.contract, Function.comp_def]
  rw [← hnumbers l', h, hnumbers]

theorem contract_repay (l : Loan) (installment : Nat) (amount : Buckets Cents) :
    (l.repay installment amount).contract = l.contract := by
  simp only [contract, repay, List.map_map, Loan.mk.injEq, true_and, and_true]
  refine List.map_congr_left fun e _ => ?_
  rw [Function.comp_apply]
  split <;> rfl

/-- Only the installment with the number of the repayment completes more. -/
theorem completedSum_repay (hnumbered : l.HasNumberedSchedule) (hmem : installment ∈ l.numbers)
    (hexact : l.HasExactLedgers) (hexact' : (l.repay installment amount).HasExactLedgers)
    (i : Bucket) :
    (l.repay installment amount).completedSum i = l.completedSum i + (amount.get i).val := by
  have hcompleted := hexact'.completed
  simp only [repay, List.forall_mem_map] at hcompleted
  simp only [completedSum, repay, List.map_map]
  refine sum_map_of_moved hnumbered.distinct hmem (fun e he hnumber => ?_) fun e he hnumber => ?_
  · have hexact' := hcompleted e he i
    simp only [hnumber, if_true] at hexact'
    simp only [Function.comp_apply, hnumber, if_true]
    exact e.movesBy_completed_repay amount i (hexact.completed e he i) hexact'
  · simp only [Function.comp_apply, hnumber, if_false]

/-- Both ledgers of the loan move by an amount, and what repayments do not write stays. -/
structure Moves (l l' : Loan) (amount : Bucket → Int) : Prop where
  contract : l'.contract = l.contract
  repaid : ∀ i, (l'.repaid.get i).val = (l.repaid.get i).val + amount i
  completed : ∀ i, l'.completedSum i = l.completedSum i + amount i

theorem moves_nothing (l : Loan) : l.Moves l fun _ => 0 where
  contract := rfl
  repaid _ := (Int.add_zero _).symm
  completed _ := (Int.add_zero _).symm

theorem moves_repay (hnumbered : l.HasNumberedSchedule) (hmem : installment ∈ l.numbers)
    (hexact : l.HasExactLedgers) (hexact' : (l.repay installment amount).HasExactLedgers) :
    l.Moves (l.repay installment amount) fun i => (amount.get i).val where
  contract := l.contract_repay installment amount
  repaid i := l.movesBy_repaid_repay installment amount i (hexact.repaid i) (hexact'.repaid i)
  completed := completedSum_repay hnumbered hmem hexact hexact'

namespace Moves

variable {l'' : Loan} {moved moved' : Bucket → Int}

theorem trans (h : l.Moves l' moved) (h' : l'.Moves l'' moved') :
    l.Moves l'' fun i => moved i + moved' i where
  contract := h'.contract.trans h.contract
  repaid i := by rw [h'.repaid, h.repaid, Int.add_assoc]
  completed i := by rw [h'.completed, h.completed, Int.add_assoc]

theorem ledgerGap_eq (h : l.Moves l' moved) (i : Bucket) : l'.ledgerGap i = l.ledgerGap i := by
  have hrepaid := h.repaid i
  have hcompleted := h.completed i
  simp only [ledgerGap]
  omega

end Moves

/-- The amounts in cents that calls post to the loan: those that fit, on installments it has. -/
def postings (l : Loan) (id : LoanId) (rs : List Repayment) : List (Buckets Cents) :=
  rs.filterMap fun r =>
    if r.loan = id ∧ r.installment ∈ l.numbers then (Amounts.toCents r.amount).toOption else none

theorem postings_of_contract_eq (h : l'.contract = l.contract) (id : LoanId)
    (rs : List Repayment) : l'.postings id rs = l.postings id rs := by
  simp only [postings, numbers_of_contract_eq h]

theorem postings_append (l : Loan) (id : LoanId) (rs rs' : List Repayment) :
    l.postings id (rs ++ rs') = l.postings id rs ++ l.postings id rs' :=
  List.filterMap_append

theorem postings_of_ok {r : Repayment} (hmem : r.installment ∈ l.numbers)
    (hcents : Amounts.toCents r.amount = .ok amount) (id : LoanId) :
    l.postings id [r] = if r.loan = id then [amount] else [] := by
  by_cases hloan : r.loan = id <;> simp [postings, hmem, hcents, hloan, Except.toOption]

end Loan

theorem paidSum_append (amounts others : List (Buckets Cents)) (i : Bucket) :
    paidSum (amounts ++ others) i = paidSum amounts i + paidSum others i := by
  simp [paidSum]

/-! ## Books -/

namespace Book

variable {b b' b₁ : Book} {rs rs' : List Repayment} {r : Repayment}

/-- The ledgers of the loans that are called are in range. -/
def HasExactLedgers (b : Book) (rs : List Repayment) : Prop :=
  ∀ r ∈ rs, ∀ l, b.loans.find? r.loan = some l → l.HasExactLedgers

theorem HasExactLedgers.of_subset (h : b.HasExactLedgers rs) (hsubset : rs' ⊆ rs) :
    b.HasExactLedgers rs' :=
  fun r hr => h r (hsubset hr)

/-- What calls do to a book: the ledgers of each loan move by what is posted to it, and nothing
    else changes. -/
structure Posts (b b' : Book) (rs : List Repayment) : Prop where
  products : b'.products = b.products
  loans : ∀ id l, b.loans.find? id = some l →
    ∃ l', b'.loans.find? id = some l' ∧ l.Moves l' (paidSum (l.postings id rs))
  others : ∀ id, (∀ l, b.loans.find? id = some l → l.postings id rs = []) →
    b'.loans.find? id = b.loans.find? id

namespace Posts

/-- Calls that post nothing leave the book as it is. -/
theorem of_nothing (h : ∀ id l, b.loans.find? id = some l → l.postings id rs = []) :
    Posts b b rs where
  products := rfl
  loans id l hl := by
    rw [h id l hl]
    exact ⟨l, hl, l.moves_nothing⟩
  others _ _ := rfl

theorem trans (h : Posts b b₁ rs) (h' : Posts b₁ b' rs') : Posts b b' (rs ++ rs') where
  products := h'.products.trans h.products
  loans id l hl := by
    obtain ⟨l₁, hl₁, hmoves⟩ := h.loans id l hl
    obtain ⟨l', hl', hmoves'⟩ := h'.loans id l₁ hl₁
    refine ⟨l', hl', ?_⟩
    have hpostings := Loan.postings_of_contract_eq hmoves.contract id rs'
    have hsum : paidSum (l.postings id (rs ++ rs')) =
        fun i => paidSum (l.postings id rs) i + paidSum (l₁.postings id rs') i := by
      funext i
      rw [l.postings_append, paidSum_append, hpostings]
    rw [hsum]
    exact hmoves.trans hmoves'
  others id hid := by
    have hboth (l : Loan) (hl : b.loans.find? id = some l) :
        l.postings id rs = [] ∧ l.postings id rs' = [] := by
      have hnothing := hid l hl
      rwa [l.postings_append, List.append_eq_nil_iff] at hnothing
    have hsame := h.others id fun l hl => (hboth l hl).1
    rw [h'.others id fun l hl => (hboth l (hsame ▸ hl)).2, hsame]

end Posts

theorem mem_numbers_of_repay {id : LoanId} {installment : Nat} {amount : Buckets Cents} {l : Loan}
    (h : b.repay id installment amount = .ok b') (hl : b.loans.find? id = some l) :
    installment ∈ l.numbers := by
  simp only [Book.repay, hl] at h
  split at h
  · next hany => simpa [Loan.numbers] using hany
  · cases h

/-- A call posts its amount to an installment that is there, or it fails and posts nothing. -/
theorem call_cases (b : Book) (r : Repayment) :
    (∃ l cents, b.loans.find? r.loan = some l ∧ r.installment ∈ l.numbers ∧
      Amounts.toCents r.amount = .ok cents ∧
      r.write.apply b =
        .ok ⟨b.products, b.loans.put r.loan (l.repay r.installment cents)⟩) ∨
    (∃ e, r.write.apply b = .error e) ∧
      ∀ id l, b.loans.find? id = some l → l.postings id [r] = [] := by
  cases hcents : Amounts.toCents r.amount with
  | error e =>
    refine .inr ⟨⟨e, ?_⟩, fun id l _ => ?_⟩
    · simp only [Repayment.write, LoanWrite.apply, hcents, bind, Except.bind]
    · simp [Loan.postings, hcents, Except.toOption]
  | ok cents =>
    have happly : r.write.apply b = b.repay r.loan r.installment cents := by
      simp only [Repayment.write, LoanWrite.apply, hcents, bind, Except.bind]
    cases hrepay : b.repay r.loan r.installment cents with
    | ok b' =>
      obtain ⟨l, hl, rfl⟩ := exists_of_repay hrepay
      exact .inl ⟨l, cents, hl, mem_numbers_of_repay hrepay hl, rfl, happly.trans hrepay⟩
    | error e =>
      refine .inr ⟨⟨e, happly.trans hrepay⟩, fun id l hl => ?_⟩
      simp only [Loan.postings, List.filterMap_cons, List.filterMap_nil]
      rw [if_neg]
      rintro ⟨rfl, hmem⟩
      obtain ⟨entry, hentry, hnumber⟩ := List.mem_map.1 hmem
      obtain ⟨b', hb'⟩ := exists_repay hl hentry cents
      rw [hnumber, hrepay] at hb'
      cases hb'

/-- A call that posts an amount moves the ledgers of its loan by it. -/
theorem posts_repay {l : Loan} {cents : Buckets Cents} (hl : b.loans.find? r.loan = some l)
    (hmem : r.installment ∈ l.numbers) (hcents : Amounts.toCents r.amount = .ok cents)
    (hmoves : l.Moves (l.repay r.installment cents) fun i => (cents.get i).val) :
    Posts b ⟨b.products, b.loans.put r.loan (l.repay r.installment cents)⟩ [r] := by
  have hfind (id : LoanId) := b.loans.find?_put r.loan id (l.repay r.installment cents)
  refine ⟨rfl, fun id k hk => ?_, fun id hid => ?_⟩
  · by_cases hloan : id = r.loan
    · subst hloan
      cases hk.symm.trans hl
      have hsum : paidSum (l.postings r.loan [r]) = fun i => (cents.get i).val := by
        funext i
        simp [Loan.postings_of_ok hmem hcents, paidSum]
      rw [hsum]
      exact ⟨_, (hfind r.loan).trans (if_pos rfl), hmoves⟩
    · have hpostings : k.postings id [r] = [] := by
        simp [Loan.postings, Ne.symm hloan]
      rw [hpostings]
      exact ⟨k, (hfind id).trans ((if_neg hloan).trans hk), k.moves_nothing⟩
  · refine (hfind id).trans (if_neg ?_)
    rintro rfl
    have hpostings := hid l hl
    rw [Loan.postings_of_ok hmem hcents, if_pos rfl] at hpostings
    cases hpostings

theorem posts_of_call (hnumbered : b.HasNumberedSchedules) (hexact : b.HasExactLedgers [r])
    (hexact' : ((r.write.apply b).toOption.getD b).HasExactLedgers [r]) :
    Posts b ((r.write.apply b).toOption.getD b) [r] := by
  rcases b.call_cases r with ⟨l, cents, hl, hmem, hcents, happly⟩ | ⟨⟨e, happly⟩, hnothing⟩
  · rw [happly] at hexact' ⊢
    have hr : r ∈ [r] := List.mem_singleton_self r
    have hself := b.loans.find?_put r.loan r.loan (l.repay r.installment cents)
    rw [if_pos rfl] at hself
    exact posts_repay hl hmem hcents (Loan.moves_repay (hnumbered _ _ hl) hmem (hexact r hr l hl)
      (hexact' r hr _ hself))
  · rw [happly]
    exact .of_nothing hnothing

theorem hasNumberedSchedules_of_call (h : b.HasNumberedSchedules) (r : Repayment) :
    ((r.write.apply b).toOption.getD b).HasNumberedSchedules := by
  rcases b.call_cases r with ⟨l, cents, hl, -, -, happly⟩ | ⟨⟨e, happly⟩, -⟩
  · rw [happly]
    exact h.update hl (l.numbers_repay r.installment cents)
  · rw [happly]
    exact h

/-- Calls that keep the ledgers in range move them by what is posted. -/
theorem posts_after (hnumbered : b.HasNumberedSchedules)
    (hexact : ∀ posted, posted <+: rs → (b.after (posted.map (·.write))).HasExactLedgers rs) :
    Posts b (b.after (rs.map (·.write))) rs := by
  induction rs generalizing b with
  | nil => exact .of_nothing fun _ _ _ => rfl
  | cons r rs ih =>
    have hfirst : [r] ⊆ r :: rs := by simp
    have hcall := posts_of_call hnumbered ((hexact [] List.nil_prefix).of_subset hfirst)
      ((hexact [r] ((List.prefix_cons_inj r).2 List.nil_prefix)).of_subset hfirst)
    have hrest := ih (hasNumberedSchedules_of_call hnumbered r) fun posted hposted =>
      (hexact (r :: posted) ((List.prefix_cons_inj r).2 hposted)).of_subset
        (List.subset_cons_self r rs)
    exact hcall.trans hrest

end Book

/-! ## Stores -/

/-- A repayment that fails leaves the store as it was, whatever it holds. -/
theorem Store.eq_of_repay_error {s s' : Store} {id : LoanId} {installment : Nat}
    {amount : Amounts} {f : Fault}
    (h : (Store.repay id installment amount : Act Store Unit).exec s = (.error f, s')) :
    s' = s := by
  obtain ⟨_ | ⟨b, t⟩, tx⟩ := s
  · unfold Store.repay at h
    cases hcents : Amounts.toCents amount with
    | error e =>
      rw [hcents] at h
      cases h
      rfl
    | ok cents =>
      rw [hcents] at h
      cases h
      rfl
  · change (LoanWrite.repay id installment amount).act.exec _ = _ at h
    rw [Store.exec_act] at h
    split at h
    · cases h
    · cases h
      rfl

/-- Over any sequence of repayments, each succeeding or failing, that keeps the ledgers in range,
    the gap between the two ledgers of every loan stays as it is, and so does all that repayments
    do not write. Both ledgers move by what is posted to the loan; a loan to which nothing is
    posted is untouched, and so are products, arrears and, by a call that fails, the store. -/
theorem repayments_keep_ledgers {b : Book} (hnumbered : b.HasNumberedSchedules) (t : ArrearsTable)
    (tx : Bool) (rs : List Repayment)
    (hrange : ∀ posted, posted <+: rs → (b.after (posted.map (·.write))).HasExactLedgers rs) :
    (∃ b', Store.after ⟨some ⟨b, t⟩, tx⟩ (rs.map (·.write)) = ⟨some ⟨b', t⟩, tx⟩ ∧
      b'.products = b.products ∧
      (∀ id l, b.loans.find? id = some l → ∃ l', b'.loans.find? id = some l' ∧
        l'.contract = l.contract ∧
        ∀ i, l'.ledgerGap i = l.ledgerGap i ∧
          (l'.repaid.get i).val = (l.repaid.get i).val + paidSum (l.postings id rs) i) ∧
      ∀ id, (∀ l, b.loans.find? id = some l → l.postings id rs = []) →
        b'.loans.find? id = b.loans.find? id) ∧
    ∀ (s s' : Store) (id : LoanId) (installment : Nat) (amount : Amounts) (f : Fault),
      (Store.repay id installment amount : Act Store Unit).exec s = (.error f, s') → s' = s := by
  refine ⟨?_, fun s s' id installment amount f h => Store.eq_of_repay_error h⟩
  have hposts := Book.posts_after hnumbered hrange
  refine ⟨_, Store.after_eq b t tx _, hposts.products, fun id l hl => ?_, hposts.others⟩
  obtain ⟨l', hl', hmoves⟩ := hposts.loans id l hl
  exact ⟨l', hl', hmoves.contract, fun i => ⟨hmoves.ledgerGap_eq i, hmoves.repaid i⟩⟩

namespace Sample

/-- Loan 1 repays 40, misses two installments that are not there and has 100 taken back. -/
def mixedCalls : List Repayment :=
  [⟨1, 1, forty⟩, ⟨1, 9, forty⟩, ⟨2, 1, forty⟩, ⟨1, 1, minusHundred⟩]

theorem hasExactLedgers_after {posted : List Repayment} (h : posted <+: mixedCalls) :
    ((book 2).after (posted.map (·.write))).HasExactLedgers mixedCalls := by
  intro r _ l hl
  have hrows : ∀ posted ∈ mixedCalls.inits,
      ∀ row ∈ ((book 2).after (posted.map (·.write))).loans.rows, row.2.HasExactLedgers := by
    decide
  exact hrows posted ((List.mem_inits _ _).2 h) _ (Table.find?_eq_some_iff.1 hl)

end Sample

/-- Forty less a hundred is posted to loan 1, and the gap between its ledgers stays zero. -/
theorem repayments_keep_ledgers_sample :
    ∃ b' l', Store.after ⟨some ⟨Sample.book 2, Table.empty⟩, false⟩
        (Sample.mixedCalls.map (·.write)) = ⟨some ⟨b', Table.empty⟩, false⟩ ∧
      b'.loans.find? 1 = some l' ∧ (∀ i, l'.ledgerGap i = 0) ∧
      (l'.repaid.get .principal).val = -6000 ∧
      b'.loans.find? 2 = (Sample.book 2).loans.find? 2 := by
  obtain ⟨⟨b', hb', -, hloans, hothers⟩, -⟩ := repayments_keep_ledgers
    (Sample.isBuilt_book (by decide)).hasNumberedSchedules Table.empty false Sample.mixedCalls
    fun _ => Sample.hasExactLedgers_after
  obtain ⟨l', hl', -, hledgers⟩ := hloans 1 Sample.liveLoan rfl
  refine ⟨b', l', hb', hl', fun i => (hledgers i).1.trans ?_, (hledgers .principal).2.trans ?_,
    hothers 2 ?_⟩
  · cases i <;> rfl
  · decide
  · rintro l hl
    cases hl
    rfl

end LoanArrears
