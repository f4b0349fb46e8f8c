-- SUMMARY: The order of events matters loan by loan: the last trigger of a loan decides about its row, and what is recomputed at all decides whether the delivery fails.
import LoanArrears.Proofs.Store.Keeping
import LoanArrears.Proofs.Subscription.Coherence

/-!
# The order of events

A trigger recomputes its loan from the loan book alone and sets the row whatever was there, so
what a list of events leaves is decided loan by loan by the last trigger of the loan. The list
fails as soon as one of its loans cannot be recomputed, wherever that one stands. So events can
be reordered as long as every loan keeps its last trigger.
-/

namespace LoanArrears

/-! ## Recomputing from the book alone -/

/-- The loans that the events recompute and the modes they do it in, in order: a loan that was
    disbursed is aged by its live schedule, whatever its product says. -/
def recomputedBy (events : List LoanEvent) : List (LoanId × AgingMode) :=
  (events.filter (·.kind.isTrigger)).map fun e =>
    (e.loan, if e.kind = .disbursed then .forceLive else .auto)

theorem recomputedBy_cons (e : LoanEvent) (events : List LoanEvent) :
    recomputedBy (e :: events) =
      (if e.kind.isTrigger then [(e.loan, e.kind.agingMode)] else []) ++ recomputedBy events := by
  rw [EventKind.agingMode_eq]
  by_cases h : e.kind.isTrigger <;> simp [recomputedBy, h]

theorem lastTrigger?_eq_none_of_recomputedBy {events : List LoanEvent}
    (h : recomputedBy events = []) (loan : LoanId) : lastTrigger? events loan = none := by
  simp only [recomputedBy, List.map_eq_nil_iff, List.filter_eq_nil_iff] at h
  simp only [lastTrigger?, List.getLast?_eq_none_iff, List.filter_eq_nil_iff, Bool.and_eq_true]
  rintro e he ⟨-, htrigger⟩
  exact h e he htrigger

namespace Store

variable {s s' s₁ s₂ : Store} {loan : LoanId} {today : Date} {mode : AgingMode}

/-- The loan book of a store that is migrated. -/
def book? (s : Store) : Option Book :=
  s.tables.map (·.book)

/-- The write of the loan can be computed on the store and leaves an entry that can be stored. -/
def CanRecompute (s : Store) (today : Date) (loan : LoanId) (mode : AgingMode) : Prop :=
  ∃ w entry, ((computeWrite loan today mode : Act Store ArrearsWrite).exec s).1 = .ok w ∧
    w.entryLeft = .ok entry

theorem computeWrite_of_book?_eq (h : s'.book? = s.book?) (loan : LoanId) (today : Date)
    (mode : AgingMode) :
    ((computeWrite loan today mode : Act Store ArrearsWrite).exec s').1 =
      ((computeWrite loan today mode : Act Store ArrearsWrite).exec s).1 := by
  obtain ⟨_ | ⟨b, t⟩, tx⟩ := s
  · obtain ⟨_ | ⟨b', t'⟩, tx'⟩ := s'
    · rfl
    · cases h
  · obtain ⟨_ | ⟨b', t'⟩, tx'⟩ := s'
    · cases h
    · cases h
      have hbook : HasBook ⟨some ⟨b, t⟩, tx⟩ b := ⟨t, rfl⟩
      have hbook' : HasBook ⟨some ⟨b, t'⟩, tx'⟩ b := ⟨t', rfl⟩
      rw [hbook'.computeWrite_eq, hbook.computeWrite_eq]

theorem canRecompute_of_book?_eq (h : s'.book? = s.book?) :
    s'.CanRecompute today loan mode ↔ s.CanRecompute today loan mode := by
  simp only [CanRecompute, computeWrite_of_book?_eq h]

theorem not_canRecompute_unmigrated {tx : Bool} : ¬ CanRecompute ⟨none, tx⟩ today loan mode := by
  rintro ⟨w, entry, hw, -⟩
  cases hw

/-- A loan that can be recomputed is, and the book stays; otherwise the store stays. -/
theorem recompute_cases_of_book (s : Store) (today : Date) (loan : LoanId) (mode : AgingMode) :
    (s.CanRecompute today loan mode ∧ ∃ w s', s'.book? = s.book? ∧
      (recompute loan today mode : Act Store ArrearsWrite).exec s = (.ok w, s')) ∨
    (¬ s.CanRecompute today loan mode ∧ ∃ f,
      (recompute loan today mode : Act Store ArrearsWrite).exec s = (.error f, s)) := by
  obtain ⟨_ | ⟨b, t⟩, tx⟩ := s
  · exact .inr ⟨not_canRecompute_unmigrated, _, rfl⟩
  have hcan : CanRecompute ⟨some ⟨b, t⟩, tx⟩ today loan mode ↔
      ∃ w entry, b.writeOf loan today mode = .ok w ∧ w.entryLeft = .ok entry := by
    rw [CanRecompute, HasBook.computeWrite_eq ⟨t, rfl⟩]
  cases hw : b.writeOf loan today mode with
  | error f =>
    refine .inr ⟨fun h => ?_, f, exec_recompute_error hw⟩
    obtain ⟨w, entry, hw', -⟩ := hcan.1 h
    cases hw.symm.trans hw'
  | ok w =>
    cases hentry : w.entryLeft with
    | error f =>
      refine .inr ⟨fun h => ?_, f, exec_recompute_refused hw hentry⟩
      obtain ⟨w', entry, hw', hentry'⟩ := hcan.1 h
      cases hw.symm.trans hw'
      cases hentry.symm.trans hentry'
    | ok entry =>
      exact .inl ⟨hcan.2 ⟨w, entry, hw, hentry⟩, w, ⟨some ⟨b, t.set w.loan entry⟩, tx⟩, rfl,
        exec_recompute_ok hw hentry⟩

/-- The store after events that are all delivered: the row of a loan is what its last trigger
    computes over the book, and all else is as it was. -/
structure TakesLast (s s' : Store) (today : Date) (events : List LoanEvent) : Prop where
  inTransaction : s'.inTransaction = s.inTransaction
  book : s'.book? = s.book?
  others : ∀ loan, lastTrigger? events loan = none → s'.arrears.find? loan = s.arrears.find? loan
  recomputed : ∀ loan e, lastTrigger? events loan = some e →
    ∃ w, ((computeWrite loan today (if e.kind = .disbursed then .forceLive else .auto) :
        Act Store ArrearsWrite).exec s).1 = .ok w ∧
      w.entryLeft = .ok (s'.arrears.find? loan)

/-- The last triggers decide about the store that is left. -/
theorem TakesLast.unique {events events' : List LoanEvent} (h₁ : s.TakesLast s₁ today events)
    (h₂ : s.TakesLast s₂ today events')
    (hlast : ∀ loan, lastTrigger? events' loan = lastTrigger? events loan) : s₂ = s₁ := by
  have hfind (loan : LoanId) : s₂.arrears.find? loan = s₁.arrears.find? loan := by
    cases htrigger : lastTrigger? events loan with
    | none => rw [h₂.others loan ((hlast loan).trans htrigger), h₁.others loan htrigger]
    | some e =>
      obtain ⟨w₁, hw₁, hentry₁⟩ := h₁.recomputed loan e htrigger
      obtain ⟨w₂, hw₂, hentry₂⟩ := h₂.recomputed loan e ((hlast loan).trans htrigger)
      cases hw₁.symm.trans hw₂
      exact Except.ok.inj (hentry₂.symm.trans hentry₁)
  have hbook := h₂.book.trans h₁.book.symm
  have htx := h₂.inTransaction.trans h₁.inTransaction.symm
  obtain ⟨_ | ⟨b₁, t₁⟩, tx₁⟩ := s₁
  · obtain ⟨_ | ⟨b₂, t₂⟩, tx₂⟩ := s₂
    · cases htx
      rfl
    · cases hbook
  · obtain ⟨_ | ⟨b₂, t₂⟩, tx₂⟩ := s₂
    · cases hbook
    · cases hbook
      cases htx
      have htable : t₂ = t₁ := Table.ext_find? hfind
      rw [htable]

end Store

/-! ## Delivery -/

namespace Subscriptions

variable {s s' : Store} {today : Date} {e : LoanEvent} {events : List LoanEvent}

/-- Deliver events in order; the first error ends it. -/
def deliverAll (t : Subscriptions σ) (events : List LoanEvent) : Act σ Unit :=
  events.forM fun e => discard (t.deliver e)

theorem deliverAll_cons (t : Subscriptions σ) (e : LoanEvent) (events : List LoanEvent) :
    t.deliverAll (e :: events) = discard (t.deliver e) >>= fun _ => t.deliverAll events :=
  rfl

/-- Events are all delivered exactly if every loan can be recomputed in every mode asked for. -/
theorem exec_deliverAll_ok_iff (s : Store) (today : Date) (events : List LoanEvent) :
    (((standard fun _ => today).deliverAll events : Act Store Unit).exec s).1 = .ok () ↔
      ∀ asked ∈ recomputedBy events, s.CanRecompute today asked.1 asked.2 := by
  induction events generalizing s with
  | nil => exact ⟨fun _ _ h => absurd h List.not_mem_nil, fun _ => rfl⟩
  | cons e events ih =>
    rw [deliverAll_cons, recomputedBy_cons]
    cases htrigger : e.kind.isTrigger with
    | false =>
      rw [Act.exec_bind_ok (exec_deliver_of_not_trigger htrigger s), ih s]
      rfl
    | true =>
      have hdeliver : (discard ((standard fun _ => today).deliver e) : Act Store Unit).exec s = _ :=
        exec_deliver_of_trigger htrigger s
      rcases s.recompute_cases_of_book today e.loan e.kind.agingMode with
        ⟨hcan, w, s', hbook, hexec⟩ | ⟨hcannot, f, hexec⟩
      · -- The rest sees the same book, so the same loans can be recomputed.
        rw [hexec] at hdeliver
        rw [Act.exec_bind_ok hdeliver, ih s']
        simp [Store.canRecompute_of_book?_eq hbook, hcan]
      · rw [hexec] at hdeliver
        rw [Act.exec_bind_error hdeliver]
        simp [hcannot]

/-- Events without a trigger leave the store as it is. -/
theorem exec_deliverAll_of_recomputedBy (h : recomputedBy events = []) (s : Store) :
    ((standard fun _ => today).deliverAll events : Act Store Unit).exec s = (.ok (), s) := by
  induction events with
  | nil => rfl
  | cons e events ih =>
    rw [recomputedBy_cons, List.append_eq_nil_iff] at h
    cases htrigger : e.kind.isTrigger with
    | false =>
      rw [deliverAll_cons, Act.exec_bind_ok (exec_deliver_of_not_trigger htrigger s)]
      exact ih h.2
    | true => simp [htrigger] at h

theorem takesLast_of_exec
    (h : ((standard fun _ => today).deliverAll events : Act Store Unit).exec s = (.ok (), s')) :
    s.TakesLast s' today events := by
  obtain ⟨_ | ⟨b, t⟩, tx⟩ := s
  · -- Nothing can be recomputed before the migration, so there is no trigger.
    have hnone : recomputedBy events = [] := by
      rw [List.eq_nil_iff_forall_not_mem]
      intro asked hasked
      have hall := (exec_deliverAll_ok_iff ⟨none, tx⟩ today events).1 (by rw [h])
      exact Store.not_canRecompute_unmigrated (hall asked hasked)
    cases (exec_deliverAll_of_recomputedBy hnone _).symm.trans h
    refine ⟨rfl, rfl, fun _ _ => rfl, fun loan e he => ?_⟩
    cases (lastTrigger?_eq_none_of_recomputedBy hnone loan).symm.trans he
  · obtain ⟨t', rfl, hdelivers⟩ := exists_of_exec_events h
    refine ⟨rfl, rfl, fun loan hlast => ?_, fun loan e hlast => ?_⟩
    · have hloan := hdelivers loan
      rw [hlast] at hloan
      exact hloan
    · have hloan := hdelivers loan
      rw [hlast] at hloan
      rw [← EventKind.agingMode_eq, Store.HasBook.computeWrite_eq ⟨t, rfl⟩]
      exact hloan

end Subscriptions

/-- Events are all delivered exactly if every loan that they recompute can be recomputed over the
    book, so this depends on the loans and modes only. Then the book and the rows of loans without
    a trigger stay, every other loan has what is computed over the book in the mode of its last
    trigger, off the live schedule for a disbursal and automatically for all others, and any order
    of the events that keeps the last trigger of every loan leaves the same store. -/
theorem event_order_matters_per_loan (s : Store) (today : Date) (events : List LoanEvent) :
    let deliverAll (events : List LoanEvent) : Act Store Unit :=
      (Subscriptions.standard fun _ => today).deliverAll events
    (((deliverAll events).exec s).1 = .ok () ↔
      ∀ asked ∈ recomputedBy events, s.CanRecompute today asked.1 asked.2) ∧
    (∀ events', (∀ asked, asked ∈ recomputedBy events' ↔ asked ∈ recomputedBy events) →
      (((deliverAll events').exec s).1 = .ok () ↔ ((deliverAll events).exec s).1 = .ok ())) ∧
    ∀ s', (deliverAll events).exec s = (.ok (), s') →
      s.TakesLast s' today events ∧
      ∀ events' : List LoanEvent, events'.Perm events →
        (∀ loan, lastTrigger? events' loan = lastTrigger? events loan) →
          (deliverAll events').exec s = (.ok (), s') := by
  intro deliverAll
  have hasks (events : List LoanEvent) : ((deliverAll events).exec s).1 = .ok () ↔
      ∀ asked ∈ recomputedBy events, s.CanRecompute today asked.1 asked.2 :=
    Subscriptions.exec_deliverAll_ok_iff s today events
  have hset (events' : List LoanEvent)
      (hasked : ∀ asked, asked ∈ recomputedBy events' ↔ asked ∈ recomputedBy events) :
      ((deliverAll events').exec s).1 = .ok () ↔ ((deliverAll events).exec s).1 = .ok () := by
    simp only [hasks, hasked]
  refine ⟨hasks events, hset, fun s' hexec => ⟨Subscriptions.takesLast_of_exec hexec, ?_⟩⟩
  intro events' hperm hlast
  have hasked : (recomputedBy events').Perm (recomputedBy events) :=
    (hperm.filter _).map _
  have hok : ((deliverAll events').exec s).1 = .ok () :=
    (hset events' fun asked => hasked.mem_iff).2 (by rw [hexec])
  rcases hexec' : (deliverAll events').exec s with ⟨r, s''⟩
  rw [hexec'] at hok
  cases hok
  have hunique := (Subscriptions.takesLast_of_exec hexec).unique
    (Subscriptions.takesLast_of_exec hexec') hlast
  rw [hunique]

namespace Sample

/-- Loan 2 repays and is disbursed, and loan 1 is charged a fee; loan 2 is approved as well. -/
def events : List LoanEvent :=
  [.repaymentPosted 2 2, .chargeAdded 1 3, .disbursed 2 1, .loanApproved 2]

/-- The same with loan 1 behind. -/
def reordered : List LoanEvent :=
  [.loanApproved 2, .repaymentPosted 2 2, .disbursed 2 1, .chargeAdded 1 3]

theorem lastTrigger?_reordered (loan : LoanId) :
    lastTrigger? reordered loan = lastTrigger? events loan := by
  by_cases h₁ : loan = 1
  · subst h₁
    rfl
  by_cases h₂ : loan = 2
  · subst h₂
    rfl
  simp [lastTrigger?, reordered, events, LoanEvent.loan, Ne.symm h₁, Ne.symm h₂]

end Sample

/-- Loan 2 has a planned schedule only. Its disbursal, behind its repayment, leaves it without a
    row, and so do the reordered events. The other way round the repayment leaves the row of 100. -/
theorem event_order_matters_per_loan_sample :
    let deliverAll (events : List LoanEvent) : Act Store Unit :=
      (Subscriptions.standard fun _ => Sample.today).deliverAll events
    let s : Store := ⟨some ⟨Sample.book 2, Table.empty⟩, false⟩
    ∃ s' s'' entry, (deliverAll Sample.events).exec s = (.ok (), s') ∧
      (deliverAll Sample.reordered).exec s = (.ok (), s') ∧ s'.arrears.find? 2 = none ∧
      (deliverAll Sample.events.reverse).exec s = (.ok (), s'') ∧
      s''.arrears.find? 2 = some entry ∧ entry.overdue = exactly Sample.hundredCents := by
  intro deliverAll s
  let row (loan : LoanId) : ArrearsWrite :=
    .upsert ⟨loan, Amounts.ofCents Sample.hundredCents, Sample.dueDate⟩
  have hforced : ((computeWrite 2 Sample.today .forceLive : Act Store ArrearsWrite).exec s).1 =
      .ok (.delete 2) := by decide +kernel
  have hplanned : ((computeWrite 2 Sample.today .auto : Act Store ArrearsWrite).exec s).1 =
      .ok (row 2) := by decide +kernel
  have hlive : ((computeWrite 1 Sample.today .auto : Act Store ArrearsWrite).exec s).1 =
      .ok (row 1) := by decide +kernel
  have hcan : ∀ asked ∈ recomputedBy Sample.events,
      s.CanRecompute Sample.today asked.1 asked.2 := by
    intro asked hasked
    have hcases : asked ∈ [((2 : LoanId), AgingMode.auto), (1, .auto), (2, .forceLive)] := hasked
    simp only [List.mem_cons, List.not_mem_nil, or_false] at hcases
    rcases hcases with rfl | rfl | rfl
    · exact ⟨_, _, hplanned, rfl⟩
    · exact ⟨_, _, hlive, rfl⟩
    · exact ⟨_, _, hforced, rfl⟩
  have hreverse : ∀ asked, asked ∈ recomputedBy Sample.events.reverse ↔
      asked ∈ recomputedBy Sample.events := by
    intro asked
    simp only [recomputedBy, List.filter_reverse, List.map_reverse, List.mem_reverse]
  obtain ⟨hdelivered, hset, hafter⟩ := event_order_matters_per_loan s Sample.today Sample.events
  obtain ⟨-, -, hafter'⟩ := event_order_matters_per_loan s Sample.today Sample.events.reverse
  have hok := hdelivered.2 hcan
  have hok' := (hset _ hreverse).2 hok
  rcases hexec : (deliverAll Sample.events).exec s with ⟨r, s'⟩
  rcases hexec' : (deliverAll Sample.events.reverse).exec s with ⟨r', s''⟩
  rw [hexec] at hok
  rw [hexec'] at hok'
  cases hok
  cases hok'
  obtain ⟨htakes, hreorder⟩ := hafter s' hexec
  obtain ⟨htakes', -⟩ := hafter' s'' hexec'
  obtain ⟨w, hw, hentry⟩ := htakes.recomputed 2 (.disbursed 2 1) rfl
  obtain ⟨w', hw', hentry'⟩ := htakes'.recomputed 2 (.repaymentPosted 2 2) rfl
  cases hforced.symm.trans hw
  cases hplanned.symm.trans hw'
  exact ⟨s', s'', _, rfl, hreorder Sample.reordered (by decide) Sample.lastTrigger?_reordered,
    (Except.ok.inj hentry).symm, rfl, (Except.ok.inj hentry').symm, rfl⟩

end LoanArrears
