-- SUMMARY: The arrears table stays coherent with the loan book over runs of business operations, and a failed call changes nothing.
import LoanArrears.Proofs.Book.Table
import LoanArrears.Proofs.Book.Writes
import LoanArrears.Subscription

/-!
# Coherence

A store is coherent at a business date if its arrears table has, under every loan whose write
can be computed, what that write leaves. An operation `Announces` its changes if they are
changes of the loan module and every loan it changes has a trigger among its events, the last
of which computes the write as the full rules do. Then a call leaves a coherent store: the
loans with a trigger are recomputed, and all others are as they were.
-/

namespace LoanArrears

/-- The store is migrated, and every loan whose write can be computed has in the arrears table
    what the write leaves. -/
def Store.IsCoherent (s : Store) (today : Date) : Prop :=
  ∃ b t, s.tables = some ⟨b, t⟩ ∧ ∀ loan w,
    ((computeWrite loan today .auto).exec s).1 = .ok w → w.entryLeft = .ok (t.find? loan)

/-- Every loan of the store refers to a product, as a loan has to when it is added. -/
def Store.HasReferences (s : Store) : Prop :=
  ∀ b, s.HasBook b → b.HasReferences

/-- The last trigger among the events of a loan. -/
def lastTrigger? (events : List LoanEvent) (loan : LoanId) : Option LoanEvent :=
  (events.filter fun e => e.loan = loan && e.kind.isTrigger).getLast?

/-- A run of the operation in a transaction on the store changes the loan book only, by writes
    of the loan module; every loan it changes has a trigger, and the last one of a loan is no
    disbursal if the loan replays its planned schedule. -/
def Announces (operation : Act Store (α × List LoanEvent)) (s : Store) : Prop :=
  ∀ answer events t, operation.exec { s with inTransaction := true } = (.ok (answer, events), t) →
    (∃ ws, t = Store.after { s with inTransaction := true } ws) ∧
    ∀ b b', s.HasBook b → t.HasBook b' → ∀ loan,
      (b'.loans.find? loan ≠ b.loans.find? loan → (lastTrigger? events loan).isSome) ∧
      ∀ e, lastTrigger? events loan = some e → e.kind = .disbursed → ¬ b'.Replays loan

/-- Stores that are reached from the first one by calls of operations that announce their
    changes, with their events delivered to the arrears listener at a fixed date. -/
inductive Calls (today : Date) (s : Store) : Store → Prop where
  | none : Calls today s s
  | call {α : Type} {t : Store} (operation : Act Store (α × List LoanEvent))
    (before : Calls today s t) (announces : Announces operation t) :
    Calls today s (((Subscriptions.standard fun _ => today).perform operation).exec t).2

/-! ## Delivery -/

theorem lastTrigger?_cons (e : LoanEvent) (events : List LoanEvent) (loan : LoanId) :
    lastTrigger? (e :: events) loan =
      (lastTrigger? events loan).or
        (if e.loan = loan && e.kind.isTrigger then some e else none) := by
  unfold lastTrigger?
  rw [List.filter_cons]
  split
  · rw [List.getLast?_cons]
    cases (events.filter fun e => e.loan = loan && e.kind.isTrigger).getLast? <;> rfl
  · rw [Option.or_none]

namespace Subscriptions

/-- Run an operation and deliver its events: what a call does within its transaction. -/
def delivering (t : Subscriptions σ) (operation : Act σ (α × List LoanEvent)) : Act σ α := do
  let (answer, events) ← operation
  events.forM fun e => discard (t.deliver e)
  return answer

variable {b : Book} {t : ArrearsTable} {tx : Bool} {today : Date}

theorem listeners_standard [BookAccess σ] [ArrearsAccess σ] (today : σ → Date) (k : EventKind) :
    (standard today).listeners k = if k.isTrigger then [.arrearsAging today] else [] := by
  cases k <;> rfl

theorem exec_deliver_of_not_trigger {e : LoanEvent} (h : e.kind.isTrigger = false) (s : Store) :
    (discard ((standard fun _ => today).deliver e) : Act Store Unit).exec s = (.ok (), s) := by
  rw [deliver, listeners_standard, h]
  rfl

theorem exec_deliver_of_trigger {e : LoanEvent} (h : e.kind.isTrigger = true) (s : Store) :
    (discard ((standard fun _ => today).deliver e) : Act Store Unit).exec s =
      match (recompute e.loan today e.kind.agingMode).exec s with
      | (.ok _, s') => (.ok (), s')
      | (.error f, s') => (.error f, s') := by
  rw [deliver, listeners_standard, h]
  show ((fun _ => ()) <$> (((recompute e.loan today e.kind.agingMode >>= fun _ => pure ()) >>=
    fun _ => pure ()) >>= fun _ => pure 1) : Act Store Unit).exec s = _
  rw [Act.exec_map, Act.exec_bind, Act.exec_bind, Act.exec_bind]
  rcases (recompute e.loan today e.kind.agingMode).exec s with ⟨_ | _, _⟩ <;> rfl

/-- A trigger that is delivered sets what the write of its loan leaves. -/
theorem exists_of_exec_deliver {e : LoanEvent} (h : e.kind.isTrigger = true) {s : Store}
    (hexec : (discard ((standard fun _ => today).deliver e) : Act Store Unit).exec
      ⟨some ⟨b, t⟩, tx⟩ = (.ok (), s)) :
    ∃ w entry, b.writeOf e.loan today e.kind.agingMode = .ok w ∧ w.entryLeft = .ok entry ∧
      s = ⟨some ⟨b, t.set e.loan entry⟩, tx⟩ := by
  rw [exec_deliver_of_trigger h] at hexec
  rcases hrun : (recompute e.loan today e.kind.agingMode : Act Store ArrearsWrite).exec
      ⟨some ⟨b, t⟩, tx⟩ with ⟨r, s'⟩
  rw [hrun] at hexec
  cases r with
  | error f => cases hexec
  | ok w =>
    cases hexec
    obtain ⟨entry, hw, hentry, hs⟩ := Store.exec_recompute_eq_ok hrun
    rw [Book.loan_of_writeOf hw] at hs
    exact ⟨w, entry, hw, hentry, hs⟩

/-- Delivering events leaves the table `t'` of `t`: under each loan with a trigger there is what
    the write of its last one leaves, and all others are as they were. -/
def Delivers (b : Book) (today : Date) (events : List LoanEvent) (t t' : ArrearsTable) : Prop :=
  ∀ loan, match lastTrigger? events loan with
    | some e => ∃ w, b.writeOf loan today e.kind.agingMode = .ok w ∧
        w.entryLeft = .ok (t'.find? loan)
    | none => t'.find? loan = t.find? loan

namespace Delivers

variable {e : LoanEvent} {events : List LoanEvent} {t' : ArrearsTable}

theorem cons_of_not_trigger (he : e.kind.isTrigger = false) (h : Delivers b today events t t') :
    Delivers b today (e :: events) t t' := by
  intro loan
  have hlast : lastTrigger? (e :: events) loan = lastTrigger? events loan := by
    rw [lastTrigger?_cons, he, Bool.and_false]
    exact Option.or_none
  rw [hlast]
  exact h loan

/-- The write of a trigger lasts for a loan that has no later one. -/
theorem cons_of_trigger (he : e.kind.isTrigger = true) {w : ArrearsWrite}
    {entry : Option ArrearsEntry} (hw : b.writeOf e.loan today e.kind.agingMode = .ok w)
    (hentry : w.entryLeft = .ok entry) (h : Delivers b today events (t.set e.loan entry) t') :
    Delivers b today (e :: events) t t' := by
  intro loan
  have hloan := h loan
  rw [lastTrigger?_cons, he, Bool.and_true]
  cases hlast : lastTrigger? events loan with
  | some e' =>
    rw [hlast] at hloan
    exact hloan
  | none =>
    -- No later trigger has the loan, so the row that `e` set is the last one.
    rw [hlast] at hloan
    dsimp only at hloan
    rw [ArrearsTable.find?_set] at hloan
    by_cases heq : e.loan = loan
    · rw [if_pos heq.symm] at hloan
      rw [decide_eq_true heq]
      exact ⟨w, heq ▸ hw, hloan ▸ hentry⟩
    · rw [if_neg (Ne.symm heq)] at hloan
      rw [decide_eq_false heq]
      exact hloan

end Delivers

/-- Events that are all delivered leave what `Delivers` says, and nothing else changes. -/
theorem exists_of_exec_events {events : List LoanEvent} {s : Store}
    (h : (events.forM fun e => discard ((standard fun _ => today).deliver e) : Act Store Unit).exec
      ⟨some ⟨b, t⟩, tx⟩ = (.ok (), s)) :
    ∃ t', s = ⟨some ⟨b, t'⟩, tx⟩ ∧ Delivers b today events t t' := by
  induction events generalizing t with
  | nil =>
    cases h
    exact ⟨t, rfl, fun loan => rfl⟩
  | cons e events ih =>
    have hcons : ((e :: events).forM fun e => discard ((standard fun _ => today).deliver e) :
        Act Store Unit) = (discard ((standard fun _ => today).deliver e) >>= fun _ =>
          events.forM fun e => discard ((standard fun _ => today).deliver e)) := rfl
    rw [hcons] at h
    cases htrigger : e.kind.isTrigger with
    | false =>
      rw [Act.exec_bind_ok (exec_deliver_of_not_trigger htrigger _)] at h
      obtain ⟨t', hs, hdelivers⟩ := ih h
      exact ⟨t', hs, hdelivers.cons_of_not_trigger htrigger⟩
    | true =>
      rcases hrun : (discard ((standard fun _ => today).deliver e) : Act Store Unit).exec
          ⟨some ⟨b, t⟩, tx⟩ with ⟨_ | _, s₁⟩
      · rw [Act.exec_bind_error hrun] at h
        cases h
      obtain ⟨w, entry, hw, hentry, rfl⟩ := exists_of_exec_deliver htrigger hrun
      rw [Act.exec_bind_ok hrun] at h
      obtain ⟨t', hs, hdelivers⟩ := ih h
      exact ⟨t', hs, hdelivers.cons_of_trigger htrigger hw hentry⟩

end Subscriptions

/-! ## Calls -/

/-- For a loan that does not replay its planned schedule all modes are the same. -/
theorem Book.writeOf_agingMode {b : Book} {loan : LoanId} {today : Date} {k : EventKind}
    (h : k = .disbursed → ¬ b.Replays loan) :
    b.writeOf loan today k.agingMode = b.writeOf loan today .auto := by
  by_cases hk : k = .disbursed
  · cases hterms : b.terms loan with
    | error e => rw [writeOf_of_terms_error hterms, writeOf_of_terms_error hterms]
    | ok terms =>
      have hlive : ¬ terms.replaysPlanned := fun hreplays => h hk ⟨terms, hterms, hreplays⟩
      have hforced : ¬(k.agingMode = .auto ∧ terms.replaysPlanned) := fun hmode => hlive hmode.2
      have hauto : ¬(AgingMode.auto = .auto ∧ terms.replaysPlanned) := fun hmode => hlive hmode.2
      rw [writeOf_of_terms hterms, writeOf_of_terms hterms, activeWriteOf_live hforced,
        activeWriteOf_live hauto]
  · have hauto : k.agingMode = .auto := by
      cases k with
      | disbursed => exact absurd rfl hk
      | _ => rfl
    rw [hauto]

namespace Store

variable {b : Book} {t : ArrearsTable} {tx : Bool} {today : Date}

theorem isCoherent_iff :
    IsCoherent ⟨some ⟨b, t⟩, tx⟩ today ↔
      ∀ loan w, b.writeOf loan today .auto = .ok w → w.entryLeft = .ok (t.find? loan) := by
  have hreads (loan : LoanId) : ((computeWrite loan today .auto : Act Store ArrearsWrite).exec
      ⟨some ⟨b, t⟩, tx⟩).1 = b.writeOf loan today .auto := by
    have hreads := HasBook.reads_computeWrite (s := ⟨some ⟨b, t⟩, tx⟩) ⟨t, rfl⟩ loan today .auto
    rw [hreads]
  constructor
  · rintro ⟨_, _, ⟨⟩, h⟩ loan w hw
    exact h loan w ((hreads loan).trans hw)
  · intro h
    refine ⟨b, t, rfl, fun loan w hw => ?_⟩
    exact h loan w ((hreads loan).symm.trans hw)

/-- A call that fails leaves the store as it was. -/
theorem eq_of_perform_error {operation : Act Store (α × List LoanEvent)} {s s' : Store} {f : Fault}
    (h : ((Subscriptions.standard fun _ => today).perform operation).exec s = (.error f, s')) :
    s' = s := by
  obtain ⟨tables, tx⟩ := s
  cases tx with
  | true =>
    cases h
    rfl
  | false =>
    change (atomically ((Subscriptions.standard fun _ => today).delivering operation)).exec _ = _
      at h
    rw [exec_atomically] at h
    split at h
    · cases h
    · cases h
      rfl

/-- A call that succeeds runs the operation and then delivers all of its events. -/
theorem exists_of_perform_ok {operation : Act Store (α × List LoanEvent)} {tables : Option Tables}
    {answer : α} {s' : Store} (h : ((Subscriptions.standard fun _ => today).perform operation).exec
      ⟨tables, tx⟩ = (.ok answer, s')) :
    ∃ events s₁ s₂, operation.exec ⟨tables, true⟩ = (.ok (answer, events), s₁) ∧
      (events.forM fun e => discard ((Subscriptions.standard fun _ => today).deliver e) :
        Act Store Unit).exec s₁ = (.ok (), s₂) ∧ s' = { s₂ with inTransaction := false } := by
  cases tx with
  | true => cases h
  | false =>
    change (atomically ((Subscriptions.standard fun _ => today).delivering operation)).exec _ = _
      at h
    rw [exec_atomically] at h
    unfold Subscriptions.delivering at h
    rcases hop : operation.exec ⟨tables, true⟩ with ⟨_ | ⟨answer', events⟩, s₁⟩
    · rw [Act.exec_bind_error hop] at h
      cases h
    rw [Act.exec_bind_ok hop] at h
    dsimp only at h
    rcases hevents : (events.forM fun e =>
        discard ((Subscriptions.standard fun _ => today).deliver e) : Act Store Unit).exec s₁
      with ⟨_ | _, s₂⟩
    · rw [Act.exec_bind_error hevents] at h
      cases h
    rw [Act.exec_bind_ok hevents] at h
    cases h
    exact ⟨events, s₁, s₂, rfl, hevents, rfl⟩

end Store

/-- After changes that are announced, delivering the events makes the table coherent again: a
    loan is recomputed, or it is as it was. -/
theorem Subscriptions.Delivers.isCoherent {b b' : Book} {t t' : ArrearsTable} {today : Date}
    {events : List LoanEvent} (h : Delivers b' today events t t')
    (hold : ∀ loan w, b.writeOf loan today .auto = .ok w → w.entryLeft = .ok (t.find? loan))
    (hannounced : ∀ loan, ¬ b.SameLoan b' loan → (lastTrigger? events loan).isSome)
    (hlast : ∀ loan e, lastTrigger? events loan = some e → e.kind = .disbursed →
      ¬ b'.Replays loan) (loan : LoanId) (w : ArrearsWrite)
    (hw : b'.writeOf loan today .auto = .ok w) : w.entryLeft = .ok (t'.find? loan) := by
  have hloan := h loan
  cases htrigger : lastTrigger? events loan with
  | some e =>
    rw [htrigger] at hloan
    obtain ⟨w', hw', hentry⟩ := hloan
    rw [Book.writeOf_agingMode (hlast loan e htrigger), hw] at hw'
    cases hw'
    exact hentry
  | none =>
    -- Without a trigger the loan, its product and its row are as they were.
    rw [htrigger] at hloan
    have hsame : b.SameLoan b' loan := by
      by_contra hchanged
      have hsome := hannounced loan hchanged
      rw [htrigger] at hsome
      cases hsome
    rw [hsame.writeOf_eq] at hw
    rw [hloan]
    exact hold loan w hw

/-- One call of an operation that announces its changes keeps a store coherent. -/
theorem Announces.isCoherent_perform {operation : Act Store (α × List LoanEvent)} {s : Store}
    {today : Date} (h : Announces operation s) (hs : s.IsCoherent today) (href : s.HasReferences) :
    (((Subscriptions.standard fun _ => today).perform operation).exec s).2.IsCoherent today ∧
      (((Subscriptions.standard fun _ => today).perform operation).exec s).2.HasReferences := by
  rcases hrun : ((Subscriptions.standard fun _ => today).perform operation).exec s with ⟨r, s'⟩
  cases r with
  | error f =>
    rw [Store.eq_of_perform_error hrun]
    exact ⟨hs, href⟩
  | ok answer =>
    obtain ⟨tables, tx⟩ := s
    obtain ⟨b, t, htables, -⟩ := id hs
    cases htables
    have hb : b.HasReferences := href b ⟨t, rfl⟩
    obtain ⟨events, s₁, s₂, hop, hevents, rfl⟩ := Store.exists_of_perform_ok hrun
    obtain ⟨⟨ws, rfl⟩, hchanges⟩ := h answer events s₁ hop
    obtain ⟨hb', hproducts⟩ := Book.after_keeps hb ws
    have hafter : Store.after ⟨some ⟨b, t⟩, true⟩ ws = ⟨some ⟨b.after ws, t⟩, true⟩ :=
      Store.after_eq b t true ws
    dsimp only at hevents hchanges
    rw [hafter] at hevents hchanges
    obtain ⟨t', rfl, hdelivers⟩ := Subscriptions.exists_of_exec_events hevents
    have hchanges := hchanges b (b.after ws) ⟨t, rfl⟩ ⟨t, rfl⟩
    constructor
    · refine Store.isCoherent_iff.2
        (hdelivers.isCoherent (Store.isCoherent_iff.1 hs) ?_ fun loan => (hchanges loan).2)
      intro loan hchanged
      refine (hchanges loan).1 fun hfind => hchanged ⟨hfind, fun l hl => ?_⟩
      obtain ⟨p, hp⟩ := Option.isSome_iff_exists.1 (hb loan l hl)
      rw [hp, hproducts _ p hp]
    · rintro b' ⟨t'', ht''⟩
      cases ht''
      exact hb'

/-- Calls of operations that announce their changes keep a store coherent. -/
theorem Calls.isCoherent {today : Date} {s s' : Store} (h : Calls today s s')
    (hs : s.IsCoherent today) (href : s.HasReferences) :
    s'.IsCoherent today ∧ s'.HasReferences := by
  induction h with
  | none => exact ⟨hs, href⟩
  | call operation before announces ih =>
    obtain ⟨hcoherent, hreferences⟩ := ih
    exact announces.isCoherent_perform hcoherent hreferences

/-- Over every run of calls the store stays coherent, and a call that fails after it leaves all
    tables as they were. -/
theorem calls_keep_coherence {today : Date} {s s' : Store} (hs : s.IsCoherent today)
    (href : s.HasReferences) (hcalls : Calls today s s') :
    s'.IsCoherent today ∧
      ∀ {α : Type} (operation : Act Store (α × List LoanEvent)) (f : Fault) (t : Store),
        ((Subscriptions.standard fun _ => today).perform operation).exec s' = (.error f, t) →
          t.tables = s'.tables := by
  refine ⟨(hcalls.isCoherent hs href).1, ?_⟩
  intro α operation f t hfail
  rw [Store.eq_of_perform_error hfail]

namespace Sample

/-- Put loans 1 and 2 into the book, disburse loan 1 and charge a fee to loan 2. -/
def booking : Act Store (Unit × List LoanEvent) := do
  (writes 2).forM LoanWrite.act
  return ((), [.chargeAdded 2 1, .loanApproved 2, .disbursed 1 1])

/-- A new store after the call of the operation. -/
def booked : Store :=
  (((Subscriptions.standard fun _ => today).perform booking).exec Store.new).2

theorem exec_booking :
    booking.exec { Store.new with inTransaction := true } =
      (.ok ((), [.chargeAdded 2 1, .loanApproved 2, .disbursed 1 1]),
        ⟨some ⟨book 2, Table.empty⟩, true⟩) :=
  rfl

/-- The last trigger of loan 1 is its disbursal, and loan 1 has no planned schedule. -/
theorem announces_booking : Announces booking Store.new := by
  intro answer events t h
  rw [exec_booking] at h
  cases h
  refine ⟨⟨writes 2, (Store.after_eq Book.empty Table.empty true (writes 2)).symm⟩, ?_⟩
  rintro b b' ⟨t, ht⟩ ⟨t', ht'⟩ loan
  cases ht
  cases ht'
  by_cases h₁ : loan = 1
  · subst h₁
    refine ⟨fun _ => rfl, fun e he hkind hreplays => ?_⟩
    obtain ⟨terms, hterms, hplanned⟩ := hreplays
    cases hterms
    cases hplanned
  by_cases h₂ : loan = 2
  · subst h₂
    refine ⟨fun _ => rfl, fun e he hkind => ?_⟩
    cases he
    cases hkind
  have hnone : (book 2).loans.find? loan = none := by
    cases hl : (book 2).loans.find? loan with
    | none => rfl
    | some l =>
      have hrows : (book 2).loans.rows = [(1, liveLoan), (2, replayingLoan)] := rfl
      have hmem := Table.find?_eq_some_iff.1 hl
      simp [hrows, h₁, h₂] at hmem
  refine ⟨fun hne => absurd hnone hne, fun e he => ?_⟩
  simp [lastTrigger?, LoanEvent.loan, Ne.symm h₁, Ne.symm h₂] at he

end Sample

/-- Loan 2 has a row after the call, and what the call leaves is coherent. -/
theorem booking_keeps_coherence :
    (Sample.booked.tables.bind fun t => t.arrears.find? 2).isSome ∧
      Sample.booked.IsCoherent Sample.today ∧
      ∀ {α : Type} (operation : Act Store (α × List LoanEvent)) (f : Fault) (t : Store),
        ((Subscriptions.standard fun _ => Sample.today).perform operation).exec Sample.booked =
          (.error f, t) → t.tables = Sample.booked.tables := by
  have hcoherent : Store.new.IsCoherent Sample.today :=
    Store.isCoherent_iff.2 fun loan w hw => by cases hw
  have href : Store.new.HasReferences := by
    rintro b ⟨t, ht⟩
    cases ht
    exact Book.sound_empty.references
  refine ⟨by decide +kernel, ?_⟩
  exact calls_keep_coherence hcoherent href (.call Sample.booking .none Sample.announces_booking)

end LoanArrears
