-- SUMMARY: Every document of the engine is read back from its text, but for the minus signs of zeros.
import LoanArrears.Format.Arrears
import LoanArrears.Format.Book
import LoanArrears.Format.Event
import LoanArrears.Format.Schedule
import LoanArrears.Proofs.Calendar.Notation
import LoanArrears.Proofs.Decimal.Notation
import LoanArrears.Proofs.Json.Filling
import Mathlib.Data.List.Forall2

/-!
# Reading documents back

A `Format` is a kind of document: how its values are written and read, which amounts are in
them, and which numbers they have room for. Every value in range is read back from its text. A
zero that is written with a minus sign is read without it, so such a value is read back as the
same numbers and written differently the next time.
-/

namespace LoanArrears

/-! ## Scalars -/

/-- The numbers of a document with 64 bits, and a sign. -/
def IsInt64 (v : Int) : Prop :=
  -Bound.int64 ≤ v ∧ v < Bound.int64

/-- The numbers of a document with 32 bits. -/
def IsNat32 (n : Nat) : Prop :=
  n < Bound.nat32

section Scalars

variable {v : Int} {n : Nat}

theorem IsInt64.isExact (h : IsInt64 v) : Json.IsExact v :=
  ⟨h.1, Int.lt_trans h.2 (by decide)⟩

theorem IsNat32.isExact (h : IsNat32 n) : Json.IsExact n := by
  unfold IsNat32 Bound.nat32 at h
  unfold Json.IsExact Bound.int64 Bound.nat64
  omega

theorem reads_int64 (h : IsInt64 v) : Decoder.int64.Reads (.int v) v :=
  ⟨.int h.isExact, if_pos h⟩

theorem reads_nat32 (h : IsNat32 n) : Decoder.nat32.Reads (.nat n) n := by
  refine ⟨.int h.isExact, ?_⟩
  have hbounds : (0 : Int) ≤ n ∧ (n : Int) < (Bound.nat32 : Int) := by
    unfold IsNat32 at h
    omega
  rw [Decoder.nat32, Decoder.natBelow, Json.nat, Json.int, Decoder.intIn, if_pos hbounds]
  rfl

theorem reads_optional {grace : Option Nat} (h : ∀ n, grace = some n → IsNat32 n) :
    Decoder.nat32.option.Reads (.opt .nat grace) grace := by
  cases grace with
  | none => exact ⟨.null, rfl⟩
  | some n =>
    obtain ⟨hplain, hok⟩ := reads_nat32 (h n rfl)
    refine ⟨hplain, ?_⟩
    rw [Json.opt, Decoder.option, hok]
    · rfl
    · nofun

theorem reads_bool (b : Bool) : Decoder.bool.Reads b b :=
  ⟨.bool b, rfl⟩

theorem Date.reads (d : Date) : Date.decoder.Reads d.toJson d := by
  refine ⟨.str _, ?_⟩
  rw [Date.decoder, Date.toJson, Decoder.text, Date.read?_toText]
  rfl

theorem Decimal.reads (a : Decimal) : Decimal.decoder.Reads a.toJson a.asRead := by
  refine ⟨.str _, ?_⟩
  rw [Decimal.toJson, Decimal.decoder, Decimal.read?_toText]
  rfl

theorem Status.reads (s : Status) : Status.decoder.Reads s.toJson s := by
  refine ⟨.str _, ?_⟩
  cases s <;> rfl

end Scalars

/-! ## Records -/

theorem Amounts.reads (b : Amounts) :
    Amounts.decoder.Reads (Amounts.toJson b) (b.map Decimal.asRead) :=
  (Fields.gives_required "principal" (Decimal.reads b.principal)).map Buckets.mk
    |>.field "interest" (by simp) (Decimal.reads b.interest)
    |>.field "fee" (by simp) (Decimal.reads b.fee)
    |>.field "penalty" (by simp) (Decimal.reads b.penalty)
    |>.record

theorem Lifetime.reads (t : Lifetime) : Lifetime.decoder.Reads t.toJson
    ⟨t.repaid.map Decimal.asRead, t.waived.map Decimal.asRead, t.writtenOff.map Decimal.asRead⟩ :=
  (Fields.gives_required "repaid" (Amounts.reads t.repaid)).map Lifetime.mk
    |>.field "waived" (by simp) (Amounts.reads t.waived)
    |>.field "written_off" (by simp) (Amounts.reads t.writtenOff)
    |>.record

theorem PlannedInstallment.reads {i : PlannedInstallment} (h : IsNat32 i.installment) :
    PlannedInstallment.decoder.Reads i.toJson { i with due := i.due.map Decimal.asRead } :=
  (Fields.gives_required "installment" (reads_nat32 h)).map PlannedInstallment.mk
    |>.field "due_date" (by simp) (Date.reads i.dueDate)
    |>.field "due" (by simp) (Amounts.reads i.due)
    |>.record

theorem LiveInstallment.reads {i : LiveInstallment} (h : IsNat32 i.installment) :
    LiveInstallment.decoder.Reads i.toJson
      { i with due := i.due.map Decimal.asRead, consumed := i.consumed.map Decimal.asRead } :=
  (Fields.gives_required "installment" (reads_nat32 h)).map LiveInstallment.mk
    |>.field "due_date" (by simp) (Date.reads i.dueDate)
    |>.field "due" (by simp) (Amounts.reads i.due)
    |>.field "consumed" (by simp) (Amounts.reads i.consumed)
    |>.field "completed" (by simp) (reads_bool i.completed)
    |>.record

theorem Consumption.reads {s : Consumption} (h : IsInt64 s.loan) :
    Consumption.decoder.Reads s.toJson { s with consumed := s.consumed.map Decimal.asRead } :=
  (Fields.gives_required "loan_id" (reads_int64 h)).map Consumption.mk
    |>.field "consumed" (by simp) (Amounts.reads s.consumed)
    |>.record

/-- The grace of a loan may be missing. -/
theorem LoanRow.reads {r : LoanRow} (hid : IsInt64 r.id) (hproduct : IsInt64 r.product)
    (hgrace : ∀ grace, r.grace = some grace → IsNat32 grace) :
    LoanRow.decoder.Reads r.toJson
      { r with totals := ⟨r.totals.repaid.map Decimal.asRead, r.totals.waived.map Decimal.asRead,
                 r.totals.writtenOff.map Decimal.asRead⟩ } :=
  (Fields.gives_required "id" (reads_int64 hid)).map LoanRow.mk
    |>.field "product_id" (by simp) (reads_int64 hproduct)
    |>.field "status" (by simp) (Status.reads r.status)
    |>.seq (Fields.gives_one (reads_optional hgrace)) (by simp)
    |>.field "totals" (by simp) (Lifetime.reads r.totals)
    |>.record

theorem LiveRow.reads {r : LiveRow} (hloan : IsInt64 r.loan)
    (hinstallment : IsNat32 r.installment) :
    LiveRow.decoder.Reads r.toJson
      { r with due := r.due.map Decimal.asRead, completed := r.completed.map Decimal.asRead,
               waived := r.waived.map Decimal.asRead,
               writtenOff := r.writtenOff.map Decimal.asRead } :=
  (Fields.gives_required "loan_id" (reads_int64 hloan)).map LiveRow.mk
    |>.field "installment" (by simp) (reads_nat32 hinstallment)
    |>.field "due_date" (by simp) (Date.reads r.dueDate)
    |>.field "due" (by simp) (Amounts.reads r.due)
    |>.field "completed" (by simp) (Amounts.reads r.completed)
    |>.field "waived" (by simp) (Amounts.reads r.waived)
    |>.field "written_off" (by simp) (Amounts.reads r.writtenOff)
    |>.field "fully_completed" (by simp) (reads_bool r.fullyCompleted)
    |>.record

theorem HistoryRow.reads {r : HistoryRow} (hloan : IsInt64 r.loan) (hversion : IsNat32 r.version)
    (hinstallment : IsNat32 r.installment) :
    HistoryRow.decoder.Reads r.toJson { r with due := r.due.map Decimal.asRead } :=
  (Fields.gives_required "loan_id" (reads_int64 hloan)).map HistoryRow.mk
    |>.field "version" (by simp) (reads_nat32 hversion)
    |>.field "installment" (by simp) (reads_nat32 hinstallment)
    |>.field "due_date" (by simp) (Date.reads r.dueDate)
    |>.field "due" (by simp) (Amounts.reads r.due)
    |>.record

theorem AgingRow.reads {r : AgingRow} (h : IsInt64 r.loan) :
    AgingRow.decoder.Reads r.toJson
      { r with overdue := r.overdue.map Decimal.asRead, total := r.total.asRead } :=
  (Fields.gives_required "loan_id" (reads_int64 h)).map (fun loan principal interest fee penalty
      total since => (⟨loan, ⟨principal, interest, fee, penalty⟩, total, since⟩ : AgingRow))
    |>.field "principal_overdue" (by simp) (Decimal.reads r.overdue.principal)
    |>.field "interest_overdue" (by simp) (Decimal.reads r.overdue.interest)
    |>.field "fee_overdue" (by simp) (Decimal.reads r.overdue.fee)
    |>.field "penalty_overdue" (by simp) (Decimal.reads r.overdue.penalty)
    |>.field "total_overdue" (by simp) (Decimal.reads r.total)
    |>.field "overdue_since_date" (by simp) (Date.reads r.since)
    |>.record

/-! ## Writes and events -/

theorem ArrearsPosition.gives {a : ArrearsPosition} (h : IsInt64 a.loan) :
    ArrearsPosition.fields.Gives a.toFields { a with overdue := a.overdue.map Decimal.asRead } :=
  (Fields.gives_required "loan_id" (reads_int64 h)).map ArrearsPosition.mk
    |>.field "overdue" (by simp) (Amounts.reads a.overdue)
    |>.field "overdue_since_date" (by simp) (Date.reads a.since)

theorem ArrearsWrite.reads_upsert {a : ArrearsPosition} (h : IsInt64 a.loan) :
    ArrearsWrite.decoder.Reads (ArrearsWrite.upsert a).toJson
      (.upsert { a with overdue := a.overdue.map Decimal.asRead }) := by
  refine Decoder.reads_tagged (by rfl) ?_ ((ArrearsPosition.gives h).map upsert)
  simp [ArrearsPosition.toFields, Amounts.toJson, Buckets.toJson, Decimal.toJson, Date.toJson,
    Json.int, Json.sound, Json.soundFields, Json.maxDepth]

theorem ArrearsWrite.reads_delete {loan : LoanId} (h : IsInt64 loan) :
    ArrearsWrite.decoder.Reads (ArrearsWrite.delete loan).toJson (.delete loan) := by
  refine Decoder.reads_tagged (by rfl) ?_
    ((Fields.gives_required "loan_id" (reads_int64 h)).map delete)
  simp [Json.int, Json.sound]

namespace LoanEvent

/-- The loan of an event and the ids of what happened. -/
def ids : LoanEvent → List Int
  | .repaymentPosted loan transaction | .transactionAdjusted loan transaction
  | .interestWaived loan transaction | .writeOffUndone loan transaction
  | .disbursed loan transaction | .foreclosed loan transaction => [loan, transaction]
  | .chargeAdded loan charge | .chargeWaived loan charge
  | .overdueChargeApplied loan charge => [loan, charge]
  | .chargePaid loan charge transaction => [loan, charge, transaction]
  | .loanApproved loan | .loanRejected loan => [loan]

variable {loan charge transaction : Int}

theorem gives_loan (mk : LoanId → LoanEvent) (h : ∀ id ∈ [loan], IsInt64 id) :
    (mk <$> loanField).Gives [("loan_id", .int loan)] (mk loan) :=
  (Fields.gives_required "loan_id" (reads_int64 (h loan (by simp)))).map mk

theorem gives_transaction (mk : LoanId → Int → LoanEvent)
    (h : ∀ id ∈ [loan, transaction], IsInt64 id) :
    (mk <$> loanField <*> transactionField).Gives
      [("loan_id", .int loan), ("transaction_id", .int transaction)] (mk loan transaction) :=
  (Fields.gives_required "loan_id" (reads_int64 (h loan (by simp)))).map mk
    |>.field "transaction_id" (by simp) (reads_int64 (h transaction (by simp)))

theorem gives_charge (mk : LoanId → Int → LoanEvent) (h : ∀ id ∈ [loan, charge], IsInt64 id) :
    (mk <$> loanField <*> chargeField).Gives
      [("loan_id", .int loan), ("charge_id", .int charge)] (mk loan charge) :=
  (Fields.gives_required "loan_id" (reads_int64 (h loan (by simp)))).map mk
    |>.field "charge_id" (by simp) (reads_int64 (h charge (by simp)))

theorem gives_paidCharge (h : ∀ id ∈ [loan, charge, transaction], IsInt64 id) :
    (chargePaid <$> loanField <*> chargeField <*> transactionField).Gives
      [("loan_id", .int loan), ("charge_id", .int charge), ("transaction_id", .int transaction)]
      (.chargePaid loan charge transaction) :=
  (Fields.gives_required "loan_id" (reads_int64 (h loan (by simp)))).map chargePaid
    |>.field "charge_id" (by simp) (reads_int64 (h charge (by simp)))
    |>.field "transaction_id" (by simp) (reads_int64 (h transaction (by simp)))

/-- The fields behind the kind of an event make the event. -/
theorem gives {e : LoanEvent} (h : ∀ id ∈ e.ids, IsInt64 id) :
    (fieldsOf e.kind).Gives (("loan_id", .int e.loan) :: e.details) e := by
  cases e with
  | repaymentPosted => exact gives_transaction _ h
  | transactionAdjusted => exact gives_transaction _ h
  | interestWaived => exact gives_transaction _ h
  | writeOffUndone => exact gives_transaction _ h
  | disbursed => exact gives_transaction _ h
  | foreclosed => exact gives_transaction _ h
  | chargeAdded => exact gives_charge _ h
  | chargeWaived => exact gives_charge _ h
  | chargePaid => exact gives_paidCharge h
  | overdueChargeApplied => exact gives_charge _ h
  | loanApproved => exact gives_loan _ h
  | loanRejected => exact gives_loan _ h

theorem reads {e : LoanEvent} (h : ∀ id ∈ e.ids, IsInt64 id) :
    LoanEvent.decoder.Reads e.toJson e := by
  have hlookup (k : EventKind) :
      (EventKind.all.map fun k => (k.tag, fieldsOf k)).lookup k.tag = some (fieldsOf k) := by
    simp only [EventKind.tag_eq_name]
    cases k <;> rfl
  refine Decoder.reads_tagged (hlookup e.kind) ?_ (gives h)
  cases e <;> simp [details, Json.int, Json.sound]

end LoanEvent

theorem Buckets.map_eq_self {g : α → α} {b : Buckets α} (h : ∀ x ∈ b.toList, g x = x) :
    b.map g = b := by
  simp only [toList, List.forall_mem_cons] at h
  obtain ⟨hprincipal, hinterest, hfee, hpenalty, -⟩ := h
  rw [map, hprincipal, hinterest, hfee, hpenalty]

/-! ## Formats -/

/-- The kinds of documents, each with the type of its values. -/
inductive Format : Type → Type
  | event : Format LoanEvent
  | write : Format ArrearsWrite
  | planned : Format PlannedInstallment
  | live : Format LiveInstallment
  | consumption : Format Consumption
  | loanRow : Format LoanRow
  | liveRow : Format LiveRow
  | historyRow : Format HistoryRow
  | agingRow : Format AgingRow

namespace Format

variable {α : Type}

def toJson : Format α → α → Json
  | .event => LoanEvent.toJson
  | .write => ArrearsWrite.toJson
  | .planned => PlannedInstallment.toJson
  | .live => LiveInstallment.toJson
  | .consumption => Consumption.toJson
  | .loanRow => LoanRow.toJson
  | .liveRow => LiveRow.toJson
  | .historyRow => HistoryRow.toJson
  | .agingRow => AgingRow.toJson

def decoder : Format α → Decoder α
  | .event => LoanEvent.decoder
  | .write => ArrearsWrite.decoder
  | .planned => PlannedInstallment.decoder
  | .live => LiveInstallment.decoder
  | .consumption => Consumption.decoder
  | .loanRow => LoanRow.decoder
  | .liveRow => LiveRow.decoder
  | .historyRow => HistoryRow.decoder
  | .agingRow => AgingRow.decoder

/-- The numbers of the value are those that its document has room for. -/
def InRange : Format α → α → Prop
  | .event, e => ∀ id ∈ e.ids, IsInt64 id
  | .write, w => IsInt64 w.loan
  | .planned, i => IsNat32 i.installment
  | .live, i => IsNat32 i.installment
  | .consumption, s => IsInt64 s.loan
  | .loanRow, r =>
    IsInt64 r.id ∧ IsInt64 r.product ∧ ∀ grace, r.grace = some grace → IsNat32 grace
  | .liveRow, r => IsInt64 r.loan ∧ IsNat32 r.installment
  | .historyRow, r => IsInt64 r.loan ∧ IsNat32 r.version ∧ IsNat32 r.installment
  | .agingRow, r => IsInt64 r.loan

/-- The value with all of its amounts replaced. -/
def mapAmounts (g : Decimal → Decimal) : Format α → α → α
  | .event, e => e
  | .write, .upsert a => .upsert { a with overdue := a.overdue.map g }
  | .write, .delete loan => .delete loan
  | .planned, i => { i with due := i.due.map g }
  | .live, i => { i with due := i.due.map g, consumed := i.consumed.map g }
  | .consumption, s => { s with consumed := s.consumed.map g }
  | .loanRow, r =>
    { r with totals := ⟨r.totals.repaid.map g, r.totals.waived.map g, r.totals.writtenOff.map g⟩ }
  | .liveRow, r =>
    { r with due := r.due.map g, completed := r.completed.map g, waived := r.waived.map g,
             writtenOff := r.writtenOff.map g }
  | .historyRow, r => { r with due := r.due.map g }
  | .agingRow, r => { r with overdue := r.overdue.map g, total := g r.total }

/-- The amounts of a value. -/
def amounts : Format α → α → List Decimal
  | .event, _ => []
  | .write, .upsert a => a.overdue.toList
  | .write, .delete _ => []
  | .planned, i => i.due.toList
  | .live, i => i.due.toList ++ i.consumed.toList
  | .consumption, s => s.consumed.toList
  | .loanRow, r => r.totals.repaid.toList ++ r.totals.waived.toList ++ r.totals.writtenOff.toList
  | .liveRow, r =>
    r.due.toList ++ r.completed.toList ++ r.waived.toList ++ r.writtenOff.toList
  | .historyRow, r => r.due.toList
  | .agingRow, r => r.overdue.toList ++ [r.total]

/-- A value whose amounts all stay is the same. -/
theorem mapAmounts_eq_self {g : Decimal → Decimal} (f : Format α) {a : α}
    (h : ∀ x ∈ f.amounts a, g x = x) : f.mapAmounts g a = a := by
  cases f with
  | event => rfl
  | write =>
    cases a with
    | delete => rfl
    | upsert a => simp only [mapAmounts, Buckets.map_eq_self h]
  | planned => simp only [mapAmounts, Buckets.map_eq_self h]
  | live =>
    obtain ⟨hdue, hconsumed⟩ := List.forall_mem_append.1 h
    simp only [mapAmounts, Buckets.map_eq_self hdue, Buckets.map_eq_self hconsumed]
  | consumption => simp only [mapAmounts, Buckets.map_eq_self h]
  | loanRow =>
    obtain ⟨h, hwrittenOff⟩ := List.forall_mem_append.1 h
    obtain ⟨hrepaid, hwaived⟩ := List.forall_mem_append.1 h
    simp only [mapAmounts, Buckets.map_eq_self hrepaid, Buckets.map_eq_self hwaived,
      Buckets.map_eq_self hwrittenOff]
  | liveRow =>
    obtain ⟨h, hwrittenOff⟩ := List.forall_mem_append.1 h
    obtain ⟨h, hwaived⟩ := List.forall_mem_append.1 h
    obtain ⟨hdue, hcompleted⟩ := List.forall_mem_append.1 h
    simp only [mapAmounts, Buckets.map_eq_self hdue, Buckets.map_eq_self hcompleted,
      Buckets.map_eq_self hwaived, Buckets.map_eq_self hwrittenOff]
  | historyRow => simp only [mapAmounts, Buckets.map_eq_self h]
  | agingRow =>
    obtain ⟨hoverdue, htotal⟩ := List.forall_mem_append.1 h
    simp only [mapAmounts, Buckets.map_eq_self hoverdue, htotal _ List.mem_cons_self]

theorem inRange_mapAmounts (f : Format α) (g : Decimal → Decimal) (a : α) :
    f.InRange (f.mapAmounts g a) ↔ f.InRange a := by
  cases f with
  | write => cases a <;> exact Iff.rfl
  | _ => exact Iff.rfl

theorem amounts_mapAmounts (f : Format α) (g : Decimal → Decimal) (a : α) :
    f.amounts (f.mapAmounts g a) = (f.amounts a).map g := by
  cases f with
  | write => cases a <;> rfl
  | _ => rfl

/-- Nothing more is lost when a value is read a second time. -/
theorem mapAmounts_asRead_twice (f : Format α) (a : α) :
    f.mapAmounts Decimal.asRead (f.mapAmounts Decimal.asRead a) =
      f.mapAmounts Decimal.asRead a := by
  cases f with
  | write => cases a <;> rfl
  | _ => rfl

/-- The value of the text is read back, with each amount as it is read. -/
theorem reads (f : Format α) {a : α} (h : f.InRange a) :
    f.decoder.Reads (f.toJson a) (f.mapAmounts Decimal.asRead a) := by
  cases f with
  | event => exact LoanEvent.reads h
  | write =>
    cases a with
    | upsert => exact ArrearsWrite.reads_upsert h
    | delete => exact ArrearsWrite.reads_delete h
  | planned => exact PlannedInstallment.reads h
  | live => exact LiveInstallment.reads h
  | consumption => exact Consumption.reads h
  | loanRow => exact LoanRow.reads h.1 h.2.1 h.2.2
  | liveRow => exact LiveRow.reads h.1 h.2
  | historyRow => exact HistoryRow.reads h.1 h.2.1 h.2.2
  | agingRow => exact AgingRow.reads h

end Format

/-- A value in range is read back from its text with each amount as it is read: the same number
    with the same scale, without the minus sign if it is a zero. So a value without such zeros is
    read back as it was and has the same text again, and what is read from any other value is. The
    name of the kind of an event stands in the field `type` of its text. -/
theorem decoding_undoes_encoding :
    (∀ {α : Type} (f : Format α) (a : α), f.InRange a →
      let read := f.mapAmounts Decimal.asRead a
      f.decoder.ofText (f.toJson a).render = .ok read ∧
      f.decoder.ofText (f.toJson read).render = .ok read ∧
      List.Forall₂ (fun x y => x.eqv y ∧ x.scale = y.scale) (f.amounts read) (f.amounts a) ∧
      ((∀ x ∈ f.amounts a, x.minusZero = false) → read = a)) ∧
    ∀ e : LoanEvent, Format.event.InRange e →
      (Json.read e.toJson.render).value.field? "type" = some (.str e.kind.name) := by
  refine ⟨fun f a h => ⟨(f.reads h).ofText, ?_, ?_, fun hzeros => ?_⟩, fun e h => ?_⟩
  · have hread := f.reads ((f.inRange_mapAmounts Decimal.asRead a).2 h)
    rw [f.mapAmounts_asRead_twice a] at hread
    exact hread.ofText
  · rw [f.amounts_mapAmounts, List.forall₂_map_left_iff]
    exact List.forall₂_same.2 fun x _ => ⟨x.asRead_eqv, rfl⟩
  · exact f.mapAmounts_eq_self fun x hx => Decimal.asRead_eq_self (hzeros x hx)
  · rw [(LoanEvent.reads h).isPlain.read_render, ← e.kind.tag_eq_name]
    rfl

namespace Sample

/-- What is left of a negative number of which no place fits. -/
def minusZero : Decimal :=
  { Decimal.zero with
    scale := Decimal.maxScale, minusZero := true, scale_le := by decide, coeff_eq := fun _ => rfl }

example : Decimal.read? "-0.4e-28" = some minusZero := by decide

/-- A loan that consumed a zero with a minus sign. -/
def consumption : Consumption :=
  ⟨1, ⟨minusZero, Decimal.zero, Decimal.zero, Decimal.zero⟩⟩

/-- An installment of 0.1000 that is due on 31 December of the year 262142. -/
def lastInstallment : PlannedInstallment where
  installment := 4294967295
  dueDate := ⟨Date.last, by decide, by decide⟩
  due := ⟨{ coeff := 1000, scale := 4 }, Decimal.zero, Decimal.zero, Decimal.zero⟩

end Sample

/-- The installment is read back as it is, and the consumption without its minus sign. -/
theorem decoding_undoes_encoding_sample :
    Format.planned.decoder.ofText (Format.planned.toJson Sample.lastInstallment).render =
        .ok Sample.lastInstallment ∧
      Format.consumption.decoder.ofText (Format.consumption.toJson Sample.consumption).render =
        .ok ⟨1, ⟨{ coeff := 0, scale := 28 }, Decimal.zero, Decimal.zero, Decimal.zero⟩⟩ ∧
      (Json.read (LoanEvent.disbursed (-7) 8).toJson.render).value.field? "type" =
        some (.str "disbursed") := by
  obtain ⟨hread, hkind⟩ := decoding_undoes_encoding
  obtain ⟨hplanned, -, -, hsame⟩ := hread .planned Sample.lastInstallment
    (show (4294967295 : Nat) < Bound.nat32 by decide)
  refine ⟨?_, (hread .consumption Sample.consumption ⟨by decide, by decide⟩).1, hkind _ ?_⟩
  · rw [hplanned, hsame (by decide)]
  · intro id hid
    simp only [LoanEvent.ids, List.mem_cons, List.not_mem_nil, or_false] at hid
    rcases hid with rfl | rfl <;> exact ⟨by decide, by decide⟩

/-- The text of a zero with a minus sign is read without the sign, so it is written differently
    the next time. -/
theorem minus_sign_of_zero_is_lost :
    ¬ ∀ {α : Type} (f : Format α) (a : α), f.InRange a →
      ∃ b, f.decoder.ofText (f.toJson a).render = .ok b ∧
        (f.toJson b).render = (f.toJson a).render := by
  intro h
  have hrange : Format.consumption.InRange Sample.consumption := ⟨by decide, by decide⟩
  obtain ⟨b, hread, hsame⟩ := h .consumption Sample.consumption hrange
  cases hread.symm.trans (Format.consumption.reads hrange).ofText
  revert hsame
  decide

end LoanArrears
