-- SUMMARY: The installments of a synthetic loan: due dates thirty days apart, dues in cents, and what is paid of each is never more than is due.
import LoanArrears.Proofs.Book.Loading
import LoanArrears.Proofs.Decimal.Bounded
import LoanArrears.Proofs.Schedule.Allocation
import LoanArrears.Proofs.Synthetic.Draws

/-!
# Synthetic installments

Whatever is drawn, a schedule has three to twelve installments that are numbered from one on, and
follows a date that is no more than 389 days before the business date. Dues are cents up to
`maxDue`. A share of a due is rounded to cents, and as the share is at most one, the rounded amount
is at most the due.
-/

namespace LoanArrears

/-! ## Amounts of bounded cents -/

/-- Amounts of cents, none of them negative and none above its bound. -/
structure Amounts.AreUpTo (a : Amounts) (bound : Bucket → Nat) : Prop where
  isCents : ∀ i, (a.get i).IsCents (a.cents i)
  cents_le : ∀ i, a.cents i ≤ bound i

namespace Amounts

variable {a : Amounts} {bound : Bucket → Nat}

theorem areUpTo_of_isCents (h : ∀ i, ∃ n ≤ bound i, (a.get i).IsCents n) : a.AreUpTo bound := by
  constructor
  · intro i
    obtain ⟨n, -, hn⟩ := h i
    rwa [cents_eq hn]
  · intro i
    obtain ⟨n, hle, hn⟩ := h i
    rwa [cents_eq hn]

theorem areUpTo_zero (bound : Bucket → Nat) : zero.AreUpTo bound := by
  refine areUpTo_of_isCents fun i => ⟨0, Nat.zero_le _, ?_⟩
  rw [zero, Buckets.get_all]
  exact Decimal.isCents_zero

/-- Amounts are at most what they are. -/
theorem AreUpTo.refl (h : a.AreUpTo bound) : a.AreUpTo a.cents where
  isCents := h.isCents
  cents_le _ := Nat.le_refl _

theorem AreUpTo.trans {a' : Amounts} (h : a.AreUpTo a'.cents) (h' : a'.AreUpTo bound) :
    a.AreUpTo bound where
  isCents := h.isCents
  cents_le i := Nat.le_trans (h.cents_le i) (h'.cents_le i)

end Amounts

/-- A share of at most one, rounded to cents, is at most the whole. -/
theorem Decimal.IsCents.exists_share {a share : Decimal} {n m : Nat} (ha : a.IsCents n)
    (hshare : share.IsCents m) (hm : m ≤ 100) (hlimit : n * 100 < coeffLimit) :
    ∃ c, a.mul share = .ok c ∧ ∃ v ≤ n, (c.roundTo Cents.places).IsCents v := by
  unfold mul mul?
  by_cases hzero : a.isZero || share.isZero
  · rw [if_pos hzero]
    exact ⟨zero, rfl, 0, Nat.zero_le n, isCents_zero.roundTo_places⟩
  rw [if_neg hzero]
  rw [Bool.or_eq_true, ha.isZero_iff, hshare.isZero_iff, not_or] at hzero
  have hscale : a.scale + share.scale = 4 := by
    rw [ha.2.resolve_right hzero.1, hshare.2.resolve_right hzero.2]
    rfl
  have hle : n * m ≤ n * 100 := Nat.mul_le_mul_left n hm
  have hlt : ((n : Int) * m).natAbs < coeffLimit := by
    rw [← Int.natCast_mul, Int.natAbs_natCast]
    exact Nat.lt_of_le_of_lt hle hlimit
  rw [ha.1, hshare.1, hscale, fit?_eq_some hlt (by decide)]
  refine ⟨_, rfl, (roundHalfEven (n * m) 100).toNat, ?_, ?_⟩
  · have hround : (roundHalfEven ((n : Int) * m) 100).natAbs ≤ n := by
      refine natAbs_roundHalfEven_le_of_le (by decide) ?_
      rw [← Int.natCast_mul, Int.natAbs_natCast]
      exact hle
    omega
  · have hnonneg : 0 ≤ roundHalfEven ((n : Int) * m) 100 :=
      le_roundHalfEven (by decide) (by rw [Int.zero_mul]; positivity)
    rw [Int.toNat_of_nonneg hnonneg]
    exact ⟨rfl, .inl rfl⟩

/-! ## Dates -/

namespace Date

variable {d : Date} {days : Nat}

theorem exists_addDays? (h : d.number + days ≤ last) :
    ∃ d', d.addDays? days = some d' ∧ d'.number = d.number + days := by
  have hfirst : first ≤ d.number + days := Int.le_trans d.first_le (by omega)
  exact ⟨⟨_, hfirst, h⟩, dif_pos ⟨hfirst, h⟩, rfl⟩

theorem exists_subDays? (h : first ≤ d.number - days) :
    ∃ d', d.subDays? days = some d' ∧ d'.number = d.number - days := by
  have hlast : d.number - days ≤ last := Int.le_trans (by omega) d.le_last
  exact ⟨⟨_, h, hlast⟩, dif_pos ⟨h, hlast⟩, rfl⟩

/-- Years have four digits from 389 days before the date to 420 days behind it. -/
def HasRoom (today : Date) : Prop :=
  firstFourDigit + 389 ≤ today.number ∧ today.number + 420 ≤ lastText

/-- Two years are left before the date, and two behind it. -/
theorem hasRoom_of_year {today : Date} (hlo : 2 ≤ today.civil.year)
    (hhi : today.civil.year ≤ 9997) : today.HasRoom := by
  have hfirst : (Civil.ofDayNumber 670).year < (Civil.ofDayNumber today.number).year := by
    rw [show (Civil.ofDayNumber 670).year = 1 by decide]
    exact hlo
  have hlast : (Civil.ofDayNumber today.number).year < (Civil.ofDayNumber 3651635).year := by
    rw [show (Civil.ofDayNumber 3651635).year = 9998 by decide]
    exact Int.lt_of_le_of_lt hhi (by decide)
  have hafter := Civil.lt_of_year_lt hfirst
  have hbefore := Civil.lt_of_year_lt hlast
  have hfirstText : firstFourDigit = -60 := by decide
  have hlastText : lastText = 3652364 := by decide
  unfold HasRoom
  omega

theorem HasRoom.hasFourDigitYear {today d : Date} (h : today.HasRoom)
    (hfirst : today.number - 389 ≤ d.number) (hlast : d.number ≤ today.number + 420) :
    d.HasFourDigitYear := by
  obtain ⟨hbefore, hafter⟩ := h
  rw [hasFourDigitYear_iff]
  omega

end Date

namespace Synthetic

/-! ## Drawing installments -/

/-- The largest due in cents. -/
def maxDue : Nat := 50000

theorem isCents_hundredths {n : Nat} (h : n ≤ maxDue) : (hundredths n).IsCents n := by
  have hlt : (n : Int).natAbs < Decimal.coeffLimit := by
    unfold maxDue at h
    unfold Decimal.coeffLimit Bound.nat96
    omega
  rw [hundredths, Decimal.mk?_eq_some hlt (by decide)]
  exact ⟨rfl, .inl rfl⟩

theorem yields_amount {lo hi : Nat} (hle : lo ≤ hi) (hhi : hi ≤ maxDue) :
    (amount lo hi).Yields fun a => ∃ n ≤ hi, a.IsCents n :=
  (yields_between 64 hle).map fun n hn =>
    ⟨n, hn.2, isCents_hundredths (Nat.le_trans hn.2 hhi)⟩

theorem yields_drawFee : drawFee.Yields fun a => ∃ n ≤ maxDue, a.IsCents n := by
  refine (yields_chance 2 10).bind fun charged _ => ?_
  cases charged with
  | true =>
    refine (yields_amount (by decide) (by decide)).imp fun fee ⟨n, hn, hfee⟩ => ?_
    exact ⟨n, Nat.le_trans hn (by decide), hfee⟩
  | false => exact .pure ⟨0, Nat.zero_le _, Decimal.isCents_zero⟩

/-- The installment is due as many periods behind a date as its number says. -/
structure Installment.IsDrawn (i : Installment) (disbursed : Date) : Prop where
  dueDate : i.dueDate.number = disbursed.number + i.number * periodDays
  due : i.due.AreUpTo fun _ => maxDue

theorem yields_drawInstallment {disbursed : Date} {number : Nat}
    (h : disbursed.number + (number * periodDays : Nat) ≤ Date.last) :
    (drawInstallment disbursed number).Yields fun i => i.IsDrawn disbursed ∧ i.number = number := by
  obtain ⟨dueDate, hdate, hnumber⟩ := Date.exists_addDays? h
  unfold drawInstallment
  refine .bind (.lift (p := (· = dueDate)) ⟨dueDate, by rw [hdate]; rfl, rfl⟩) ?_
  rintro dueDate rfl
  refine (yields_amount (by decide) (by decide)).bind fun principal ⟨p, hp, hprincipal⟩ => ?_
  refine (yields_amount (by decide) (by decide)).bind fun interest ⟨i, hi, hinterest⟩ => ?_
  refine yields_drawFee.bind fun fee hfee => ?_
  refine .pure ⟨⟨?_, Amounts.areUpTo_of_isCents fun k => ?_⟩, rfl⟩
  · rw [hnumber, Int.natCast_mul]
  · cases k with
    | principal => exact ⟨p, hp, hprincipal⟩
    | interest => exact ⟨i, Nat.le_trans hi (by decide), hinterest⟩
    | fee => exact hfee
    | penalty => exact ⟨0, Nat.zero_le _, Decimal.isCents_zero⟩

/-- A schedule as it is drawn for a loan that was disbursed on a date. -/
structure IsSchedule (schedule : List Installment) (disbursed today : Date) : Prop where
  early : today.number - 389 ≤ disbursed.number
  late : disbursed.number ≤ today.number
  three_le : 3 ≤ schedule.length
  le_twelve : schedule.length ≤ 12
  numbers : schedule.map (·.number) = (List.range schedule.length).map (· + 1)
  drawn : ∀ i ∈ schedule, i.IsDrawn disbursed

theorem yields_drawSchedule {today : Date} (htoday : today.HasRoom) :
    (drawSchedule today).Yields fun schedule =>
      ∃ disbursed, IsSchedule schedule disbursed today := by
  have hfirst : Date.first ≤ Date.firstFourDigit := by decide
  have hlast : Date.lastText ≤ Date.last := by decide
  obtain ⟨hbefore, hafter⟩ := htoday
  unfold drawSchedule
  refine (yields_between 32 (by decide)).bind fun periods ⟨hthree, htwelve⟩ => ?_
  refine (yields_between 64 (Nat.zero_le _)).bind fun elapsed ⟨_, helapsed⟩ => ?_
  refine (yields_between 64 (Nat.zero_le _)).bind fun days ⟨_, hdays⟩ => ?_
  have hage : elapsed * periodDays + days ≤ 389 := by
    unfold periodDays at hdays ⊢
    omega
  obtain ⟨disbursed, hdate, hnumber⟩ :=
    @Date.exists_subDays? today (elapsed * periodDays + days) (by omega)
  refine .bind (.lift (p := (· = disbursed)) ⟨disbursed, by rw [hdate]; rfl, rfl⟩) ?_
  rintro disbursed rfl
  refine (Draw.Yields.mapM fun number hmem => yields_drawInstallment ?_).imp ?_
  · have hle : number ≤ periods := by
      obtain ⟨k, hk, rfl⟩ := List.mem_map.1 hmem
      exact List.mem_range.1 hk
    unfold periodDays
    omega
  intro schedule hschedule
  have hlength : schedule.length = periods := by simpa using hschedule.length_eq.symm
  refine ⟨disbursed, by omega, by omega, by omega, by omega, ?_, fun i hi => ?_⟩
  · rw [hlength, map_eq_of_forall₂ (f := id) hschedule fun n i hi => hi.2, List.map_id]
  · obtain ⟨number, -, hi⟩ := exists_row_of_mem hschedule hi
    exact hi.1

/-! ## Paying installments -/

namespace Installment

variable {i : Installment} {disbursed : Date}

/-- What is paid of an installment is at most its due, and all of it for the first ones. -/
theorem IsDrawn.exists_paid (hi : i.IsDrawn disbursed) {share : Decimal} {m : Nat}
    (hshare : share.IsCents m) (hm : m ≤ 100) (index paidInFull : Nat) :
    ∃ paid, i.paid index paidInFull share = .ok paid ∧ paid.AreUpTo i.due.cents ∧
      (index < paidInFull → paid = i.due) := by
  have hlimit (k : Bucket) : i.due.cents k * 100 < Decimal.coeffLimit := by
    have hle := hi.due.cents_le k
    unfold maxDue at hle
    unfold Decimal.coeffLimit Bound.nat96
    omega
  unfold paid
  by_cases hbefore : index < paidInFull
  · rw [if_pos hbefore]
    exact ⟨i.due, rfl, hi.due.refl, fun _ => rfl⟩
  rw [if_neg hbefore]
  by_cases hnext : index = paidInFull
  · rw [if_pos hnext]
    obtain ⟨principal, hprincipal, p, hp, hpcents⟩ :=
      (hi.due.isCents .principal).exists_share hshare hm (hlimit .principal)
    obtain ⟨interest, hinterest, n, hn, hncents⟩ :=
      (hi.due.isCents .interest).exists_share hshare hm (hlimit .interest)
    have hprincipal : i.due.principal.mul share = .ok principal := hprincipal
    have hinterest : i.due.interest.mul share = .ok interest := hinterest
    rw [hprincipal, hinterest]
    refine ⟨_, rfl, Amounts.areUpTo_of_isCents fun k => ?_, fun h => absurd h hbefore⟩
    cases k with
    | principal => exact ⟨p, hp, hpcents⟩
    | interest => exact ⟨n, hn, hncents⟩
    | fee => exact ⟨0, Nat.zero_le _, Decimal.isCents_zero⟩
    | penalty => exact ⟨0, Nat.zero_le _, Decimal.isCents_zero⟩
  · rw [if_neg hnext]
    exact ⟨_, rfl, Amounts.areUpTo_zero _, fun h => absurd h hbefore⟩

end Installment

end Synthetic

end LoanArrears
