-- SUMMARY: A batch of writes against the same writes one at a time: when it succeeds, what it leaves, which error it ends with, and that it can be repeated.
import LoanArrears.Proofs.Job.Effects

/-!
# Batches

A write sets the entry of its loan whatever was there, so a list of writes is decided loan by
loan by the last write of it, and doing the list once more changes nothing. A batch stops at
the first write that is refused and takes back what came before it.
-/

namespace LoanArrears

namespace ArrearsTable

variable {t t' : ArrearsTable} {ws : List ArrearsWrite}

/-- The last write of a loan decides what is left under it. -/
theorem find?_applyAll_last {before after : List ArrearsWrite} {w : ArrearsWrite}
    {e : Option ArrearsEntry} (hw : w.entryLeft = .ok e) (hafter : ∀ w' ∈ after, w'.loan ≠ w.loan) :
    (t.applyAll (before ++ w :: after)).find? w.loan = e := by
  rw [applyAll_append, applyAll_cons,
    find?_applyAll_of_ne fun w' hw' => (hafter w' hw').symm, apply_of_entryLeft hw, find?_set,
    if_pos rfl]

/-- What is left under a loan that is written does not depend on what was there. -/
theorem find?_applyAll_eq {k : LoanId} (hok : ∀ w ∈ ws, ∃ e, w.entryLeft = .ok e)
    (hk : ∃ w ∈ ws, w.loan = k) : (t.applyAll ws).find? k = (t'.applyAll ws).find? k := by
  induction ws generalizing t t' with
  | nil => simp at hk
  | cons w ws ih =>
    rw [applyAll_cons, applyAll_cons]
    by_cases hw : w.loan = k
    · obtain ⟨e, he⟩ := hok w List.mem_cons_self
      apply find?_applyAll_congr
      rw [apply_of_entryLeft he, apply_of_entryLeft he, find?_set, find?_set, if_pos hw.symm,
        if_pos hw.symm]
    · obtain ⟨w', hw', hk'⟩ := hk
      rcases List.mem_cons.1 hw' with rfl | hw'
      · exact absurd hk' hw
      · exact ih (fun w hw => hok w (List.mem_cons_of_mem _ hw)) ⟨w', hw', hk'⟩

/-- Accepted writes change nothing when they are done once more. -/
theorem applyAll_applyAll (hok : ∀ w ∈ ws, ∃ e, w.entryLeft = .ok e) (t : ArrearsTable) :
    (t.applyAll ws).applyAll ws = t.applyAll ws := by
  apply Table.ext_find?
  intro k
  by_cases hk : ∃ w ∈ ws, w.loan = k
  · exact find?_applyAll_eq hok hk
  · exact find?_applyAll_of_ne fun w hw heq => hk ⟨w, hw, heq.symm⟩

end ArrearsTable

namespace Store

variable {b : Book} {t : ArrearsTable} {tx : Bool} {w : ArrearsWrite} {ws : List ArrearsWrite}

/-- The store does the write when it is the only one. -/
def Accepts (s : Store) (w : ArrearsWrite) : Prop :=
  ((write w : Act Store Unit).exec s).1 = .ok ()

theorem accepts_iff : Accepts ⟨some ⟨b, t⟩, tx⟩ w ↔ ∃ e, w.entryLeft = .ok e := by
  unfold Accepts
  rw [exec_write]
  cases w.entryLeft with
  | ok e => exact ⟨fun _ => ⟨e, rfl⟩, fun _ => rfl⟩
  | error f => simp

theorem not_accepts_iff : ¬ Accepts ⟨some ⟨b, t⟩, tx⟩ w ↔ ∃ f, w.entryLeft = .error f := by
  rw [accepts_iff]
  cases w.entryLeft with
  | ok e => simp
  | error f => simp

/-- A batch with a write that is not accepted ends with the error of the first such write, and
    the store stays as it is. -/
theorem exists_first_not_accepted (h : ∃ w ∈ ws, ¬ Accepts ⟨some ⟨b, t⟩, false⟩ w) :
    ∃ before w after e, ws = before ++ w :: after ∧
      (∀ w' ∈ before, Accepts ⟨some ⟨b, t⟩, false⟩ w') ∧ e.class = .data ∧
      (write w : Act Store Unit).exec ⟨some ⟨b, t⟩, false⟩ =
        (.error (.error e), ⟨some ⟨b, t⟩, false⟩) ∧
      (writeBatch ws : Act Store Unit).exec ⟨some ⟨b, t⟩, false⟩ =
        (.error (.error e), ⟨some ⟨b, t⟩, false⟩) := by
  obtain ⟨before, w, after, f, rfl, hbefore, hw⟩ :=
    ArrearsWrite.exists_first_refused (h.imp fun w => And.imp_right not_accepts_iff.1)
  obtain ⟨e, rfl, hdata⟩ := w.exists_of_entryLeft_eq_error hw
  refine ⟨before, w, after, e, rfl, fun w' hw' => accepts_iff.2 (hbefore w' hw'), hdata,
    exec_write_error hw, exec_atomically_error ?_⟩
  rw [exec_forM_write_first hbefore hw]

/-- A batch succeeds when the store accepts each of its writes alone. Then it leaves what the
    writes leave one at a time, in order: the last write of a loan decides about it, other loans
    keep what they have, and the same batch once more changes nothing. Otherwise it ends with
    the error of the first write that is not accepted, and the store stays as it is. -/
theorem batch_agrees_with_writes (b : Book) (t : ArrearsTable) (ws : List ArrearsWrite) :
    let s : Store := ⟨some ⟨b, t⟩, false⟩
    (((writeBatch ws : Act Store Unit).exec s).1 = .ok () ↔ ∀ w ∈ ws, s.Accepts w) ∧
    ((∀ w ∈ ws, s.Accepts w) → ∃ t' : ArrearsTable,
      let s' : Store := ⟨some ⟨b, t'⟩, false⟩
      (writeBatch ws : Act Store Unit).exec s = (.ok (), s') ∧
      (ws.forM write : Act Store Unit).exec s = (.ok (), s') ∧
      (∀ before w after, ws = before ++ w :: after → (∀ w' ∈ after, w'.loan ≠ w.loan) →
        ∀ t₀ : ArrearsTable, ∃ t₁ : ArrearsTable,
          (write w : Act Store Unit).exec ⟨some ⟨b, t₀⟩, false⟩ =
            (.ok (), ⟨some ⟨b, t₁⟩, false⟩) ∧
          t'.find? w.loan = t₁.find? w.loan) ∧
      (∀ id, (∀ w ∈ ws, w.loan ≠ id) → t'.find? id = t.find? id) ∧
      (writeBatch ws : Act Store Unit).exec s' = (.ok (), s')) ∧
    ((∃ w ∈ ws, ¬ s.Accepts w) → ∃ before w after e, ws = before ++ w :: after ∧
      (∀ w' ∈ before, s.Accepts w') ∧ e.class = .data ∧
      (write w : Act Store Unit).exec s = (.error (.error e), s) ∧
      (writeBatch ws : Act Store Unit).exec s = (.error (.error e), s)) := by
  intro s
  refine ⟨⟨fun hbatch => ?_, fun hall => ?_⟩, fun hall => ?_, exists_first_not_accepted⟩
  · by_contra hsome
    obtain ⟨-, -, -, e, -, -, -, -, hexec⟩ :=
      @exists_first_not_accepted b t ws (by simpa using hsome)
    rw [hexec] at hbatch
    cases hbatch
  · rw [exec_writeBatch_ok fun w hw => accepts_iff.1 (hall w hw)]
  · have hok : ∀ w ∈ ws, ∃ e, w.entryLeft = .ok e := fun w hw => accepts_iff.1 (hall w hw)
    refine ⟨t.applyAll ws, exec_writeBatch_ok hok, exec_forM_write_ok hok t, ?_, ?_, ?_⟩
    · rintro before w after rfl hafter t₀
      obtain ⟨e, he⟩ := hok w (List.mem_append_right _ List.mem_cons_self)
      refine ⟨t₀.set w.loan e, exec_write_ok he, ?_⟩
      rw [ArrearsTable.find?_applyAll_last he hafter, ArrearsTable.find?_set, if_pos rfl]
    · exact fun id hid => ArrearsTable.find?_applyAll_of_ne fun w hw => (hid w hw).symm
    · show (writeBatch ws : Act Store Unit).exec ⟨some ⟨b, t.applyAll ws⟩, false⟩ = _
      rw [exec_writeBatch_ok hok, ArrearsTable.applyAll_applyAll hok]

end Store

end LoanArrears
