-- SUMMARY: A replay commits the events in front of the first line that fails, and that line leaves no trace.
import LoanArrears.Proofs.Book.Writes
import LoanArrears.Proofs.CommandLine.Lines
import LoanArrears.Proofs.Format.RoundTrip
import LoanArrears.Proofs.Store.Keeping

/-!
# What a replay leaves

Every event is delivered in a transaction of its own, so a line either takes the store one
commit further or leaves it as it was. A replay is therefore cut at the first line that fails:
the events in front of it are committed in order, and it is the one that the failure names.
-/

namespace LoanArrears

/-! ## Delivering in a transaction -/

namespace Subscriptions

variable {t : Subscriptions Store} {s s' s₁ s₂ : Store} {e : LoanEvent} {events : List LoanEvent}

/-- The listeners of the event all succeed in a transaction, and the second store is what is
    committed. -/
def CommitsEvent (t : Subscriptions Store) (s : Store) (e : LoanEvent) (s' : Store) : Prop :=
  s.inTransaction = false ∧ ∃ n s₁,
    (t.deliver e).exec { s with inTransaction := true } = (.ok n, s₁) ∧
    s' = { s₁ with inTransaction := false }

/-- Why an event cannot be delivered in a transaction: there is one already, or a listener
    ends with a fault, whatever it and those before it have written. -/
inductive Refuses (t : Subscriptions Store) (s : Store) (e : LoanEvent) : Fault → Prop
  | nested : s.inTransaction = true → Refuses t s e (.error Store.nestedTransaction)
  | listener {f : Fault} : s.inTransaction = false →
      ((t.deliver e).exec { s with inTransaction := true }).1 = .error f → Refuses t s e f

/-- The events take one store to the other, each in a transaction of its own. -/
inductive Commits (t : Subscriptions Store) : Store → List LoanEvent → Store → Prop
  | nil (s : Store) : Commits t s [] s
  | cons {s s₁ s₂ : Store} {e : LoanEvent} {events : List LoanEvent} :
      t.CommitsEvent s e s₁ → Commits t s₁ events s₂ → Commits t s (e :: events) s₂

theorem CommitsEvent.exec (h : t.CommitsEvent s e s') :
    ∃ n, (Transactions.atomically (t.deliver e)).exec s = (.ok n, s') := by
  obtain ⟨tables, tx⟩ := s
  obtain ⟨htx, n, s₁, hexec, rfl⟩ := h
  cases htx
  refine ⟨n, (Store.exec_atomically _ _).trans ?_⟩
  rw [hexec]

theorem Refuses.exec {f : Fault} (h : t.Refuses s e f) :
    (Transactions.atomically (t.deliver e)).exec s = (.error f, s) := by
  obtain ⟨tables, tx⟩ := s
  cases h with
  | nested htx =>
    cases htx
    rfl
  | listener htx hexec =>
    cases htx
    exact Store.exec_atomically_error hexec

/-- An event is delivered or refused. -/
theorem commitsEvent_or_refuses (t : Subscriptions Store) (s : Store) (e : LoanEvent) :
    (∃ s', t.CommitsEvent s e s') ∨ ∃ f, t.Refuses s e f := by
  cases htx : s.inTransaction with
  | true => exact .inr ⟨_, .nested htx⟩
  | false =>
    rcases hexec : (t.deliver e).exec { s with inTransaction := true } with ⟨_ | n, s₁⟩
    · exact .inr ⟨_, .listener htx (congrArg Prod.fst hexec)⟩
    · exact .inl ⟨_, htx, n, s₁, hexec, rfl⟩

end Subscriptions

/-! ## Lines -/

namespace CommandLine

variable {t : Subscriptions Store} {s s' : Store} {path : String} {number replayed : Nat}
  {line : List Char} {before rest : List (List Char)} {events : List LoanEvent}
  {answer : Except Fault (Except Failure Nat)}

/-- The event that is written on a line. -/
def eventOf (line : List Char) : Except DecodeError LoanEvent :=
  LoanEvent.decoder.ofText (String.ofList line)

/-- An event is written on its line, as the text of its document. -/
theorem eventOf_render {e : LoanEvent} (h : ∀ id ∈ e.ids, IsInt64 id) :
    eventOf e.toJson.render.toList = .ok e := by
  rw [eventOf, String.ofList_toList]
  exact (LoanEvent.reads h).ofText

/-- The lines with a character that is not blank. -/
def written (ls : List (List Char)) : List (List Char) :=
  ls.filter fun line => line.any (!Text.isBlank ·)

theorem isBlankLine_eq_false :
    isBlankLine line = false ↔ ∃ c ∈ line, Text.isBlank c = false := by
  simp [isBlankLine]

theorem written_cons_of_blank {ls : List (List Char)} (h : isBlankLine line = true) :
    written (line :: ls) = written ls :=
  List.filter_cons_of_neg (by simpa [isBlankLine] using h)

theorem written_cons_of_not_blank {ls : List (List Char)} (h : isBlankLine line = false) :
    written (line :: ls) = line :: written ls :=
  List.filter_cons_of_pos (by simpa [isBlankLine] using h)

/-- How a line that is not blank ends the replay on a store: it has no event, or its event is
    refused. A listener that crashes gives no answer. -/
inductive Fails (t : Subscriptions Store) (s : Store) (path : String) (number : Nat)
    (line : List Char) : Except Fault (Except Failure Nat) → Prop
  | malformed {e : DecodeError} : eventOf line = .error e →
      Fails t s path number line (.ok (.error (.badEvent path number e)))
  | refused {event : LoanEvent} {e : Error} : eventOf line = .ok event →
      t.Refuses s event (.error e) →
      Fails t s path number line (.ok (.error (.refusedEvent path number event e)))
  | crashed {event : LoanEvent} {c : Crash} : eventOf line = .ok event →
      t.Refuses s event (.crash c) → Fails t s path number line (.error (.crash c))

/-- The failure of a line is told with the number of the line in front. -/
theorem Fails.message_eq {f : Failure} (h : Fails t s path number line answer)
    (hanswer : answer = .ok (.error f)) :
    ∃ what, f.message = path ++ ":" ++ toString number ++ ": " ++ what := by
  cases h with
  | @malformed e _ =>
    cases hanswer
    exact ⟨"invalid event: " ++ e.message, String.append_assoc⟩
  | @refused event _ _ _ =>
    cases hanswer
    exact ⟨event.kind.name ++ (" for loan " ++ toString event.loan),
      String.append_assoc.trans String.append_assoc⟩
  | crashed _ _ => cases hanswer

/-- A line that fails ends the replay and leaves the store as it is. -/
theorem Fails.exec (h : Fails t s path number line answer) (hline : isBlankLine line = false) :
    (replayLines t path number replayed (line :: rest)).exec s = (answer, s) := by
  rw [replayLines, if_neg (by simp [hline])]
  cases h with
  | malformed hevent =>
    rw [eventOf] at hevent
    rw [hevent]
    rfl
  | refused hevent hrefused =>
    rw [eventOf] at hevent
    rw [hevent]
    exact Act.exec_bind_ok (Act.exec_attempt_error hrefused.exec)
  | crashed hevent hcrashed =>
    rw [eventOf] at hevent
    rw [hevent]
    exact Act.exec_bind_error (Act.exec_attempt_crash hcrashed.exec)

/-- Behind lines whose events are committed, the replay goes on with their number and count. -/
theorem exec_replayLines_append (hevents : (written before).mapM eventOf = .ok events)
    (hcommits : t.Commits s events s') (number replayed : Nat) :
    (replayLines t path number replayed (before ++ rest)).exec s =
      (replayLines t path (number + before.length) (replayed + events.length) rest).exec s' := by
  induction before generalizing s events number replayed with
  | nil =>
    cases hevents
    cases hcommits
    rfl
  | cons line before ih =>
    rw [List.cons_append, List.length_cons, Nat.add_comm before.length, ← Nat.add_assoc,
      replayLines]
    cases hline : isBlankLine line with
    | true =>
      rw [written_cons_of_blank hline] at hevents
      exact ih hevents hcommits (number + 1) replayed
    | false =>
      rw [written_cons_of_not_blank hline, List.mapM_cons] at hevents
      obtain ⟨event, hevent, hevents⟩ := exists_of_bind_eq_ok hevents
      obtain ⟨others, hothers, hevents⟩ := exists_of_bind_eq_ok hevents
      cases hevents
      cases hcommits with
      | cons hcommit hcommits =>
        obtain ⟨n, hexec⟩ := hcommit.exec
        rw [eventOf] at hevent
        rw [if_neg Bool.false_ne_true, hevent, List.length_cons, Nat.add_comm others.length,
          ← Nat.add_assoc]
        exact (Act.exec_bind_ok (Act.exec_attempt_ok hexec)).trans
          (ih hothers hcommits (number + 1) (replayed + 1))

/-- Lines are cut at the first one that fails, if there is one. -/
theorem exists_cut (t : Subscriptions Store) (path : String) (ls : List (List Char)) (s : Store)
    (number : Nat) :
    ∃ before rest events s', ls = before ++ rest ∧ (written before).mapM eventOf = .ok events ∧
      t.Commits s events s' ∧
      (rest = [] ∨ ∃ line after answer, rest = line :: after ∧ isBlankLine line = false ∧
        Fails t s' path (number + before.length) line answer) := by
  induction ls generalizing s number with
  | nil => exact ⟨[], [], [], s, rfl, rfl, .nil s, .inl rfl⟩
  | cons line ls ih =>
    have hcut {answer} (hline : isBlankLine line = false)
        (h : Fails t s path number line answer) : ∃ before rest events s',
          line :: ls = before ++ rest ∧ (written before).mapM eventOf = .ok events ∧
          t.Commits s events s' ∧
          (rest = [] ∨ ∃ line after answer, rest = line :: after ∧ isBlankLine line = false ∧
            Fails t s' path (number + before.length) line answer) :=
      ⟨[], line :: ls, [], s, rfl, rfl, .nil s, .inr ⟨line, ls, answer, rfl, hline, h⟩⟩
    cases hline : isBlankLine line with
    | true =>
      obtain ⟨before, rest, events, s', hls, hevents, hcommits, hrest⟩ := ih s (number + 1)
      refine ⟨line :: before, rest, events, s', by rw [hls, List.cons_append], ?_, hcommits, ?_⟩
      · rwa [written_cons_of_blank hline]
      · rwa [List.length_cons, Nat.add_comm before.length, ← Nat.add_assoc]
    | false =>
      cases hevent : eventOf line with
      | error e => exact hcut hline (.malformed hevent)
      | ok event =>
        rcases t.commitsEvent_or_refuses s event with ⟨s₁, hcommit⟩ | ⟨_ | _, hrefused⟩
        · obtain ⟨before, rest, events, s', hls, hevents, hcommits, hrest⟩ := ih s₁ (number + 1)
          refine ⟨line :: before, rest, event :: events, s', by rw [hls, List.cons_append], ?_,
            .cons hcommit hcommits, ?_⟩
          · rw [written_cons_of_not_blank hline, List.mapM_cons, hevent, hevents]
            rfl
          · rwa [List.length_cons, Nat.add_comm before.length, ← Nat.add_assoc]
        · exact hcut hline (.refused hevent hrefused)
        · exact hcut hline (.crashed hevent hrefused)

end CommandLine

/-! ## A sample text -/

namespace Sample

/-- The arrears listener, and behind it one that accepts no foreclosure. -/
def withoutForeclosures : Subscriptions Store :=
  (Subscriptions.standard fun _ => today).subscribe [.foreclosed]
    ⟨"no_foreclosures", fun _ => Act.fail (.other "no foreclosures")⟩

def repaymentLine : String :=
  "\x7b\"type\":\"repayment_posted\",\"loan_id\":2,\"transaction_id\":2\x7d"

def foreclosureLine : String :=
  "\x7b\"type\":\"foreclosed\",\"loan_id\":1,\"transaction_id\":3\x7d"

/-- A repayment of loan 2 and a foreclosure of loan 1, with a blank line in front of either, and
    a line that is no event. -/
def eventsText : String :=
  "\r\n" ++ repaymentLine ++ "\r\n \t\n" ++ foreclosureLine ++ "\nnull"

theorem lines_eventsText : CommandLine.lines eventsText.toList =
    [[], repaymentLine.toList, [' ', '\t']] ++ [foreclosureLine.toList, "null".toList] := by
  decide +kernel

theorem eventOf_repaymentLine :
    CommandLine.eventOf repaymentLine.toList = .ok (.repaymentPosted 2 2) := by
  rw [show repaymentLine = (LoanEvent.repaymentPosted 2 2).toJson.render from rfl]
  exact CommandLine.eventOf_render (by simp [LoanEvent.ids, IsInt64, Bound.int64])

theorem eventOf_foreclosureLine :
    CommandLine.eventOf foreclosureLine.toList = .ok (.foreclosed 1 3) := by
  rw [show foreclosureLine = (LoanEvent.foreclosed 1 3).toJson.render from rfl]
  exact CommandLine.eventOf_render (by simp [LoanEvent.ids, IsInt64, Bound.int64])

/-- The store that the events of the text come to, and the one that its repayment leaves. -/
def newStore : Store :=
  ⟨some ⟨book 2, Table.empty⟩, false⟩

def repaidStore : Store :=
  { ((withoutForeclosures.deliver (.repaymentPosted 2 2)).exec
      { newStore with inTransaction := true }).2 with inTransaction := false }

theorem commits_repayment :
    withoutForeclosures.Commits newStore [.repaymentPosted 2 2] repaidStore := by
  have hdelivered : ((withoutForeclosures.deliver (.repaymentPosted 2 2)).exec
      { newStore with inTransaction := true }).1 = .ok 1 := by decide +kernel
  exact .cons ⟨rfl, 1, _, Prod.ext hdelivered rfl, rfl⟩ (.nil _)

theorem refuses_foreclosure :
    withoutForeclosures.Refuses repaidStore (.foreclosed 1 3) (.error (.other "no foreclosures")) :=
  .listener rfl (by decide +kernel)

end Sample

/-! ## Replaying a text -/

namespace CommandLine

/-- The lines of the text are cut at the first one that fails: the events of those in front of it
    are committed in order, and the store is left like that. If no line fails the answer is how
    many are not blank; otherwise it is the failure of that line, told with its number. -/
theorem replay_commits_prefix (t : Subscriptions Store) (path text : String) (s : Store) :
    ∃ before rest events s', HasLines text.toList (before ++ rest) ∧
      (written before).mapM eventOf = .ok events ∧ t.Commits s events s' ∧
      ((rest = [] ∧ (replay t path (.ok text)).exec s = (.ok (.ok (written before).length), s')) ∨
        ∃ line after answer, rest = line :: after ∧ (∃ c ∈ line, Text.isBlank c = false) ∧
          Fails t s' path (before.length + 1) line answer ∧
          (∀ f, answer = .ok (.error f) → ∃ what,
            f.message = path ++ ":" ++ toString (before.length + 1) ++ ": " ++ what) ∧
          (replay t path (.ok text)).exec s = (answer, s')) := by
  obtain ⟨before, rest, events, s', hls, hevents, hcommits, hrest⟩ :=
    exists_cut t path (lines text.toList) s 1
  refine ⟨before, rest, events, s', hasLines_iff.2 hls, hevents, hcommits, ?_⟩
  have hreplay : (replay t path (.ok text)).exec s =
      (replayLines t path (1 + before.length) (0 + events.length) rest).exec s' := by
    rw [replay, hls]
    exact exec_replayLines_append hevents hcommits 1 0
  rcases hrest with rfl | ⟨line, after, answer, rfl, hline, hfails⟩
  · rw [← length_eq_of_mapM_eq_ok hevents]
    exact .inl ⟨rfl, by rw [hreplay, Nat.zero_add]; rfl⟩
  · rw [Nat.add_comm before.length 1]
    exact .inr ⟨line, after, answer, rfl, isBlankLine_eq_false.1 hline, hfails,
      fun f => hfails.message_eq, hreplay.trans (hfails.exec hline)⟩

/-- The foreclosure is on the fourth line. The arrears listener writes the row of loan 1 before the
    other one refuses, and only the row of loan 2 is left. -/
theorem replay_commits_prefix_sample :
    ∃ before rest s' f, HasLines Sample.eventsText.toList (before ++ rest) ∧ before.length = 3 ∧
      (written before).mapM eventOf = .ok [.repaymentPosted 2 2] ∧
      Sample.withoutForeclosures.Commits Sample.newStore [.repaymentPosted 2 2] s' ∧
      (replay Sample.withoutForeclosures "events.jsonl" (.ok Sample.eventsText)).exec
        Sample.newStore = (.ok (.error f), s') ∧
      f.message = "events.jsonl:4: foreclosed for loan 1" ∧
      (((Sample.withoutForeclosures.deliver (.foreclosed 1 3)).exec
        { s' with inTransaction := true }).2.arrears.find? 1).isSome ∧
      s'.arrears.find? 1 = none ∧ (s'.arrears.find? 2).isSome := by
  have hbefore : (written [[], Sample.repaymentLine.toList, [' ', '\t']]).mapM eventOf =
      .ok [.repaymentPosted 2 2] := by
    have hwritten : written [[], Sample.repaymentLine.toList, [' ', '\t']] =
        [Sample.repaymentLine.toList] := by decide +kernel
    rw [hwritten, List.mapM_cons, Sample.eventOf_repaymentLine]
    rfl
  have hreplay : (replay Sample.withoutForeclosures "events.jsonl" (.ok Sample.eventsText)).exec
      Sample.newStore = (.ok (.error (.refusedEvent "events.jsonl" 4 (.foreclosed 1 3)
        (.other "no foreclosures"))), Sample.repaidStore) := by
    have hline : isBlankLine Sample.foreclosureLine.toList = false := by decide +kernel
    rw [replay, Sample.lines_eventsText, exec_replayLines_append hbefore Sample.commits_repayment]
    exact (Fails.refused Sample.eventOf_foreclosureLine Sample.refuses_foreclosure).exec hline
  obtain ⟨before, rest, events, s', hlines, hevents, hcommits, hrest⟩ :=
    replay_commits_prefix Sample.withoutForeclosures "events.jsonl" Sample.eventsText
      Sample.newStore
  rcases hrest with ⟨-, hexec⟩ | ⟨line, after, answer, rfl, -, hfails, -, hexec⟩
  · cases hreplay.symm.trans hexec
  cases hreplay.symm.trans hexec
  -- The number of the failure is the one that was counted.
  generalize hnumber : before.length + 1 = number at hfails
  cases hfails
  have hlength : before.length = 3 := Nat.succ.inj hnumber
  obtain ⟨rfl, -⟩ := List.append_inj
    ((hasLines_iff.1 hlines).symm.trans Sample.lines_eventsText) hlength
  cases hbefore.symm.trans hevents
  exact ⟨_, _, _, _, hlines, hlength, hevents, hcommits, hexec, by decide +kernel,
    by decide +kernel, by decide +kernel, by decide +kernel⟩

end CommandLine

end LoanArrears
