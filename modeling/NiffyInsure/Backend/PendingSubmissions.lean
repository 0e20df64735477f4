import NiffyInsure.Backend.Submissions
import NiffyInsure.Lib.Custody

/-!
# Submissions queued for retry

`submitTransaction` (`soroban.service.ts`) sends an envelope to the network through a circuit
breaker.  Whatever goes wrong, it looks whether the breaker is open now; if so, it queues the
envelope and answers `PENDING`.  `processPendingSubmissions` empties the queue and submits what was
in it, one envelope after the other; what fails is queued again.

A request that is queued gets a ticket, which no code reads.  An envelope may reach the network
although its answer gets lost or comes too late.

* `queued_once_of_reach`: a queued request is in one place until it is accepted, and one that the
  network has rejected is not submitted again, as long as a queued submission is never rejected,
  never asked to try later, and never accepted without the answer coming back in time.
-/

namespace NiffyInsure.Backend.PendingSubmissions

open Custody
open Submissions (Status)

/-! ## The data -/

structure SendTransactionResponse where
  status : Status
  hash : String
  errorResult : Option String
  deriving DecidableEq

inductive Error where
  /-- `TransactionBuilder.fromXDR` throws. -/
  | invalidXdr
  | serviceUnavailable (code message : String)
  /-- The breaker does not let the call through. -/
  | breakerOpen
  /-- The call has taken longer than the breaker waits. -/
  | timedOut
  deriving DecidableEq

def submissionFailed : Error :=
  .serviceUnavailable "SUBMISSION_FAILED" "Failed to submit transaction to the network."

/-- The answer to a request that is queued. -/
def queued : SendTransactionResponse :=
  ⟨.PENDING, "", some "Transaction queued for retry when RPC recovers"⟩

structure PendingSubmission where
  ticket : Nat
  transactionXdr : String
  deriving DecidableEq

/-- A queued request was submitted once more, or the network has answered a submission of it with
`ERROR`. -/
inductive Event where
  | resubmitted (ticket : Nat)
  | rejected (ticket : Nat)
  deriving DecidableEq

/-- The queue, the number of tickets, the tickets of the submissions that the network has accepted
and of those that are still under way although nobody waits for them, and the log. -/
structure State where
  pendingSubmissions : List PendingSubmission
  tickets : Nat
  accepted : List Nat
  late : List Nat
  log : List Event

/-- Who submits: a request, or a run of `processPendingSubmissions` that has the rest to do yet. -/
inductive Job where
  | direct (transactionXdr : String)
  | drain (submission : PendingSubmission) (rest : List PendingSubmission)
  deriving DecidableEq

def Job.transactionXdr : Job → String
  | .direct transactionXdr => transactionXdr
  | .drain submission _ => submission.transactionXdr

/-- How far a call has come. -/
inductive Call where
  /-- The breaker is asked. -/
  | fire (job : Job)
  /-- The network is to answer. -/
  | sendTransaction (job : Job)
  | returned (response : SendTransactionResponse) (ticket : Option Nat)
  | threw (error : Error)
  | processed
  deriving DecidableEq

/-- What happens to a call, with whether the breaker is open then.  Of a submission that fails, the
network may have seen the envelope: `reached` is what it has answered in vain. -/
inductive Outcome where
  | refused (opened : Bool)
  | fired (opened : Bool)
  | answered (response : SendTransactionResponse) (opened : Bool)
  | failed (reached : Option Status) (opened : Bool)
  | timedOut (opened : Bool)

/-- `processPendingSubmissions` looks whether the breaker is open. -/
inductive Request where
  | submitTransaction (transactionXdr : String)
  | processPendingSubmissions (opened : Bool)

/-! ## The calls -/

/-- What the network has answered to a submission of a queued request. -/
def State.note (s : State) (ticket : Nat) : Option Status → State
  | some .PENDING | some .DUPLICATE =>
    if ticket ∈ s.accepted then s else { s with accepted := s.accepted ++ [ticket] }
  | some .ERROR => { s with log := s.log ++ [.rejected ticket] }
  | some .TRY_AGAIN_LATER | none => s

/-- The loop of `processPendingSubmissions`, up to its next submission. -/
def drain : List PendingSubmission → Call
  | [] => .processed
  | submission :: rest => .fire (.drain submission rest)

/-- A submission has failed.  A drain queues the envelope again, be it in `submitTransaction` (when
the breaker is open) or in the loop (when it is not). -/
def fail (s : State) (error : Error) (reached : Option Status) (late opened : Bool) :
    Job → State × Call
  | .direct transactionXdr =>
    if opened then
      let s := s.note s.tickets reached
      ({ s with
        pendingSubmissions := s.pendingSubmissions ++ [⟨s.tickets, transactionXdr⟩]
        tickets := s.tickets + 1
        late := if late then s.late ++ [s.tickets] else s.late }, .returned queued (some s.tickets))
    else (s, .threw error)
  | .drain submission rest =>
    let s := s.note submission.ticket reached
    ({ s with
      pendingSubmissions := s.pendingSubmissions ++ [submission]
      late := if late then s.late ++ [submission.ticket] else s.late }, drain rest)

/-- A submission has come back with something else than `ERROR`. -/
def succeed (s : State) (response : SendTransactionResponse) : Job → State × Call
  | .direct _ => (s, .returned response none)
  | .drain submission rest => (s.note submission.ticket (some response.status), drain rest)

/-- A submission goes out. -/
def State.sent (s : State) : Job → State
  | .direct _ => s
  | .drain submission _ => { s with log := s.log ++ [.resubmitted submission.ticket] }

variable (fromXDR : String → Bool)

/-- The next step.  The rejection that `submitFn` throws is caught where a failure of the transport
is. -/
def next (s : State) : Call → Outcome → Option (State × Call)
  | .fire job, .refused opened => some (fail s .breakerOpen none false opened job)
  | .fire job, .fired opened =>
    if fromXDR job.transactionXdr then some (s.sent job, .sendTransaction job)
    else some (fail s .invalidXdr none false opened job)
  | .sendTransaction job, .answered response opened =>
    if response.status = .ERROR then some (fail s submissionFailed (some .ERROR) false opened job)
    else some (succeed s response job)
  | .sendTransaction job, .failed reached opened =>
    some (fail s submissionFailed reached false opened job)
  | .sendTransaction job, .timedOut opened => some (fail s .timedOut none true opened job)
  | _, _ => none

def start (s : State) : Request → Option (State × Call)
  | .submitTransaction transactionXdr => some (s, .fire (.direct transactionXdr))
  | .processPendingSubmissions opened =>
    if s.pendingSubmissions = [] ∨ opened then some (s, .processed)
    else some ({ s with pendingSubmissions := [] }, drain s.pendingSubmissions)

/-- What becomes of a submission that nobody waits for. -/
def settle (s : State) (ticket : Nat) (reached : Option Status) : Option State :=
  if ticket ∈ s.late then some (State.note { s with late := s.late.erase ticket } ticket reached)
  else none

/-- The calls of `submitTransaction` and `processPendingSubmissions`. -/
def program : Concurrent.Program State Call Request Outcome (Nat × Option Status) where
  start := start
  next := next fromXDR
  around s e := settle s e.1 e.2

/-- Nothing was submitted yet. -/
def State.fresh : State := ⟨[], 0, [], [], []⟩

def machine : Machine (Concurrent.State State Call)
    (Concurrent.Label Request Outcome (Nat × Option Status)) :=
  (program fromXDR).machine (· = .fresh)

/-! ## What is claimed of them -/

/-- The tickets of the requests that a drain is submitting, or has to submit yet. -/
def Job.draining : Job → List Nat
  | .direct _ => []
  | .drain submission rest => (submission :: rest).map PendingSubmission.ticket

def Call.draining : Call → List Nat
  | .fire job | .sendTransaction job => job.draining
  | _ => []

def State.pending (s : State) : List Nat := s.pendingSubmissions.map PendingSubmission.ticket

/-- A queued request goes from the queue to a drain, from there back to the queue or to the
network. -/
def view : View State Call Nat where
  issued s := List.range s.tickets
  kept s := s.pending ++ s.accepted
  held := Call.draining

/-- No queued request is submitted after the network has answered `ERROR` to a submission of it. -/
def NotResubmitted (log : List Event) : Prop :=
  log.Pairwise fun e e' => ∀ ticket, e = .rejected ticket → e' ≠ .resubmitted ticket

/-- The network has neither accepted nor rejected. -/
def Undecided (reached : Option Status) : Prop := reached = none ∨ reached = some .TRY_AGAIN_LATER

instance (reached : Option Status) : Decidable (Undecided reached) :=
  inferInstanceAs (Decidable (_ ∨ _))

/-- A request that is rejected, or accepted without the answer coming back, does not find the
breaker open; a drain is answered `PENDING` or `DUPLICATE`, or fails without the network having
accepted or rejected. -/
def Undisturbed : Call → Outcome → Prop
  | .sendTransaction (.direct _), .answered response opened =>
    response.status = .ERROR → opened = false
  | .sendTransaction (.direct _), .failed reached opened => ¬ Undecided reached → opened = false
  | .sendTransaction (.drain _ _), .answered response _ =>
    response.status = .PENDING ∨ response.status = .DUPLICATE
  | .sendTransaction (.drain _ _), .failed reached _ => Undecided reached
  | _, _ => True

instance (p : Call) (outcome : Outcome) : Decidable (Undisturbed p outcome) :=
  match p, outcome with
  | .sendTransaction (.direct _), .answered response opened =>
    inferInstanceAs (Decidable (response.status = .ERROR → opened = false))
  | .sendTransaction (.direct _), .failed reached opened =>
    inferInstanceAs (Decidable (¬ Undecided reached → opened = false))
  | .sendTransaction (.drain _ _), .answered response _ =>
    inferInstanceAs (Decidable (response.status = .PENDING ∨ response.status = .DUPLICATE))
  | .sendTransaction (.drain _ _), .failed reached _ =>
    inferInstanceAs (Decidable (Undecided reached))
  | .sendTransaction (.direct _), .refused _ | .sendTransaction (.direct _), .fired _
  | .sendTransaction (.direct _), .timedOut _ | .sendTransaction (.drain _ _), .refused _
  | .sendTransaction (.drain _ _), .fired _ | .sendTransaction (.drain _ _), .timedOut _
  | .fire _, _ | .returned _ _, _ | .threw _, _ | .processed, _ => inferInstanceAs (Decidable True)

/-- The call that takes the step is undisturbed; and the network accepts or rejects a submission
that nobody waits for only when it has accepted the same request already. -/
def QueueClear (s : Concurrent.State State Call) :
    Concurrent.Label Request Outcome (Nat × Option Status) → Prop
  | .next i outcome => ∀ p ∈ s.calls[i]?, Undisturbed p outcome
  | .around e => ¬ Undecided e.2 → e.1 ∈ s.shared.accepted
  | .start _ => True

instance (s : Concurrent.State State Call)
    (l : Concurrent.Label Request Outcome (Nat × Option Status)) : Decidable (QueueClear s l) :=
  match l with
  | .next i outcome => inferInstanceAs (Decidable (∀ p ∈ s.calls[i]?, Undisturbed p outcome))
  | .around e => inferInstanceAs (Decidable (¬ Undecided e.2 → e.1 ∈ s.shared.accepted))
  | .start _ => inferInstanceAs (Decidable True)

variable {fromXDR} {s : Concurrent.State State Call} {shared : State} {p : Call} {q : State × Call}
  {outcome : Outcome} {reached : Option Status} {opened : Bool} {job : Job} {ticket : Nat}

/-! ## One step -/

theorem note_of_undecided (h : Undecided reached) (shared : State) (ticket : Nat) :
    shared.note ticket reached = shared := by
  rcases h with rfl | rfl <;> rfl

theorem note_of_accepted {status : Status} (hstatus : status = .PENDING ∨ status = .DUPLICATE)
    (hnew : ticket ∉ shared.accepted) :
    shared.note ticket (some status) = { shared with accepted := shared.accepted ++ [ticket] } := by
  rcases hstatus with rfl | rfl
  · exact if_neg hnew
  · exact if_neg hnew

theorem draining_drain (rest : List PendingSubmission) :
    (drain rest).draining = rest.map PendingSubmission.ticket := by
  cases rest with
  | nil => rfl
  | cons submission rest => rfl

/-- A failure is clear when the network has decided nothing, or the request is not queued. -/
def FailsClear (reached : Option Status) (opened : Bool) (job : Job) : Prop :=
  Undecided reached ∨ opened = false ∧ ∃ transactionXdr, job = .direct transactionXdr

/-- **What one step does.**  A submission fails, goes out, or succeeds. -/
theorem next_cases (hclear : Undisturbed p outcome) (h : next fromXDR shared p outcome = some q) :
    (∃ job error reached late opened, (p = .fire job ∨ p = .sendTransaction job) ∧
      FailsClear reached opened job ∧ q = fail shared error reached late opened job) ∨
    (∃ job, p = .fire job ∧ q = (shared.sent job, .sendTransaction job)) ∨
    ∃ job response, p = .sendTransaction job ∧ q = succeed shared response job ∧
      ∀ submission rest, job = .drain submission rest →
        response.status = .PENDING ∨ response.status = .DUPLICATE := by
  rw [next.eq_def] at h
  split at h
  · cases h
    exact .inl ⟨_, _, _, _, _, .inl rfl, .inl (.inl rfl), rfl⟩
  · split at h
    · cases h
      exact .inr (.inl ⟨_, rfl, rfl⟩)
    · cases h
      exact .inl ⟨_, _, _, _, _, .inl rfl, .inl (.inl rfl), rfl⟩
  · rename_i job response opened
    split at h
    · rename_i hstatus
      cases h
      refine .inl ⟨_, _, _, _, _, .inr rfl, ?_, rfl⟩
      cases job with
      | direct transactionXdr => exact .inr ⟨hclear hstatus, _, rfl⟩
      | drain submission rest =>
        rcases hclear with hclear | hclear <;> rw [hclear] at hstatus <;> cases hstatus
    · cases h
      refine .inr (.inr ⟨_, _, rfl, rfl, ?_⟩)
      rintro submission rest rfl
      exact hclear
  · rename_i job reached opened
    cases h
    refine .inl ⟨_, _, _, _, _, .inr rfl, ?_, rfl⟩
    cases job with
    | direct transactionXdr =>
      by_cases hreached : Undecided reached
      · exact .inl hreached
      · exact .inr ⟨hclear hreached, _, rfl⟩
    | drain submission rest => exact .inl hclear
  · cases h
    exact .inl ⟨_, _, _, _, _, .inr rfl, .inl (.inl rfl), rfl⟩
  · cases h

theorem balanced_fail (hclear : FailsClear reached opened job) (shared : State) (error : Error)
    (late : Bool) :
    view.Balanced shared (fail shared error reached late opened job).1 job.draining
      (fail shared error reached late opened job).2.draining := by
  cases job with
  | direct transactionXdr =>
    cases opened with
    | false => exact .refl _ _
    | true =>
      have hreached : Undecided reached := by
        rcases hclear with hclear | ⟨hopened, -⟩
        · exact hclear
        · cases hopened
      rw [fail, if_pos rfl, note_of_undecided hreached]
      intro k
      show (List.range (shared.tickets + 1)).count k + (shared.pending ++ shared.accepted).count k +
          ([] : List Nat).count k =
        (List.range shared.tickets).count k + ((shared.pendingSubmissions ++
          [PendingSubmission.mk shared.tickets transactionXdr]).map PendingSubmission.ticket ++
            shared.accepted).count k + ([] : List Nat).count k
      rw [List.range_succ, List.map_append, State.pending]
      simp only [List.count_append, List.map_cons, List.map_nil]
      omega
  | drain submission rest =>
    have hreached : Undecided reached := by
      rcases hclear with hclear | ⟨-, transactionXdr, hjob⟩
      · exact hclear
      · cases hjob
    rw [fail, note_of_undecided hreached]
    intro k
    show (List.range shared.tickets).count k + (shared.pending ++ shared.accepted).count k +
        (submission.ticket :: rest.map PendingSubmission.ticket).count k =
      (List.range shared.tickets).count k + ((shared.pendingSubmissions ++
        [submission]).map PendingSubmission.ticket ++ shared.accepted).count k +
          (drain rest).draining.count k
    rw [draining_drain, List.map_append, State.pending]
    simp only [List.count_append, List.count_cons, List.map_cons, List.map_nil, List.count_nil]
    omega

theorem balanced_succeed {response : SendTransactionResponse}
    (hstatus : ∀ submission rest, job = .drain submission rest →
      response.status = .PENDING ∨ response.status = .DUPLICATE)
    (hnew : ∀ t ∈ job.draining, t ∉ shared.accepted) :
    view.Balanced shared (succeed shared response job).1 job.draining
      (succeed shared response job).2.draining := by
  cases job with
  | direct transactionXdr => exact .refl _ _
  | drain submission rest =>
    have haccepted : submission.ticket ∉ shared.accepted := hnew _ (List.mem_cons_self ..)
    rw [succeed, note_of_accepted (hstatus submission rest rfl) haccepted]
    intro k
    show (List.range shared.tickets).count k + (shared.pending ++ shared.accepted).count k +
        (submission.ticket :: rest.map PendingSubmission.ticket).count k =
      (List.range shared.tickets).count k +
        (shared.pending ++ (shared.accepted ++ [submission.ticket])).count k +
          (drain rest).draining.count k
    rw [draining_drain]
    simp only [List.count_append, List.count_cons, List.count_nil]
    omega

theorem balanced_next (hclear : Undisturbed p outcome)
    (hnew : ∀ t ∈ p.draining, t ∉ shared.accepted) (h : next fromXDR shared p outcome = some q) :
    view.Balanced shared q.1 p.draining q.2.draining := by
  rcases next_cases hclear h with ⟨job, error, reached, late, opened, rfl | rfl, hfail, rfl⟩ |
    ⟨job, rfl, rfl⟩ | ⟨job, response, rfl, rfl, hstatus⟩
  · exact balanced_fail hfail shared error late
  · exact balanced_fail hfail shared error late
  · cases job <;> exact .refl _ _
  · exact balanced_succeed hstatus hnew

/-- A call submits an envelope, finds nothing to do, or takes the whole queue. -/
theorem start_cases {request : Request} (h : start shared request = some q) :
    (∃ transactionXdr, q = (shared, .fire (.direct transactionXdr))) ∨ q = (shared, .processed) ∨
      q = ({ shared with pendingSubmissions := [] }, drain shared.pendingSubmissions) := by
  cases request with
  | submitTransaction transactionXdr =>
    cases h
    exact .inl ⟨transactionXdr, rfl⟩
  | processPendingSubmissions opened =>
    rw [start] at h
    split at h
    · cases h
      exact .inr (.inl rfl)
    · cases h
      exact .inr (.inr rfl)

theorem balanced_start {request : Request} (h : start shared request = some q) :
    view.Balanced shared q.1 [] q.2.draining := by
  rcases start_cases h with ⟨transactionXdr, rfl⟩ | rfl | rfl
  · exact .refl _ _
  · exact .refl _ _
  · intro k
    show (List.range shared.tickets).count k + (shared.pending ++ shared.accepted).count k +
        ([] : List Nat).count k =
      (List.range shared.tickets).count k + ([] ++ shared.accepted).count k +
        (drain shared.pendingSubmissions).draining.count k
    rw [draining_drain, State.pending]
    simp only [List.count_append, List.count_nil]
    omega

/-- **What becomes of a late submission**: nothing that counts, or it is rejected after the request
was accepted. -/
theorem settle_cases (hclear : ¬ Undecided reached → ticket ∈ shared.accepted) {after : State}
    (h : settle shared ticket reached = some after) :
    after = { shared with late := shared.late.erase ticket } ∨
      ticket ∈ shared.accepted ∧ after = { shared with
        late := shared.late.erase ticket, log := shared.log ++ [.rejected ticket] } := by
  rw [settle] at h
  split at h
  · cases h
    by_cases hreached : Undecided reached
    · exact .inl (note_of_undecided hreached _ _)
    · have haccepted := hclear hreached
      cases reached with
      | none => exact absurd (.inl rfl) hreached
      | some status =>
        cases status with
        | PENDING => exact .inl (if_pos haccepted)
        | DUPLICATE => exact .inl (if_pos haccepted)
        | TRY_AGAIN_LATER => exact absurd (.inr rfl) hreached
        | ERROR => exact .inr ⟨haccepted, rfl⟩
  · cases h

/-- A request that was rejected is accepted already, and was not submitted since. -/
structure State.Sound (s : State) : Prop where
  rejected : ∀ ticket, .rejected ticket ∈ s.log → ticket ∈ s.accepted
  log : NotResubmitted s.log

theorem State.Sound.of_same {s t : State} (h : s.Sound) (hlog : t.log = s.log)
    (haccepted : s.accepted ⊆ t.accepted) : t.Sound := by
  refine ⟨fun ticket hmem => ?_, ?_⟩
  · rw [hlog] at hmem
    exact haccepted (h.rejected ticket hmem)
  · rw [hlog]
    exact h.log

theorem NotResubmitted.append {log : List Event} {e : Event} (h : NotResubmitted log)
    (he : ∀ ticket, .rejected ticket ∈ log → e ≠ .resubmitted ticket) :
    NotResubmitted (log ++ [e]) := by
  refine List.pairwise_append.mpr ⟨h, List.pairwise_singleton _ _, ?_⟩
  rintro a ha b hb ticket rfl
  rw [List.mem_singleton.mp hb]
  exact he ticket ha

theorem sound_fail (h : shared.Sound) (hclear : FailsClear reached opened job) (error : Error)
    (late : Bool) : (fail shared error reached late opened job).1.Sound := by
  rcases hclear with hclear | ⟨rfl, transactionXdr, rfl⟩
  · cases job with
    | direct transactionXdr =>
      rw [fail, note_of_undecided hclear]
      split
      · exact h.of_same rfl (List.Subset.refl _)
      · exact h
    | drain submission rest =>
      rw [fail, note_of_undecided hclear]
      exact h.of_same rfl (List.Subset.refl _)
  · exact h

/-- **A step submits nothing that was rejected.** -/
theorem sound_next (h : shared.Sound) (hclear : Undisturbed p outcome)
    (hnew : ∀ t ∈ p.draining, t ∉ shared.accepted) (hq : next fromXDR shared p outcome = some q) :
    q.1.Sound := by
  rcases next_cases hclear hq with ⟨job, error, reached, late, opened, -, hfail, rfl⟩ |
    ⟨job, rfl, rfl⟩ | ⟨job, response, rfl, rfl, hstatus⟩
  · exact sound_fail h hfail error late
  · cases job with
    | direct transactionXdr => exact h
    | drain submission rest =>
      -- a request that a drain submits is not accepted yet, so it was not rejected
      refine ⟨fun ticket hmem => ?_, h.log.append ?_⟩
      · rcases List.mem_append.mp hmem with hmem | hmem
        · exact h.rejected ticket hmem
        · cases List.mem_singleton.mp hmem
      · rintro ticket hmem heq
        cases heq
        exact hnew _ (List.mem_cons_self ..) (h.rejected _ hmem)
  · cases job with
    | direct transactionXdr => exact h
    | drain submission rest =>
      have haccepted : submission.ticket ∉ shared.accepted := hnew _ (List.mem_cons_self ..)
      rw [succeed, note_of_accepted (hstatus submission rest rfl) haccepted]
      exact h.of_same rfl (List.subset_append_left ..)

/-- What holds of a call: the ticket of its request is one. -/
def CallSound (s : State) : Call → Prop
  | .returned _ ticket => ∀ t ∈ ticket, t < s.tickets
  | _ => True

theorem callSound_drain (s : State) (rest : List PendingSubmission) : CallSound s (drain rest) := by
  cases rest <;> trivial

theorem tickets_note (s : State) (ticket : Nat) (reached : Option Status) :
    (s.note ticket reached).tickets = s.tickets := by
  rw [State.note.eq_def]
  split
  · split <;> rfl
  · split <;> rfl
  · rfl
  · rfl
  · rfl

/-- There are as many tickets as before, or one more, and the call has one of them. -/
theorem callSound_fail (shared : State) (error : Error) (reached : Option Status)
    (late opened : Bool)
    (job : Job) : shared.tickets ≤ (fail shared error reached late opened job).1.tickets ∧
      CallSound (fail shared error reached late opened job).1
        (fail shared error reached late opened job).2 := by
  cases job with
  | direct transactionXdr =>
    rw [fail]
    split
    · show shared.tickets ≤ (shared.note shared.tickets reached).tickets + 1 ∧
        ∀ t ∈ some (shared.note shared.tickets reached).tickets,
          t < (shared.note shared.tickets reached).tickets + 1
      rw [tickets_note]
      refine ⟨Nat.le_succ _, fun t ht => ?_⟩
      cases ht
      exact Nat.lt_succ_self _
    · exact ⟨Nat.le_refl _, trivial⟩
  | drain submission rest =>
    rw [fail]
    exact ⟨Nat.le_of_eq (tickets_note ..).symm, callSound_drain _ rest⟩

theorem callSound_next (h : next fromXDR shared p outcome = some q) :
    shared.tickets ≤ q.1.tickets ∧ CallSound q.1 q.2 := by
  rw [next.eq_def] at h
  split at h
  · cases h
    exact callSound_fail ..
  · split at h
    · rename_i job _ _
      cases h
      cases job <;> exact ⟨Nat.le_refl _, trivial⟩
    · cases h
      exact callSound_fail ..
  · split at h
    · cases h
      exact callSound_fail ..
    · rename_i job _ _ _
      cases h
      cases job with
      | direct transactionXdr => exact ⟨Nat.le_refl _, nofun⟩
      | drain submission rest =>
        exact ⟨Nat.le_of_eq (tickets_note ..).symm, callSound_drain _ rest⟩
  · cases h
    exact callSound_fail ..
  · cases h
    exact callSound_fail ..
  · cases h

/-! ## The run -/

theorem nodup_issued (s : State) : (view.issued s).Nodup := List.nodup_range

theorem not_accepted_of_draining {i : Nat} (h : view.Conserved s) (hp : s.calls[i]? = some p) :
    ∀ t ∈ p.draining, t ∉ s.shared.accepted := by
  intro t ht hmem
  have hzero := h.count_kept_eq_zero (nodup_issued s.shared) hp ht
  exact List.count_eq_zero.mp hzero (List.mem_append_right _ hmem)

theorem conserved_of_reach (h : (machine fromXDR).Reach QueueClear s) : view.Conserved s := by
  refine Reach.conserved ?_ ?_ ?_ ?_ h
  · rintro s rfl
    exact ⟨rfl, rfl⟩
  · intro s request q _ _ _ hq
    exact balanced_start hq
  · intro s i outcome p q _ hs hl hcall hq
    exact balanced_next (hl p hcall) (not_accepted_of_draining hs hcall) hq
  · intro s e after _ _ hl he
    rcases settle_cases hl he with rfl | ⟨-, rfl⟩
    · exact .refl _ _
    · exact .refl _ _

theorem sound_of_reach (h : (machine fromXDR).Reach QueueClear s) : s.shared.Sound := by
  refine h.invariant_with (J := view.Conserved) (I := fun s => s.shared.Sound)
    (fun _ hs => conserved_of_reach hs) ?_ ?_
  · rintro s ⟨hs, -⟩
    rw [hs]
    exact ⟨nofun, List.Pairwise.nil⟩
  · intro s l t hconserved hl hstep hs
    rcases Concurrent.step_cases hstep with ⟨request, q, rfl, hq, rfl⟩ |
      ⟨i, outcome, p, q, rfl, hcall, hq, rfl⟩ | ⟨e, after, rfl, he, rfl⟩
    · rcases start_cases hq with ⟨transactionXdr, rfl⟩ | rfl | rfl
      · exact hs
      · exact hs
      · exact hs.of_same rfl (List.Subset.refl _)
    · exact sound_next hs (hl p hcall) (not_accepted_of_draining hconserved hcall) hq
    · rcases settle_cases hl he with rfl | ⟨haccepted, rfl⟩
      · exact hs.of_same rfl (List.Subset.refl _)
      · refine ⟨fun ticket hmem => ?_, hs.log.append nofun⟩
        rcases List.mem_append.mp hmem with hmem | hmem
        · exact hs.rejected ticket hmem
        · cases List.mem_singleton.mp hmem
          exact haccepted

theorem callSound_of_reach {ok} (h : (machine fromXDR).Reach ok s) :
    ∀ p ∈ s.calls, CallSound s.shared p := by
  have hmono : ∀ {s t : State} {p : Call}, CallSound s p → s.tickets ≤ t.tickets →
      CallSound t p := by
    intro s t p hp hle
    cases p with
    | returned response ticket => exact fun n hn => Nat.lt_of_lt_of_le (hp n hn) hle
    | fire | sendTransaction | threw | processed => trivial
  refine (Concurrent.Reach.sharedInvariant (I := fun _ => True) (J := CallSound)
    (fun _ _ => trivial) ?_ ?_ ?_ h).2
  · intro s request q _ _ hq
    rcases start_cases hq with ⟨transactionXdr, rfl⟩ | rfl | rfl
    · exact ⟨trivial, trivial, fun _ _ hp => hp⟩
    · exact ⟨trivial, trivial, fun _ _ hp => hp⟩
    · exact ⟨trivial, callSound_drain _ _, fun _ _ hp => hmono hp (Nat.le_refl _)⟩
  · intro s i outcome p q _ _ _ _ hq
    obtain ⟨hle, hcall⟩ := callSound_next hq
    exact ⟨trivial, hcall, fun _ _ hp => hmono hp hle⟩
  · intro s e after _ _ he
    change settle s.shared e.1 e.2 = some after at he
    rw [settle] at he
    split at he
    · cases he
      exact ⟨trivial, fun _ _ hp => hmono hp (Nat.le_of_eq (tickets_note { s.shared with
        late := s.shared.late.erase e.1 } e.1 e.2).symm)⟩
    · cases he

/-- **Queued submissions are neither lost nor doubled.**  If a request that the network has decided
is not queued, and a drain is never rejected, asked to try later or left without the network's
decision, then each queued request is once in the queue, once in the hand of a drain, or accepted;
and none is submitted after it was rejected. -/
theorem queued_once_of_reach (h : (machine fromXDR).Reach QueueClear s) :
    (∀ response ticket, .returned response (some ticket) ∈ s.calls →
      s.shared.pending.count ticket + (s.calls.flatMap Call.draining).count ticket +
        s.shared.accepted.count ticket = 1) ∧
    NotResubmitted s.shared.log := by
  refine ⟨fun response ticket hmem => ?_, (sound_of_reach h).log⟩
  have hticket : ticket ∈ view.issued s.shared :=
    List.mem_range.mpr (callSound_of_reach h _ hmem ticket rfl)
  have hone := (conserved_of_reach h).eq_one (nodup_issued s.shared) hticket
  change (s.shared.pending ++ s.shared.accepted).count ticket +
    (s.calls.flatMap Call.draining).count ticket = 1 at hone
  rw [List.count_append] at hone
  omega

/-- The network cannot be reached, and the breaker opens. -/
def unreached : Outcome := .failed none true

/-- The network takes the envelope. -/
def taken : Outcome := .answered ⟨.PENDING, "a", none⟩ false

theorem queued_once_drained :
    ∃ s, (machine fun _ => true).Reach QueueClear s ∧ .returned queued (some 0) ∈ s.calls ∧
      .processed ∈ s.calls ∧ s.shared.pending.count 0 +
        (s.calls.flatMap Call.draining).count 0 + s.shared.accepted.count 0 = 1 := by
  obtain ⟨s, h, hcall, hdrained⟩ : ∃ s, (machine fun _ => true).Reach QueueClear s ∧
      .returned queued (some 0) ∈ s.calls ∧ .processed ∈ s.calls :=
    Machine.exists_reach_of_runAll
      [.start (.submitTransaction "AAAA"), .next 0 (.fired false), .next 0 unreached,
        .start (.processPendingSubmissions false), .next 1 (.fired false), .next 1 taken]
      (s := ⟨.fresh, []⟩) ⟨rfl, rfl⟩ (by decide)
  exact ⟨s, h, hcall, hdrained, (queued_once_of_reach h).1 _ _ hcall⟩

/-- A request that is rejected when the breaker opens is queued and submitted again; a drain drops
what the network asks to try later; and a submission that takes too long is queued and accepted. -/
theorem queued_resubmitted_lost_or_doubled :
    (∃ s, (machine fun _ => true).Reach Machine.always s ∧ ¬ NotResubmitted s.shared.log) ∧
    (∃ s, (machine fun _ => true).Reach Machine.always s ∧ .returned queued (some 0) ∈ s.calls ∧
      s.shared.pending.count 0 + (s.calls.flatMap Call.draining).count 0 +
        s.shared.accepted.count 0 = 0) ∧
    ∃ s, (machine fun _ => true).Reach Machine.always s ∧ .returned queued (some 0) ∈ s.calls ∧
      s.shared.pending.count 0 + (s.calls.flatMap Call.draining).count 0 +
        s.shared.accepted.count 0 = 2 := by
  refine ⟨?_, ?_, ?_⟩
  · obtain ⟨s, h, hlog⟩ : ∃ s, (machine fun _ => true).Reach Machine.always s ∧
        s.shared.log = [.rejected 0, .resubmitted 0] :=
      Machine.exists_reach_of_runAll
        [.start (.submitTransaction "AAAA"), .next 0 (.fired false),
          .next 0 (.answered ⟨.ERROR, "a", none⟩ true),
          .start (.processPendingSubmissions false), .next 1 (.fired false)]
        (s := ⟨.fresh, []⟩) ⟨rfl, rfl⟩ (by decide)
    refine ⟨s, h, fun hnot => ?_⟩
    rw [hlog] at hnot
    exact (List.pairwise_cons.mp hnot).1 _ (List.mem_singleton_self _) 0 rfl rfl
  · exact Machine.exists_reach_of_runAll
      [.start (.submitTransaction "AAAA"), .next 0 (.fired false), .next 0 unreached,
        .start (.processPendingSubmissions false), .next 1 (.fired false),
        .next 1 (.answered ⟨.TRY_AGAIN_LATER, "a", none⟩ false)]
      (s := ⟨.fresh, []⟩) ⟨rfl, rfl⟩ (by decide)
  · exact Machine.exists_reach_of_runAll
      [.start (.submitTransaction "AAAA"), .next 0 (.fired false), .next 0 (.timedOut true),
        .around (0, some .PENDING)]
      (s := ⟨.fresh, []⟩) ⟨rfl, rfl⟩ (by decide)

end NiffyInsure.Backend.PendingSubmissions
