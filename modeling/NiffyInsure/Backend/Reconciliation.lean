import NiffyInsure.Lib.Machine
import NiffyInsure.Backend.Database

/-!
# The vote tallies and their reconciliation

`runReconciliation` (`reconciliation.service.ts`) reads all claims that are not final, counts the
votes of each, and overwrites the tallies that differ from its counts.  Every query is a step of
its own, and the transactions of `handleVoteCast` may come in between.

The comment says that this is safe beside live ingestion.  It is not: the counts are compared with
the tallies as they were when the run began, and a vote that is handled after the count is
overwritten (`vote_lost_by_reconciliation`).

* `tallies_match_of_reach`: as long as no vote of a claim is handled between its counts and the
  overwrite of its tallies, all tallies match the votes at all times.
-/

namespace NiffyInsure.Backend

open Table

/-! ## The reconciler -/

/-- What a run has found so far. -/
structure Findings where
  totalChecked : Nat
  discrepantClaimIds : List Nat
  appealCorrections : Nat
  deriving DecidableEq

/-- Where `runReconciliation` is, between two of its queries. -/
inductive Job where
  | idle
  /-- At the head of the loop. -/
  | loop (todo : List ClaimRow) (found : Findings)
  /-- The two counts of `Promise.all`, which come back in any order. -/
  | counting (claim : ClaimRow) (approve reject : Option Nat) (todo : List ClaimRow)
      (found : Findings)
  /-- At the check of the appeal fields. -/
  | appeal (claim : ClaimRow) (todo : List ClaimRow) (found : Findings)
  deriving DecidableEq

/-- The backend: the database, the job, the result of the last run, and the votes that have been
handled, the latest in front.  No code reads the last of these. -/
structure World where
  db : Db
  job : Job
  lastResult : Option Findings
  handled : List VoteCast

inductive Action where
  | voteCast (e : VoteCast)
  | fetchClaims
  | nextClaim
  | countApprove
  | countReject
  | correctTally
  | correctAppeal

def Findings.discrepant (found : Findings) (id : Nat) : Findings :=
  { found with discrepantClaimIds := found.discrepantClaimIds ++ [id] }

/-- `status === 'UNDER_APPEAL' ? 1 : 0`. -/
def ClaimRow.expectedAppealsCount (claim : ClaimRow) : Nat :=
  if claim.status = .underAppeal then 1 else 0

/-- `claim.update` of the tallies. -/
def Db.setTally (db : Db) (id approve reject : Nat) : Db :=
  { db with
    claims := updateWhere (·.id = id)
      (fun r => { r with approveVotes := approve, rejectVotes := reject }) db.claims }

/-- `claim.update` of the appeal fields.  The hash goes only when no appeal is expected. -/
def Db.setAppeal (db : Db) (claim : ClaimRow) : Db :=
  { db with
    claims := updateWhere (·.id = claim.id)
      (fun r => { r with
        appealsCount := claim.expectedAppealsCount
        appealTxHash := if claim.expectedAppealsCount = 0 ∧ claim.appealTxHash ≠ none then none
          else r.appealTxHash }) db.claims }

/-- The claim's tallies, as they were fetched, differ from the counts. -/
def ClaimRow.Differs (claim : ClaimRow) (approve reject : Nat) : Prop :=
  claim.approveVotes ≠ approve ∨ claim.rejectVotes ≠ reject

instance (claim : ClaimRow) (approve reject : Nat) : Decidable (claim.Differs approve reject) :=
  inferInstanceAs (Decidable (_ ∨ _))

/-- One transaction of `handleVoteCast`, or one query of `runReconciliation`. -/
def World.act (w : World) : Action → Option World
  | .voteCast e =>
    (w.db.castVote e).map fun db => { w with db, handled := e :: w.handled }
  | .fetchClaims =>
    match w.job with
    | .idle =>
      let claims := w.db.claims.filter fun r => !r.isFinalized
      some { w with job := .loop claims ⟨claims.length, [], 0⟩ }
    | _ => none
  | .nextClaim =>
    match w.job with
    | .loop [] found => some { w with job := .idle, lastResult := some found }
    | .loop (claim :: todo) found => some { w with job := .counting claim none none todo found }
    | _ => none
  | .countApprove =>
    match w.job with
    | .counting claim none reject todo found =>
      some { w with
        job := .counting claim (some (w.db.countVotes claim.id .approve)) reject todo found }
    | _ => none
  | .countReject =>
    match w.job with
    | .counting claim approve none todo found =>
      some { w with
        job := .counting claim approve (some (w.db.countVotes claim.id .reject)) todo found }
    | _ => none
  | .correctTally =>
    match w.job with
    | .counting claim (some approve) (some reject) todo found =>
      if claim.Differs approve reject then
        some { w with
          db := w.db.setTally claim.id approve reject
          job := .appeal claim todo (found.discrepant claim.id) }
      else some { w with job := .appeal claim todo found }
    | _ => none
  | .correctAppeal =>
    match w.job with
    | .appeal claim todo found =>
      if claim.appealsCount ≠ claim.expectedAppealsCount then
        some { w with
          db := w.db.setAppeal claim
          job := .loop todo
            { found.discrepant claim.id with appealCorrections := found.appealCorrections + 1 } }
      else some { w with job := .loop todo found }
    | _ => none

/-- There are no votes, all tallies are zero, and the reconciler is not running. -/
def World.Initial (w : World) : Prop :=
  w.db.votes = [] ∧ w.handled = [] ∧ w.job = .idle ∧
    ∀ r ∈ w.db.claims, r.approveVotes = 0 ∧ r.rejectVotes = 0

/-- The votes that were handled since each of the last two counts.  No code reads them. -/
structure SinceCounts where
  approve : List VoteCast
  reject : List VoteCast

/-- A vote is handled, or a count begins anew. -/
def SinceCounts.note (_ : World) (a : Action) (since : SinceCounts) : SinceCounts :=
  match a with
  | .voteCast e => ⟨e :: since.approve, e :: since.reject⟩
  | .countApprove => { since with approve := [] }
  | .countReject => { since with reject := [] }
  | _ => since

/-- The backend, with the votes since the counts beside it. -/
def reconciled : Machine (World × SinceCounts) Action :=
  Machine.ofAct (fun p a => (World.act p.1 a).map fun w => (w, SinceCounts.note p.1 a p.2))
    fun p => p.1.Initial ∧ p.2 = ⟨[], []⟩

/-! ## What the events carry, and when an overwrite is harmless -/

/-- Claim, voter and vote: what a row and an event have in common. -/
abbrev Ballot := Nat × String × VoteType

def VoteCast.ballot (e : VoteCast) : Ballot := (e.claimId, e.voter, e.vote)

def VoteRow.ballot (r : VoteRow) : Ballot := (r.claimId, r.voterAddress, r.vote)

/-- The unique key of the votes. -/
def ballotKey (b : Ballot) : Nat × String := (b.1, b.2.1)

/-- How many voters have voted so on the claim.  A voter who had voted twice would be counted with
the later vote. -/
def tally (cast : List VoteCast) (claimId : Nat) (vote : VoteType) : Nat :=
  (latest ballotKey (cast.map VoteCast.ballot)).countP fun b => b.1 = claimId ∧ b.2.2 = vote

/-- The event carries the tallies of all votes up to and including it. -/
def VoteCast.Carries (e : VoteCast) (before : List VoteCast) : Prop :=
  e.approveVotes = tally (e :: before) e.claimId .approve ∧
    e.rejectVotes = tally (e :: before) e.claimId .reject

/-- The events are handled in the order of the chain. -/
def InOrder (p : World × SinceCounts) : Action → Prop
  | .voteCast e => e.Carries p.1.handled
  | _ => True

/-- When the reconciler overwrites the tallies of a claim, no vote of the claim was handled since
the first of its counts. -/
def Undisturbed (p : World × SinceCounts) (a : Action) : Prop :=
  match a, p.1.job with
  | .correctTally, .counting claim (some approve) (some reject) _ _ =>
    claim.Differs approve reject → ∀ e ∈ p.2.approve ++ p.2.reject, e.claimId ≠ claim.id
  | _, _ => True

/-- The tallies of every claim are the numbers of its votes. -/
def World.TalliesMatch (w : World) : Prop :=
  ∀ r ∈ w.db.claims, r.approveVotes = w.db.countVotes r.id .approve ∧
    r.rejectVotes = w.db.countVotes r.id .reject

instance (p : World × SinceCounts) (a : Action) : Decidable (InOrder p a) :=
  match a with
  | .voteCast e => inferInstanceAs (Decidable (e.approveVotes = _ ∧ e.rejectVotes = _))
  | .fetchClaims | .nextClaim | .countApprove | .countReject | .correctTally | .correctAppeal =>
    isTrue trivial

instance (p : World × SinceCounts) (a : Action) : Decidable (Undisturbed p a) := by
  unfold Undisturbed
  split
  · infer_instance
  · infer_instance

instance (w : World) : Decidable w.TalliesMatch :=
  inferInstanceAs (Decidable (∀ r ∈ w.db.claims, _))

/-! ## What one step does -/

section

variable {w w' : World} {a : Action} {db db' : Db} {e : VoteCast}

theorem castVote_eq_some (h : db.castVote e = some db') :
    db' = { db with
      votes := upsert (fun r => r.claimId = e.claimId ∧ r.voterAddress = e.voter)
        ⟨e.claimId, e.voter, e.vote, e.ledger, e.txHash⟩ (fun r => { r with vote := e.vote })
        db.votes
      claims := (db.setTally e.claimId e.approveVotes e.rejectVotes).claims } := by
  unfold Db.castVote at h
  split at h
  · exact (Option.some.inj h).symm
  · cases h

/-- A step handles a vote, overwrites tallies, or leaves votes and tallies as they are. -/
theorem act_cases (h : w.act a = some w') :
    (∃ e db, a = .voteCast e ∧ w.db.castVote e = some db ∧
      w' = { w with db, handled := e :: w.handled }) ∨
    (a = .correctTally ∧ ∃ claim approve reject todo found,
      w.job = .counting claim (some approve) (some reject) todo found ∧
      claim.Differs approve reject ∧ w' = { w with
        db := w.db.setTally claim.id approve reject
        job := .appeal claim todo (found.discrepant claim.id) }) ∨
    (w'.handled = w.handled ∧ (w'.db = w.db ∨ ∃ claim, w'.db = w.db.setAppeal claim)) := by
  cases a with
  | voteCast e =>
    obtain ⟨db, hdb, rfl⟩ := Option.map_eq_some_iff.mp h
    exact .inl ⟨e, db, rfl, hdb, rfl⟩
  | fetchClaims | nextClaim | countApprove | countReject =>
    simp only [World.act] at h
    split at h <;> cases h <;> exact .inr (.inr ⟨rfl, .inl rfl⟩)
  | correctTally =>
    simp only [World.act] at h
    split at h
    · rename_i claim approve reject todo found hjob
      split at h
      · rename_i hdiff
        cases h
        exact .inr (.inl ⟨rfl, claim, approve, reject, todo, found, hjob, hdiff, rfl⟩)
      · cases h
        exact .inr (.inr ⟨rfl, .inl rfl⟩)
    · cases h
  | correctAppeal =>
    simp only [World.act] at h
    split at h
    · rename_i claim todo found hjob
      split at h
      · cases h
        exact .inr (.inr ⟨rfl, .inr ⟨claim, rfl⟩⟩)
      · cases h
        exact .inr (.inr ⟨rfl, .inl rfl⟩)
    · cases h

end

/-! ## The votes -/

/-- The table holds the latest vote of every voter. -/
def World.VotesStored (w : World) : Prop :=
  (w.db.votes.map VoteRow.ballot).Perm (latest ballotKey (w.handled.map VoteCast.ballot))

section

variable {w w' : World} {a : Action}

theorem votesStored_of_act (h : w.act a = some w') (hw : w.VotesStored) : w'.VotesStored := by
  rcases act_cases h with ⟨e, db, -, hdb, rfl⟩ | ⟨-, claim, approve, reject, todo,
    found, -, -, rfl⟩ | ⟨hhandled, hdb⟩
  · rw [castVote_eq_some hdb]
    refine perm_upsert hw rfl ?_ ?_
    · intro r
      simp [ballotKey, VoteRow.ballot, VoteCast.ballot]
    · intro r hr
      simp only [decide_eq_true_eq] at hr
      obtain ⟨hclaim, hvoter⟩ := hr
      show (r.claimId, r.voterAddress, e.vote) = (e.claimId, e.voter, e.vote)
      rw [hclaim, hvoter]
  · exact hw
  · unfold World.VotesStored
    rw [hhandled]
    rcases hdb with hdb | ⟨claim, hdb⟩
    · rw [hdb]
      exact hw
    · rw [hdb]
      exact hw

theorem countVotes_eq_tally (hw : w.VotesStored) (claimId : Nat) (vote : VoteType) :
    w.db.countVotes claimId vote = tally w.handled claimId vote := by
  have hcount : w.db.countVotes claimId vote =
      (w.db.votes.map VoteRow.ballot).countP fun b => b.1 = claimId ∧ b.2.2 = vote := by
    rw [List.countP_map]
    rfl
  rw [hcount, tally]
  exact hw.countP_eq _

theorem tally_cons_of_ne {e : VoteCast} {claimId : Nat} (hne : claimId ≠ e.claimId)
    (cast : List VoteCast) (vote : VoteType) :
    tally (e :: cast) claimId vote = tally cast claimId vote := by
  refine countP_latest_cons (cast.map VoteCast.ballot) ?_
  intro b hb
  have hclaim : b.1 = e.claimId := congrArg Prod.fst hb
  simp only [hclaim, decide_eq_false_iff_not, not_and]
  exact fun h => absurd h.symm hne

theorem tally_append_of_ne {claimId : Nat} {since : List VoteCast}
    (hne : ∀ e ∈ since, e.claimId ≠ claimId) (cast : List VoteCast) (vote : VoteType) :
    tally (since ++ cast) claimId vote = tally cast claimId vote := by
  induction since with
  | nil => rfl
  | cons e since ih =>
    obtain ⟨hfirst, hrest⟩ := List.forall_mem_cons.mp hne
    rw [List.cons_append, tally_cons_of_ne hfirst.symm, ih hrest]

end

/-! ## The counts -/

/-- A number was counted when all but the votes since then had been handled. -/
def CountedAt (handled since : List VoteCast) (claimId : Nat) (vote : VoteType) (n : Nat) : Prop :=
  ∃ before, handled = since ++ before ∧ n = tally before claimId vote

/-- The counts of the reconciler are those of the votes before them. -/
def CountsKept (p : World × SinceCounts) : Prop :=
  match p.1.job with
  | .counting claim approve reject _ _ =>
    (∀ n ∈ approve, CountedAt p.1.handled p.2.approve claim.id .approve n) ∧
      ∀ n ∈ reject, CountedAt p.1.handled p.2.reject claim.id .reject n
  | _ => True

section

variable {w w' : World} {a : Action} {since : SinceCounts}

theorem CountedAt.cons {handled votes : List VoteCast} {claimId n : Nat} {vote : VoteType}
    (h : CountedAt handled votes claimId vote n) (e : VoteCast) :
    CountedAt (e :: handled) (e :: votes) claimId vote n := by
  obtain ⟨before, rfl, hn⟩ := h
  exact ⟨before, rfl, hn⟩

/-- A count without a vote of the claim since then is the number of its votes. -/
theorem CountedAt.eq_countVotes {votes : List VoteCast} {claimId n : Nat} {vote : VoteType}
    (h : CountedAt w.handled votes claimId vote n) (hne : ∀ e ∈ votes, e.claimId ≠ claimId)
    (hstored : w.VotesStored) : w.db.countVotes claimId vote = n := by
  obtain ⟨before, hhandled, rfl⟩ := h
  rw [countVotes_eq_tally hstored, hhandled, tally_append_of_ne hne]

theorem countedAt_now (hstored : w.VotesStored) (claimId : Nat) (vote : VoteType) :
    CountedAt w.handled [] claimId vote (w.db.countVotes claimId vote) :=
  ⟨w.handled, rfl, countVotes_eq_tally hstored claimId vote⟩

theorem countsKept_of_act (h : w.act a = some w') (hstored : w.VotesStored)
    (hw : CountsKept (w, since)) : CountsKept (w', SinceCounts.note w a since) := by
  cases a with
  | voteCast e =>
    obtain ⟨db, -, rfl⟩ := Option.map_eq_some_iff.mp h
    unfold CountsKept at hw ⊢
    dsimp only at hw ⊢
    split
    · rename_i claim approve reject todo found hjob
      rw [hjob] at hw
      exact ⟨fun n hn => (hw.1 n hn).cons e, fun n hn => (hw.2 n hn).cons e⟩
    · trivial
  | countApprove =>
    simp only [World.act] at h
    split at h
    · rename_i claim reject todo found hjob
      cases h
      unfold CountsKept at hw
      rw [hjob] at hw
      refine ⟨?_, hw.2⟩
      rintro n ⟨⟩
      exact countedAt_now hstored claim.id .approve
    · cases h
  | countReject =>
    simp only [World.act] at h
    split at h
    · rename_i claim approve todo found hjob
      cases h
      unfold CountsKept at hw
      rw [hjob] at hw
      refine ⟨hw.1, ?_⟩
      rintro n ⟨⟩
      exact countedAt_now hstored claim.id .reject
    · cases h
  | nextClaim =>
    simp only [World.act] at h
    split at h <;> cases h
    · trivial
    · exact ⟨nofun, nofun⟩
  | fetchClaims =>
    simp only [World.act] at h
    split at h <;> cases h
    trivial
  | correctTally | correctAppeal =>
    simp only [World.act] at h
    split at h
    · split at h <;> cases h <;> trivial
    · cases h

end

/-! ## The tallies -/

section

variable {w w' : World} {a : Action}

theorem talliesMatch_of_castVote {e : VoteCast} {db : Db} (hdb : w.db.castVote e = some db)
    (hcarries : e.Carries w.handled) (hstored : World.VotesStored { w with db, handled :=
      e :: w.handled })
    (hbefore : w.VotesStored) (hw : w.TalliesMatch) :
    World.TalliesMatch { w with db, handled := e :: w.handled } := by
  intro r hr
  rw [countVotes_eq_tally hstored, countVotes_eq_tally hstored]
  show r.approveVotes = tally (e :: w.handled) r.id .approve ∧
    r.rejectVotes = tally (e :: w.handled) r.id .reject
  have hclaims : r ∈ (w.db.setTally e.claimId e.approveVotes e.rejectVotes).claims := by
    rw [castVote_eq_some hdb] at hr
    exact hr
  obtain ⟨r₀, hr₀, rfl⟩ := mem_updateWhere.mp hclaims
  split
  · rename_i hid
    rw [decide_eq_true_eq] at hid
    show e.approveVotes = tally (e :: w.handled) r₀.id .approve ∧
      e.rejectVotes = tally (e :: w.handled) r₀.id .reject
    rw [hid]
    exact hcarries
  · rename_i hid
    rw [decide_eq_true_eq] at hid
    rw [tally_cons_of_ne hid, tally_cons_of_ne hid, ← countVotes_eq_tally hbefore,
      ← countVotes_eq_tally hbefore]
    exact hw r₀ hr₀

theorem talliesMatch_of_setTally {job : Job} {id approve reject : Nat}
    (happrove : w.db.countVotes id .approve = approve)
    (hreject : w.db.countVotes id .reject = reject)
    (hw : w.TalliesMatch) :
    World.TalliesMatch { w with db := w.db.setTally id approve reject, job } := by
  intro r hr
  obtain ⟨r₀, hr₀, rfl⟩ := mem_updateWhere.mp hr
  show _ = w.db.countVotes _ _ ∧ _ = w.db.countVotes _ _
  split
  · rename_i hid
    rw [decide_eq_true_eq] at hid
    show approve = w.db.countVotes r₀.id .approve ∧ reject = w.db.countVotes r₀.id .reject
    rw [hid]
    exact ⟨happrove.symm, hreject.symm⟩
  · exact hw r₀ hr₀

theorem talliesMatch_of_setAppeal {claim : ClaimRow} (hdb : w'.db = w.db.setAppeal claim)
    (hw : w.TalliesMatch) : w'.TalliesMatch := by
  unfold World.TalliesMatch
  rw [hdb]
  intro r hr
  obtain ⟨r₀, hr₀, rfl⟩ := mem_updateWhere.mp hr
  show _ = w.db.countVotes _ _ ∧ _ = w.db.countVotes _ _
  split
  · exact hw r₀ hr₀
  · exact hw r₀ hr₀

theorem talliesMatch_of_act {since : SinceCounts} (h : w.act a = some w')
    (horder : InOrder (w, since) a) (hclear : Undisturbed (w, since) a) (hstored : w.VotesStored)
    (hcounts : CountsKept (w, since)) (hw : w.TalliesMatch) : w'.TalliesMatch := by
  have hstored' := votesStored_of_act h hstored
  rcases act_cases h with ⟨e, db, rfl, hdb, rfl⟩ |
    ⟨rfl, claim, approve, reject, todo, found, hjob, hdiff, rfl⟩ | ⟨-, hdb⟩
  · exact talliesMatch_of_castVote hdb horder hstored' hstored hw
  · unfold CountsKept at hcounts
    simp only [Undisturbed, hjob] at hclear hcounts
    have hnone := List.forall_mem_append.mp (hclear hdiff)
    have happrove := (hcounts.1 approve rfl).eq_countVotes hnone.1 hstored
    have hreject := (hcounts.2 reject rfl).eq_countVotes hnone.2 hstored
    exact talliesMatch_of_setTally happrove hreject hw
  · rcases hdb with hdb | ⟨claim, hdb⟩
    · unfold World.TalliesMatch
      rw [hdb]
      exact hw
    · exact talliesMatch_of_setAppeal hdb hw

end

/-! ## Runs -/

section

variable {ok : World × SinceCounts → Action → Prop} {p : World × SinceCounts}

theorem countsKept_of_reach (h : reconciled.Reach ok p) : p.1.VotesStored ∧ CountsKept p := by
  refine h.invariant (I := fun p => p.1.VotesStored ∧ CountsKept p) ?_ ?_
  · rintro ⟨w, since⟩ ⟨⟨hvotes, hhandled, hjob, -⟩, -⟩
    refine ⟨?_, ?_⟩
    · unfold World.VotesStored
      rw [hvotes, hhandled]
      exact List.Perm.refl _
    · unfold CountsKept
      rw [hjob]
      trivial
  · rintro ⟨w, since⟩ a p' - hstep ⟨hstored, hcounts⟩
    obtain ⟨w', hw', rfl⟩ := Option.map_eq_some_iff.mp hstep
    exact ⟨votesStored_of_act hw' hstored, countsKept_of_act hw' hstored hcounts⟩

/-- **The tallies.**  In a run in which no vote of a claim comes between its counts and the
overwrite that follows them, the tallies match the votes in every state. -/
theorem tallies_match_of_reach
    (h : reconciled.Reach (fun p a => InOrder p a ∧ Undisturbed p a) p) : p.1.TalliesMatch := by
  refine Machine.Reach.invariant_with (I := fun p => p.1.TalliesMatch)
    (fun _ => countsKept_of_reach) ?_ ?_ h
  · rintro ⟨w, since⟩ ⟨⟨hvotes, -, -, hzero⟩, -⟩ r hr
    obtain ⟨happrove, hreject⟩ := hzero r hr
    replace hvotes : w.db.votes = [] := hvotes
    simp [Db.countVotes, hvotes, happrove, hreject]
  · rintro ⟨w, since⟩ a p' ⟨hstored, hcounts⟩ ⟨horder, hclear⟩ hstep hw
    obtain ⟨w', hw', rfl⟩ := Option.map_eq_some_iff.mp hstep
    exact talliesMatch_of_act hw' horder hclear hstored hcounts hw

end

/-! ## Two votes and a run -/

/-- One claim, without votes. -/
def oneClaim : World where
  db := ⟨[⟨1, "GA:1", "GA", "100", none, "", [], .pending, false, 0, 0, 10, 10, "aa", none, 0, none,
    none⟩], []⟩
  job := .idle
  lastResult := none
  handled := []

theorem initial_oneClaim : (oneClaim, (⟨[], []⟩ : SinceCounts)).1.Initial ∧
    (oneClaim, (⟨[], []⟩ : SinceCounts)).2 = ⟨[], []⟩ := ⟨⟨rfl, rfl, rfl, by decide⟩, rfl⟩

/-- The first and the second approval. -/
def firstVote : Action := .voteCast ⟨1, "GB", .approve, 1, 0, 11, "bb"⟩
def secondVote : Action := .voteCast ⟨1, "GC", .approve, 2, 0, 12, "cc"⟩

/-- The second vote comes before the counts: the run finds a difference to the tallies that it
fetched, and overwrites them with what they are. -/
theorem tallies_match_before_counts : ∃ p,
    reconciled.Reach (fun p a => InOrder p a ∧ Undisturbed p a) p ∧
      (p.1.job = .idle ∧ p.1.lastResult = some ⟨1, [1], 0⟩ ∧ p.1.db.votes.length = 2) ∧
        p.1.TalliesMatch := by
  have hrun : ∃ p, reconciled.Reach (fun p a => InOrder p a ∧ Undisturbed p a) p ∧
      (p.1.job = .idle ∧ p.1.lastResult = some ⟨1, [1], 0⟩ ∧ p.1.db.votes.length = 2) :=
    Machine.exists_reach_of_runAll
      [.fetchClaims, firstVote, .nextClaim, secondVote, .countReject, .countApprove, .correctTally,
        .correctAppeal, .nextClaim] initial_oneClaim (by decide)
  obtain ⟨p, hp, hend⟩ := hrun
  exact ⟨p, hp, hend, tallies_match_of_reach hp⟩

/-- The second vote comes between the counts and the overwrite, and is lost. -/
theorem vote_lost_by_reconciliation : ∃ p, reconciled.Reach InOrder p ∧
    p.1.job = .idle ∧ p.1.db.countVotes 1 .approve = 2 ∧
      (∃ r ∈ p.1.db.claims, r.id = 1 ∧ r.approveVotes = 1) ∧ ¬ p.1.TalliesMatch :=
  Machine.exists_reach_of_runAll
    [.fetchClaims, firstVote, .nextClaim, .countApprove, .countReject, secondVote, .correctTally,
      .correctAppeal, .nextClaim] initial_oneClaim (by decide)

end NiffyInsure.Backend
