import NiffyInsure.Frame.Calls
import NiffyInsure.Trace

/-!
# Admin rotation

The admin is replaced in two steps: `propose_admin` stores the successor with an expiry, and
`accept_admin`, authorised by the successor, puts it in place.  A later proposal overwrites an
earlier one, and a cancellation or an acceptance clears it.  An expired proposal stays stored,
as the panic that reports it rolls its removal back.

* `rotation_of_step`: what a step can do to the admin and the pending successor.
* `pendingFrom_of_reach`: a stored proposal is the latest rotation call of the run, made under
  the admin that is still in place.
* `admin_rotated_by_latest_proposal`: the admin changes only by accepting that proposal in time.
-/

namespace NiffyInsure

open Machine

/-- The label is one of the three calls of the admin rotation. -/
def Label.rotatesAdmin : Label → Prop
  | .call _ (.setting (.proposeAdmin _)) => True
  | .call _ (.setting .acceptAdmin) => True
  | .call _ (.setting .cancelAdminProposal) => True
  | _ => False

/-- `successor` was proposed by the admin `admin`, who authorised the call, and the proposal is
good until `expiry`. -/
structure ProposedBy (admin successor : Address) (expiry : Nat) (m : Move State Label) : Prop where
  call : ∃ env, m.label = .call env (.setting (.proposeAdmin successor)) ∧ env.auths admin = true
  admin : m.before.get .admin = some admin
  recorded : m.after.get .pendingAdminExpiry = some expiry
  window : expiry = saturatingAdd32 m.before.sequence m.before.getAdminActionWindowLedgers

/-! ## What a step does to the rotation -/

section Steps

variable {env : Env} {s s' : State}

theorem requireAdmin_eq_ok {a : Address} :
    requireAdmin env s = .ok a ↔ s.get .admin = some a ∧ env.auths a = true := by
  simp only [requireAdmin, bind_eq_ok, okOr_eq_ok, requireAuth_eq_ok, pure_eq_ok]
  constructor
  · rintro ⟨b, hb, -, hauth, rfl⟩
    exact ⟨hb, hauth⟩
  · rintro ⟨ha, hauth⟩
    exact ⟨a, ha, (), hauth, rfl⟩

theorem proposeAdmin_eq_ok {b : Address} (h : proposeAdmin env s b = .ok s') :
    ∃ a, s.get .admin = some a ∧ env.auths a = true ∧ s'.get .admin = some a ∧
      s'.get .pendingAdmin = some b ∧ s'.get .pendingAdminExpiry =
        some (saturatingAdd32 s.sequence s.getAdminActionWindowLedgers) := by
  simp only [proposeAdmin, bind_eq_ok, requireAdmin_eq_ok, pure_eq_ok] at h
  obtain ⟨a, ⟨ha, hauth⟩, -, -, rfl⟩ := h
  have hf := frame_checkAndClearExpiredAdminAction s
  refine ⟨a, ha, hauth, ?_, ?_, ?_⟩
  · rw [State.get_set_of_ne _ _ (by simp), State.get_set_of_ne _ _ (by simp), hf.get .admin rfl, ha]
  · rw [State.get_set_of_ne _ _ (by simp), State.get_set_self]
  · rw [State.get_set_self, State.getAdminActionWindowLedgers,
      hf.get .adminActionWindowLedgers rfl]

theorem acceptAdmin_eq_ok (h : acceptAdmin env s = .ok s') :
    ∃ b expiry, s.get .pendingAdmin = some b ∧ s.get .pendingAdminExpiry = some expiry ∧
      s.sequence ≤ expiry ∧ env.auths b = true ∧ s'.get .admin = some b ∧
      s'.get .pendingAdmin = none := by
  simp only [acceptAdmin, bind_eq_ok, okOr_eq_ok, ensure_eq_ok, requireAuth_eq_ok, pure_eq_ok] at h
  obtain ⟨b, hb, expiry, hexp, -, hle, -, hauth, -, -, rfl⟩ := h
  exact ⟨b, expiry, hb, hexp, hle, hauth, by simp [State.writeAll], by simp [State.writeAll]⟩

theorem cancelAdminProposal_eq_ok (h : cancelAdminProposal env s = .ok s') :
    s'.get .admin = s.get .admin ∧ s'.get .pendingAdmin = none := by
  simp only [cancelAdminProposal, bind_eq_ok, pure_eq_ok] at h
  obtain ⟨-, -, -, -, rfl⟩ := h
  exact ⟨by simp [State.writeAll], by simp [State.writeAll]⟩

/-- **Outside the rotation calls the admin and the pending successor stay**, unless there was no
admin yet. -/
theorem rotation_of_step {host : Host} {l : Label} (hstep : (contract host).step s l s')
    (hl : ¬ l.rotatesAdmin) :
    SameKind .pendingAdmin s s' ∧ (s'.get .admin = s.get .admin ∨ s.get .admin = none) := by
  cases l with
  | closeLedger n =>
    obtain ⟨-, -, rfl⟩ := hstep
    exact ⟨fun _ _ => rfl, Or.inl rfl⟩
  | tokens b a =>
    obtain ⟨-, rfl⟩ := hstep
    exact ⟨fun _ _ => rfl, Or.inl rfl⟩
  | call env c =>
    obtain ⟨-, h⟩ := hstep
    have hf := frame_exec h
    cases c with
    | claim c =>
      exact ⟨hf.sameKind (c.untouched rfl), Or.inl (hf.get .admin (c.untouched rfl))⟩
    | policy c =>
      exact ⟨hf.sameKind (c.untouched rfl), Or.inl (hf.get .admin (c.untouched rfl))⟩
    | treasury c =>
      exact ⟨hf.sameKind (c.untouched rfl), Or.inl (hf.get .admin (c.untouched rfl))⟩
    | governance c =>
      exact ⟨hf.sameKind (c.untouched rfl), Or.inl (hf.get .admin (c.untouched rfl))⟩
    | setting c =>
      have hset := frame_settingOf (c := c) h
      cases c with
      | proposeAdmin b => exact absurd trivial hl
      | acceptAdmin => exact absurd trivial hl
      | cancelAdminProposal => exact absurd trivial hl
      | initializeContract admin token =>
        refine ⟨hset.sameKind rfl, Or.inr ?_⟩
        simp only [Call.exec, Setting.exec, initializeContract, bind_eq_ok, ensure_eq_ok] at h
        obtain ⟨-, -, -, hnone, -⟩ := h
        exact Option.isNone_iff_eq_none.mp hnone
      | _ => exact ⟨hset.sameKind rfl, Or.inl (hset.get .admin rfl)⟩

end Steps

/-! ## Along a run -/

/-- A stored proposal is the latest rotation call of the trace, and the admin who made it is
still in place. -/
def PendingFrom (s : State) (g : Journal) : Prop :=
  ∀ b, s.get .pendingAdmin = some b → ∃ a expiry m, s.get .admin = some a ∧
    s.get .pendingAdminExpiry = some expiry ∧ ProposedBy a b expiry m ∧
    Latest (fun m => m.label.rotatesAdmin) m g

theorem pendingFrom_of_reach {host : Host} {s : State} {g : Journal}
    (h : (contract host).traced.Reach (fun p l => always p.1 l) (s, g)) : PendingFrom s g := by
  refine h.trace_invariant (I := PendingFrom) ?_ ?_
  · intro s hs b hb
    rw [State.Fresh.get host hs] at hb
    cases hb
  · intro s g l s' hreach hok hstep hI b hb
    by_cases hl : l.rotatesAdmin
    · unfold Label.rotatesAdmin at hl
      split at hl
      case h_1 env c =>
        obtain ⟨a, ha, hauth, ha', hb', hexp⟩ := proposeAdmin_eq_ok hstep.2
        rw [hb'] at hb
        cases hb
        exact ⟨a, _, _, ha', hexp, ⟨⟨env, rfl, hauth⟩, ha, hexp, rfl⟩, .new _ _ g⟩
      case h_2 env =>
        obtain ⟨-, -, -, -, -, -, -, hnone⟩ := acceptAdmin_eq_ok hstep.2
        rw [hnone] at hb
        cases hb
      case h_3 =>
        rw [(cancelAdminProposal_eq_ok hstep.2).2] at hb
        cases hb
      case h_4 => exact hl.elim
    · obtain ⟨hsame, hadmin⟩ := rotation_of_step hstep hl
      rw [hsame .pendingAdmin rfl] at hb
      obtain ⟨a, expiry, m, ha, hexp, hprop, hlatest⟩ := hI b hb
      refine ⟨a, expiry, m, ?_, ?_, hprop, hlatest.append hl⟩
      · rcases hadmin with heq | hnone
        · rw [heq, ha]
        · rw [ha] at hnone
          cases hnone
      · rw [hsame .pendingAdminExpiry rfl, hexp]

/-- **The admin changes only by an acceptance in time of the latest proposal.**  Once there is an
admin `a`, a step of a run that replaces it is an `accept_admin` authorised by the new admin `b`;
the latest rotation call of the run before it is a `propose_admin` of `b`, authorised by `a`, who
was the admin then; and the expiry that it recorded has not passed. -/
theorem admin_rotated_by_latest_proposal {host : Host} {s s' : State} {g : Journal} {l : Label}
    {a : Address} (h : (contract host).traced.Reach (fun p l => always p.1 l) (s, g))
    (hstep : (contract host).step s l s') (ha : s.get .admin = some a)
    (hne : s'.get .admin ≠ some a) :
    ∃ env b expiry m, l = .call env (.setting .acceptAdmin) ∧ s'.get .admin = some b ∧
      env.auths b = true ∧ ProposedBy a b expiry m ∧
      Latest (fun m => m.label.rotatesAdmin) m g ∧ s.sequence ≤ expiry := by
  by_cases hl : l.rotatesAdmin
  · unfold Label.rotatesAdmin at hl
    split at hl
    case h_1 =>
      obtain ⟨a', ha₀, -, ha', -⟩ := proposeAdmin_eq_ok hstep.2
      rw [ha] at ha₀
      cases ha₀
      exact absurd ha' hne
    case h_2 env =>
      obtain ⟨b, expiry, hb, hexp, hle, hauth, hb', -⟩ := acceptAdmin_eq_ok hstep.2
      obtain ⟨a', expiry', m, ha', hexp', hprop, hlatest⟩ := pendingFrom_of_reach h b hb
      rw [ha] at ha'
      cases ha'
      rw [hexp] at hexp'
      cases hexp'
      exact ⟨env, b, expiry, m, rfl, hb', hauth, hprop, hlatest, hle⟩
    case h_3 =>
      rw [(cancelAdminProposal_eq_ok hstep.2).1] at hne
      exact absurd ha hne
    case h_4 => exact hl.elim
  · rcases (rotation_of_step hstep hl).2 with heq | hnone
    · rw [heq] at hne
      exact absurd ha hne
    · rw [ha] at hnone
      cases hnone

/-- The admin proposes account 7 and then account 5, and account 5 accepts. -/
theorem admin_rotated_by_latest_proposal_demo :
    ∃ s s' : State, s.get .admin = some adminAddress ∧ s'.get .admin = some 5 ∧
      (contract demoHost).step s (demoCall (.setting .acceptAdmin)) s' ∧
      ∃ g expiry m, (contract demoHost).traced.Reach (fun p l => always p.1 l) (s, g) ∧
        ProposedBy adminAddress 5 expiry m ∧ Latest (fun m => m.label.rotatesAdmin) m g ∧
        s.sequence ≤ expiry := by
  obtain ⟨s, s', hreach, hstep, hval⟩ := exists_of_followCall always_of_noCheck (deployed 0)
    [demoInit, demoCall (.setting (.proposeAdmin 7)), .closeLedger 1050,
      demoCall (.setting (.proposeAdmin 5)), .closeLedger 1150]
    (c := .setting .acceptAdmin) (f := fun s s' => (s.get .admin, s'.get .admin))
    (a := (some adminAddress, some 5)) (fresh_deployed (by decide)) (by simp [demoInit])
    (by decide +kernel)
  simp only [Prod.mk.injEq] at hval
  obtain ⟨g, hg⟩ := hreach.exists_trace
  have hne : s'.get .admin ≠ some adminAddress := by
    rw [hval.2]
    decide
  obtain ⟨env, b, expiry, m, -, hb, -, hprop, hlatest, hle⟩ :=
    admin_rotated_by_latest_proposal hg hstep hval.1 hne
  rw [hval.2] at hb
  cases hb
  exact ⟨s, s', hval.1, hval.2, hstep, g, expiry, m, hg, hprop, hlatest, hle⟩

end NiffyInsure
