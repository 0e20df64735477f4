import NiffyInsure.Lib.Query

/-!
# The filters for one tenant

`claimTenantWhere`, `policyTenantWhere` and `voteTenantWhere` spread the filter of their caller
behind the condition on the tenant (and that on `deletedAt`), so that a key of the caller's takes
the place of theirs.  An empty tenant counts as none.

* `matches_activeTenantWhere`, `matches_voteTenantWhere`: what is selected, whatever the caller's
  filter.
* `tenant_isolation_of_keys`: it is the tenant's, and not deleted, if the tenant is not empty and
  the caller's filter has no such key.
-/

namespace NiffyInsure.Backend.TenantFilter

open Query

structure SoftDeleteQueryOpts where
  includeDeleted : Option Bool

/-! ## The helpers -/

def tenantFilter : Option String → Filter
  | none => []
  | some tenantId => if tenantId = "" then [] else [.column "tenantId" [.equals (.text tenantId)]]

/-- `opts?.includeDeleted`, as a condition. -/
def includesDeleted (opts : Option SoftDeleteQueryOpts) : Bool :=
  (opts.bind SoftDeleteQueryOpts.includeDeleted).getD false

/-- `active`. -/
def activeFilter (opts : Option SoftDeleteQueryOpts) : Filter :=
  if includesDeleted opts then [] else [.column "deletedAt" [.equals .null]]

/-- The body of both helpers. -/
def activeTenantWhere (tenantId : Option String) (extra : Filter)
    (opts : Option SoftDeleteQueryOpts) : Filter :=
  spread (spread (tenantFilter tenantId) (activeFilter opts)) extra

def claimTenantWhere (tenantId : Option String) (extra : Filter)
    (opts : Option SoftDeleteQueryOpts) : Filter := activeTenantWhere tenantId extra opts

def policyTenantWhere (tenantId : Option String) (extra : Filter)
    (opts : Option SoftDeleteQueryOpts) : Filter := activeTenantWhere tenantId extra opts

def voteTenantWhere (tenantId : Option String) (extra : Filter) : Filter :=
  match tenantId with
  | none => extra
  | some tenantId =>
    if tenantId = "" then extra
    else spread [.one "claim" false (some [.column "tenantId" [.equals (.text tenantId)]])] extra

/-! ## What they are for -/

variable {ρ : Type} (D : Data ρ) (tenantId : String) (extra : Filter)
  (opts : Option SoftDeleteQueryOpts) (r : ρ)

/-- The row is one of the tenant's. -/
def OfTenant : Prop := D.column r "tenantId" = .text tenantId

def Active : Prop := D.column r "deletedAt" = .null

/-- The claim of the vote is one of the tenant's. -/
def ClaimOfTenant : Prop := ∃ claim, D.toOne r "claim" = some claim ∧ OfTenant D tenantId claim

/-- Whatever is in the tables, what a helper's filter selects is of the tenant, not deleted unless
that is asked for, and selected by the caller's filter. -/
def Isolated (filter : Filter) : Prop :=
  ∀ (ρ : Type) (D : Data ρ) (r : ρ), Matches D r filter →
    OfTenant D tenantId r ∧ (includesDeleted opts = false → Active D r) ∧ Matches D r extra

def VotesIsolated (filter : Filter) : Prop :=
  ∀ (ρ : Type) (D : Data ρ) (r : ρ), Matches D r filter →
    ClaimOfTenant D tenantId r ∧ Matches D r extra

/-- The helper's condition on the tenant stays. -/
def TenantStays : Prop := tenantId ≠ "" ∧ "tenantId" ∉ extra.keys

def ActiveStays : Prop := includesDeleted opts = false ∧ "deletedAt" ∉ extra.keys

def ClaimStays : Prop := tenantId ≠ "" ∧ "claim" ∉ extra.keys

/-! ## What the filters select -/

variable {D tenantId extra opts r}

theorem keep_tenantFilter :
    (∀ e ∈ tenantFilter (some tenantId), e.key ∉ extra.keys → e.eval D r = some true) ↔
      (TenantStays tenantId extra → OfTenant D tenantId r) := by
  rw [tenantFilter]
  split
  · rename_i h
    exact iff_of_true nofun fun hstays => absurd h hstays.1
  · rename_i h
    rw [List.forall_mem_singleton, eval_column_equals]
    exact ⟨fun hkeep hstays => hkeep hstays.2, fun hkeep hkey => hkeep ⟨h, hkey⟩⟩

theorem keep_activeFilter :
    (∀ e ∈ activeFilter opts, e.key ∉ extra.keys → e.eval D r = some true) ↔
      (ActiveStays extra opts → Active D r) := by
  rw [activeFilter]
  split
  · rename_i h
    exact iff_of_true nofun fun hstays => absurd (h ▸ hstays.1) (by decide)
  · rename_i h
    rw [List.forall_mem_singleton, eval_column_equals]
    have h' : includesDeleted opts = false := Bool.eq_false_iff.mpr h
    exact ⟨fun hkeep hstays => hkeep hstays.2, fun hkeep hkey => hkeep ⟨h', hkey⟩⟩

theorem key_tenantFilter {e : Query.Entry} (he : e ∈ tenantFilter (some tenantId)) :
    e.key ∉ (activeFilter opts).keys := by
  rw [tenantFilter] at he
  rw [activeFilter]
  split at he
  · cases he
  · obtain rfl := List.mem_singleton.mp he
    split
    · exact List.not_mem_nil
    · show "tenantId" ∉ ["deletedAt"]
      decide

/-- **What the filter for claims and policies selects.** -/
theorem matches_activeTenantWhere :
    Matches D r (activeTenantWhere (some tenantId) extra opts) ↔
      (TenantStays tenantId extra → OfTenant D tenantId r) ∧
      (ActiveStays extra opts → Active D r) ∧ Matches D r extra := by
  rw [activeTenantWhere, matches_spread, forall_mem_spread, keep_activeFilter, and_assoc]
  refine and_congr_left' ?_
  rw [← keep_tenantFilter]
  exact ⟨fun h e he => h e he (key_tenantFilter he), fun h e he _ => h e he⟩

/-- **What the filter for votes selects.** -/
theorem matches_voteTenantWhere :
    Matches D r (voteTenantWhere (some tenantId) extra) ↔
      (ClaimStays tenantId extra → ClaimOfTenant D tenantId r) ∧ Matches D r extra := by
  simp only [voteTenantWhere]
  split
  · rename_i h
    exact (and_iff_right fun hstays => absurd h hstays.1).symm
  · rename_i h
    rw [matches_spread, List.forall_mem_singleton, eval_one]
    simp only [matches_iff, List.forall_mem_singleton, eval_column_equals]
    refine and_congr_left' ?_
    exact ⟨fun hkeep hstays => hkeep hstays.2, fun hkeep hkey => hkeep ⟨h, hkey⟩⟩

/-! ## Isolation -/

theorem isolated_of_keys (htenant : tenantId ≠ "") (hkey : "tenantId" ∉ extra.keys)
    (hdeleted : includesDeleted opts = true ∨ "deletedAt" ∉ extra.keys) :
    Isolated tenantId extra opts (activeTenantWhere (some tenantId) extra opts) := by
  intro ρ D r h
  obtain ⟨htenant', hactive, hextra⟩ := matches_activeTenantWhere.mp h
  refine ⟨htenant' ⟨htenant, hkey⟩, fun hopts => hactive ⟨hopts, ?_⟩, hextra⟩
  exact hdeleted.resolve_left (by rw [hopts]; decide)

theorem votesIsolated_of_keys (htenant : tenantId ≠ "") (hkey : "claim" ∉ extra.keys) :
    VotesIsolated tenantId extra (voteTenantWhere (some tenantId) extra) := by
  intro ρ D r h
  obtain ⟨hclaim, hextra⟩ := matches_voteTenantWhere.mp h
  exact ⟨hclaim ⟨htenant, hkey⟩, hextra⟩

/-- **When the filters isolate a tenant**: where the tenant is not empty and the caller leaves the
keys of the helper alone. -/
theorem tenant_isolation_of_keys (htenant : tenantId ≠ "") :
    ("tenantId" ∉ extra.keys → (includesDeleted opts = true ∨ "deletedAt" ∉ extra.keys) →
      ∀ helper ∈ [claimTenantWhere, policyTenantWhere],
        Isolated tenantId extra opts (helper (some tenantId) extra opts)) ∧
    ("claim" ∉ extra.keys →
      VotesIsolated tenantId extra (voteTenantWhere (some tenantId) extra)) := by
  refine ⟨fun hkey hdeleted helper hhelper => ?_, votesIsolated_of_keys htenant⟩
  obtain rfl | rfl : helper = claimTenantWhere ∨ helper = policyTenantWhere := by
    simpa using hhelper
  · exact isolated_of_keys htenant hkey hdeleted
  · exact isolated_of_keys htenant hkey hdeleted

/-- The pending claims of a tenant, or the votes on one of them. -/
theorem tenant_isolation_of_keys_pending :
    Isolated "acme" [.column "status" [.equals (.text "PENDING")]] none
        (claimTenantWhere (some "acme") [.column "status" [.equals (.text "PENDING")]] none) ∧
      VotesIsolated "acme" [.column "vote" [.equals (.text "APPROVE")]]
        (voteTenantWhere (some "acme") [.column "vote" [.equals (.text "APPROVE")]]) :=
  ⟨(tenant_isolation_of_keys (by decide)).1 (by decide) (.inr (by decide)) claimTenantWhere
      List.mem_cons_self,
    (@tenant_isolation_of_keys "acme" _ none (by decide)).2 (by decide)⟩

/-- With `{ tenantId: 'evil-tenant' }` a caller gets the rows of that tenant. -/
theorem claims_not_isolated : ¬ ∀ (tenantId : String) (extra : Filter)
    (opts : Option SoftDeleteQueryOpts),
    Isolated tenantId extra opts (claimTenantWhere (some tenantId) extra opts) := by
  intro h
  let rows : Data Unit :=
    ⟨fun _ name => if name = "tenantId" then .text "evil-tenant" else .null, fun _ _ => none,
      fun _ _ => []⟩
  have hmatch : Matches rows () (claimTenantWhere (some "acme")
      [.column "tenantId" [.equals (.text "evil-tenant")]] none) := by
    decide
  have hsame : Value.text "evil-tenant" = .text "acme" := (h "acme" _ none Unit rows () hmatch).1
  exact absurd hsame (by decide)

end NiffyInsure.Backend.TenantFilter
