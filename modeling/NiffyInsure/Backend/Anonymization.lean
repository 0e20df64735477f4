import Mathlib.Logic.Function.Basic
import NiffyInsure.Lib.JsValue

/-!
# Anonymization for staging

The rows of production are copied to staging with tokens in place of wallets, e-mails, names and
some ids.  Each table has its own list of columns; only policies are copied with all columns.  The
hash is a parameter.

* `anonymizeAll_eq`: whatever the order of the tables, each value gets the token of its own.
* `references_iff`: the references between the tables are kept, exactly if nothing refers to a claim
  or to a ticket by a token.
-/

namespace NiffyInsure.Backend.Anonymization

open Js

/-! ## The tokens -/

structure Context where
  walletMap : List (String × String)
  emailMap : List (String × String)
  idMap : List (Value String × String)

def createAnonymizationContext : Context := ⟨[], [], []⟩

/-- `update` throws for what is no string, and so would a value that has not the declared type. -/
inductive Fault where
  | typeError
  deriving DecidableEq

abbrev M := StateT Context (Except Fault)

section Tokens

-- the digest in hexadecimal digits
variable (sha256 : String → String)

def deterministicHash (value pre : String) (maxLen : Nat) : String :=
  pre ++ String.ofList ((sha256 value).toList.take (maxLen - pre.length))

def anonymizeWallet (wallet : String) : M String := do
  match (← get).walletMap.lookup wallet with
  | some anon => pure anon
  | none =>
    let anon := "G" ++ deterministicHash sha256 wallet "" 55
    modify fun ctx => { ctx with walletMap := (wallet, anon) :: ctx.walletMap }
    pure anon

def anonymizeEmail (email : String) : M String := do
  match (← get).emailMap.lookup email with
  | some anon => pure anon
  | none =>
    let anon := "user_" ++ deterministicHash sha256 email "" 12 ++ "@staging.example.com"
    modify fun ctx => { ctx with emailMap := (email, anon) :: ctx.emailMap }
    pure anon

def anonymizeName (name : String) : M String :=
  pure ("User_" ++ deterministicHash sha256 name "" 8)

/-- `String(id)`, for an id that is a string or a number. -/
def idText : Value String → Option String
  | .string s => some s
  | .number n => some (toString n)
  | _ => none

def tokenizeId (id : Value String) : M String :=
  match idText id with
  | none => throw .typeError
  | some key => do
    match (← get).idMap.lookup id with
    | some token => pure token
    | none =>
      let token := "tok_" ++ deterministicHash sha256 key "" 20
      modify fun ctx => { ctx with idMap := (id, token) :: ctx.idMap }
      pure token

/-! ## The tables -/

/-- What becomes of a column. -/
inductive Rule where
  | copy
  | wallet
  | email
  | emailOr (fallback : String)
  | nameOr (fallback : String)
  | id
  | purchase
  deriving DecidableEq

/-- `value || fallback`. -/
def orElse (value : Value String) (fallback : String) : Value String :=
  if value.truthy then value else .string fallback

def applyRule : Rule → Value String → M (Value String)
  | .copy, v => pure v
  | .wallet, .string wallet => return .string (← anonymizeWallet sha256 wallet)
  | .email, .string email => return .string (← anonymizeEmail sha256 email)
  | .emailOr fallback, v =>
    match orElse v fallback with
    | .string email => return .string (← anonymizeEmail sha256 email)
    | _ => throw .typeError
  | .nameOr fallback, v =>
    match orElse v fallback with
    | .string name => return .string (← anonymizeName sha256 name)
    | _ => throw .typeError
  | .id, v => return .string (← tokenizeId sha256 v)
  | .purchase, .string purchaseId =>
    return .string (deterministicHash sha256 purchaseId "synth_" 20)
  | _, _ => throw .typeError

/-- The object with the given columns of a row. -/
def build (columns : List (String × Rule)) (row : Row String) : M (Row String) :=
  columns.mapM fun c => return (c.1, ← applyRule sha256 c.2 (row.get c.1))

/-- The columns that are copied. -/
def copied (names : List String) : List (String × Rule) := names.map fun name => (name, .copy)

def policyColumns : List (String × Rule) := [("id", .id), ("holderAddress", .wallet)]

def anonymizePolicies (policies : List (Row String)) : M (List (Row String)) :=
  policies.mapM fun policy => return policy.spread (← build sha256 policyColumns policy)

def claimColumns : List (String × Rule) :=
  [("id", .copy), ("policyId", .id), ("creatorAddress", .wallet)] ++
    copied ["amount", "asset", "status", "severity", "isFinalized", "approveVotes", "rejectVotes",
      "paidAt", "createdAtLedger", "updatedAtLedger", "createdAt", "updatedAt",
      "tenantId", "deletedAt",
      "appealsCount"]

def anonymizeClaims (claims : List (Row String)) : M (List (Row String)) :=
  claims.mapM (build sha256 claimColumns)

def voteColumns : List (String × Rule) :=
  copied ["id", "claimId", "vote", "votingPower", "votedAtLedger", "createdAt", "deletedAt"]

def anonymizeVotes (votes : List (Row String)) : M (List (Row String)) :=
  votes.mapM (build sha256 voteColumns)

def profileColumns : List (String × Rule) :=
  [("walletAddress", .wallet), ("displayName", .nameOr "Unknown"),
    ("email", .emailOr "noemail@staging.example.com")] ++
    copied ["locale", "notificationPreferences", "createdAt", "updatedAt", "lastSeenAt"]

def anonymizeHolderProfiles (profiles : List (Row String)) : M (List (Row String)) :=
  profiles.mapM (build sha256 profileColumns)

def ticketColumns : List (String × Rule) :=
  [("id", .copy), ("email", .email)] ++ copied ["status", "firstRespondedAt",
    "createdAt", "updatedAt"]

def anonymizeSupportTickets (tickets : List (Row String)) : M (List (Row String)) :=
  tickets.mapM (build sha256 ticketColumns)

def replyColumns : List (String × Rule) :=
  [("id", .copy), ("ticketId", .id)] ++ copied ["author", "createdAt"]

def anonymizeSupportTicketReplies (replies : List (Row String)) : M (List (Row String)) :=
  replies.mapM (build sha256 replyColumns)

def notificationColumns : List (String × Rule) :=
  [("id", .copy), ("userId", .wallet)] ++
    copied ["type", "payload", "acknowledgedAt", "expiresAt", "createdAt"]

def anonymizeNotifications (notifications : List (Row String)) : M (List (Row String)) :=
  notifications.mapM (build sha256 notificationColumns)

def preferenceColumns : List (String × Rule) :=
  [("userId", .wallet)] ++
    copied ["renewalRemindersEnabled", "claimUpdatesEnabled", "createdAt", "updatedAt"]

def anonymizeNotificationPreferences (prefs : List (Row String)) : M (List (Row String)) :=
  prefs.mapM (build sha256 preferenceColumns)

def rampColumns : List (String × Rule) :=
  [("id", .copy), ("purchaseId", .purchase), ("status", .copy), ("receiverAddress", .wallet)] ++
    copied ["cryptoAmount", "cryptoCurrency", "fiatValue", "fiatCurrency",
      "lastSyncedAt", "createdAt", "updatedAt"]

def anonymizeRampTransactions (txns : List (Row String)) : M (List (Row String)) :=
  txns.mapM (build sha256 rampColumns)

def commentColumns : List (String × Rule) :=
  [("id", .copy), ("claimId", .id), ("authorAddress", .wallet)] ++ copied ["createdAt", "deletedAt"]

def anonymizeClaimComments (comments : List (Row String)) : M (List (Row String)) :=
  comments.mapM (build sha256 commentColumns)

def evidenceColumns : List (String × Rule) :=
  [("id", .copy), ("claimId", .id), ("createdAt", .copy)]

def anonymizeEvidenceMetadata (evidence : List (Row String)) : M (List (Row String)) :=
  evidence.mapM (build sha256 evidenceColumns)

def voterColumns : List (String × Rule) :=
  [("walletAddress", .wallet), ("displayName", .nameOr "Voter"), ("registeredBy", .wallet),
    ("registeredAt", .copy)]

def anonymizeRegisteredVoters (voters : List (Row String)) : M (List (Row String)) :=
  voters.mapM (build sha256 voterColumns)

def postColumns : List (String × Rule) :=
  [("id", .copy), ("status", .copy), ("authorAddress", .wallet)] ++
    copied ["publishAt", "createdAt", "updatedAt", "deletedAt"]

def anonymizePosts (posts : List (Row String)) : M (List (Row String)) :=
  posts.mapM (build sha256 postColumns)

inductive Table where
  | policies
  | claims
  | votes
  | holderProfiles
  | supportTickets
  | supportTicketReplies
  | notifications
  | notificationPreferences
  | rampTransactions
  | claimComments
  | evidenceMetadata
  | registeredVoters
  | posts
  deriving DecidableEq

abbrev Dataset (α : Type) := Table → List (Row α)

def anonymize : Table → List (Row String) → M (List (Row String))
  | .policies => anonymizePolicies sha256
  | .claims => anonymizeClaims sha256
  | .votes => anonymizeVotes sha256
  | .holderProfiles => anonymizeHolderProfiles sha256
  | .supportTickets => anonymizeSupportTickets sha256
  | .supportTicketReplies => anonymizeSupportTicketReplies sha256
  | .notifications => anonymizeNotifications sha256
  | .notificationPreferences => anonymizeNotificationPreferences sha256
  | .rampTransactions => anonymizeRampTransactions sha256
  | .claimComments => anonymizeClaimComments sha256
  | .evidenceMetadata => anonymizeEvidenceMetadata sha256
  | .registeredVoters => anonymizeRegisteredVoters sha256
  | .posts => anonymizePosts sha256

/-- All tables, one after the other, with one context. -/
def anonymizeAll (data : Dataset String) : List Table → M (Dataset String)
  | [] => pure fun _ => []
  | table :: order => do
    let rows ← anonymize sha256 table (data table)
    let out ← anonymizeAll data order
    pure (Function.update out table rows)

end Tokens

/-! ## The token of a value -/

inductive Kind where
  | wallet
  | email
  | name
  | id
  | purchase
  deriving DecidableEq

/-- What is hashed, and for what. -/
structure Key where
  kind : Kind
  text : String
  deriving DecidableEq

def asString : Value String → Option String
  | .string s => some s
  | _ => none

/-- What a rule hashes. -/
def Rule.key : Rule → Value String → Option Key
  | .copy, _ => none
  | .wallet, v => (asString v).map (Key.mk .wallet)
  | .email, v => (asString v).map (Key.mk .email)
  | .emailOr fallback, v => (asString (orElse v fallback)).map (Key.mk .email)
  | .nameOr fallback, v => (asString (orElse v fallback)).map (Key.mk .name)
  | .id, v => (idText v).map (Key.mk .id)
  | .purchase, v => (asString v).map (Key.mk .purchase)

/-- The value has the type that the rule needs. -/
def Rule.fits (rule : Rule) (v : Value String) : Bool := rule = .copy || (rule.key v).isSome

/-- The columns that a table gives.  For policies they come on top of what is there. -/
def columns : Table → List (String × Rule)
  | .policies => policyColumns
  | .claims => claimColumns
  | .votes => voteColumns
  | .holderProfiles => profileColumns
  | .supportTickets => ticketColumns
  | .supportTicketReplies => replyColumns
  | .notifications => notificationColumns
  | .notificationPreferences => preferenceColumns
  | .rampTransactions => rampColumns
  | .claimComments => commentColumns
  | .evidenceMetadata => evidenceColumns
  | .registeredVoters => voterColumns
  | .posts => postColumns

/-- The rows have the types that the transforms need. -/
def Fits (data : Dataset String) : Prop :=
  ∀ table, ∀ row ∈ data table, ∀ c ∈ columns table, c.2.fits (row.get c.1) = true

section Pure

variable (sha256 : String → String)

/-- The token of a key. -/
def Key.token (key : Key) : String :=
  match key.kind with
  | .wallet => "G" ++ deterministicHash sha256 key.text "" 55
  | .email => "user_" ++ deterministicHash sha256 key.text "" 12 ++ "@staging.example.com"
  | .name => "User_" ++ deterministicHash sha256 key.text "" 8
  | .id => "tok_" ++ deterministicHash sha256 key.text "" 20
  | .purchase => deterministicHash sha256 key.text "synth_" 20

/-- What a rule makes of a value. -/
def Rule.result (rule : Rule) (v : Value String) : Value String :=
  match rule.key v with
  | some key => .string (key.token sha256)
  | none => v

def built (columns : List (String × Rule)) (row : Row String) : Row String :=
  columns.map fun c => (c.1, c.2.result sha256 (row.get c.1))

/-- What a table makes of a row. -/
def anonymized (table : Table) (row : Row String) : Row String :=
  if table = .policies then row.spread (built sha256 policyColumns row)
  else built sha256 (columns table) row

/-- The context holds the tokens of what it has seen. -/
structure Context.Ok (ctx : Context) : Prop where
  walletMap : ∀ wallet anon, ctx.walletMap.lookup wallet = some anon →
    anon = (Key.mk .wallet wallet).token sha256
  emailMap : ∀ email anon, ctx.emailMap.lookup email = some anon →
    anon = (Key.mk .email email).token sha256
  idMap : ∀ id key token, idText id = some key → ctx.idMap.lookup id = some token →
    token = (Key.mk .id key).token sha256

/-- From any such context a transform comes to the value, and leaves such a context. -/
def Yields {α : Type} (m : M α) (a : α) : Prop :=
  ∀ ctx : Context, ctx.Ok sha256 → ∃ ctx' : Context, ctx'.Ok sha256 ∧ m.run ctx = .ok (a, ctx')

end Pure

/-! ## Every value gets its token -/

section Yields

variable {sha256 : String → String} {α β : Type}

theorem Yields.pure (a : α) : Yields sha256 (pure a : M α) a := fun ctx h => ⟨ctx, h, rfl⟩

theorem Yields.bind {m : M α} {f : α → M β} {a : α} {b : β} (hm : Yields sha256 m a)
    (hf : Yields sha256 (f a) b) : Yields sha256 (m >>= f) b := by
  intro ctx h
  obtain ⟨ctx₁, h₁, hrun⟩ := hm ctx h
  obtain ⟨ctx₂, h₂, hrun'⟩ := hf ctx₁ h₁
  refine ⟨ctx₂, h₂, ?_⟩
  rw [StateT.run_bind, hrun]
  exact hrun'

theorem Yields.mapM {f : α → M β} {g : α → β} {l : List α}
    (h : ∀ a ∈ l, Yields sha256 (f a) (g a)) : Yields sha256 (l.mapM f) (l.map g) := by
  induction l with
  | nil => exact .pure _
  | cons a l ih =>
    rw [List.forall_mem_cons] at h
    rw [List.mapM_cons]
    exact h.1.bind ((ih h.2).bind (.pure _))

theorem lookup_cons_eq_some {κ : Type} [BEq κ] [LawfulBEq κ] {k k' : κ} {v v' : String}
    {l : List (κ × String)} (h : ((k, v) :: l).lookup k' = some v') :
    (k' = k ∧ v' = v) ∨ l.lookup k' = some v' := by
  rw [List.lookup_cons] at h
  cases hk : k' == k <;> rw [hk] at h
  · exact .inr h
  · exact .inl ⟨eq_of_beq hk, (Option.some_inj.mp h).symm⟩

theorem anonymizeWallet_yields (wallet : String) :
    Yields sha256 (anonymizeWallet sha256 wallet) ((Key.mk .wallet wallet).token sha256) := by
  intro ctx h
  cases hseen : ctx.walletMap.lookup wallet with
  | some anon =>
    obtain rfl := h.walletMap wallet anon hseen
    exact ⟨ctx, h, by simp [anonymizeWallet, hseen]; rfl⟩
  | none =>
    refine ⟨{ ctx with walletMap := (wallet, (Key.mk .wallet wallet).token sha256) ::
      ctx.walletMap },
      ⟨fun other anon hlookup => ?_, h.emailMap, h.idMap⟩, by simp [anonymizeWallet, hseen]; rfl⟩
    rcases lookup_cons_eq_some hlookup with ⟨rfl, rfl⟩ | hlookup
    · rfl
    · exact h.walletMap other anon hlookup

theorem anonymizeEmail_yields (email : String) :
    Yields sha256 (anonymizeEmail sha256 email) ((Key.mk .email email).token sha256) := by
  intro ctx h
  cases hseen : ctx.emailMap.lookup email with
  | some anon =>
    obtain rfl := h.emailMap email anon hseen
    exact ⟨ctx, h, by simp [anonymizeEmail, hseen]; rfl⟩
  | none =>
    refine ⟨{ ctx with emailMap := (email, (Key.mk .email email).token sha256) :: ctx.emailMap },
      ⟨h.walletMap, fun other anon hlookup => ?_, h.idMap⟩, by simp [anonymizeEmail, hseen]; rfl⟩
    rcases lookup_cons_eq_some hlookup with ⟨rfl, rfl⟩ | hlookup
    · rfl
    · exact h.emailMap other anon hlookup

theorem tokenizeId_yields {id : Value String} {key : String} (hid : idText id = some key) :
    Yields sha256 (tokenizeId sha256 id) ((Key.mk .id key).token sha256) := by
  intro ctx h
  cases hseen : ctx.idMap.lookup id with
  | some token =>
    obtain rfl := h.idMap id key token hid hseen
    exact ⟨ctx, h, by simp [tokenizeId, hid, hseen]; rfl⟩
  | none =>
    refine ⟨{ ctx with idMap := (id, (Key.mk .id key).token sha256) :: ctx.idMap },
      ⟨h.walletMap, h.emailMap, fun other key' token hother hlookup => ?_⟩,
      by simp [tokenizeId, hid, hseen]; rfl⟩
    rcases lookup_cons_eq_some hlookup with ⟨rfl, rfl⟩ | hlookup
    · rw [Option.some_inj.mp (hother.symm.trans hid)]
    · exact h.idMap other key' token hother hlookup

theorem asString_eq_some {v : Value String} {s : String} : asString v = some s ↔ v = .string s := by
  cases v <;> simp [asString]

/-- **A column gets the token of its value**, or it is copied. -/
theorem applyRule_yields {rule : Rule} {v : Value String} (hfits : rule.fits v = true) :
    Yields sha256 (applyRule sha256 rule v) (rule.result sha256 v) := by
  obtain rfl | ⟨key, hkey⟩ : rule = .copy ∨ ∃ key, rule.key v = some key := by
    simpa [Rule.fits, Option.isSome_iff_exists] using hfits
  · exact .pure v
  rw [Rule.result, hkey]
  have hstring {kind : Kind} {v' : Value String} (h : (asString v').map (Key.mk kind) = some key) :
      v' = .string key.text ∧ key.kind = kind := by
    obtain ⟨s, hs, rfl⟩ := Option.map_eq_some_iff.mp h
    exact ⟨asString_eq_some.mp hs, rfl⟩
  obtain ⟨kind, text⟩ := key
  cases rule with
  | copy => cases hkey
  | wallet =>
    obtain ⟨rfl, rfl⟩ := hstring hkey
    exact (anonymizeWallet_yields text).bind (.pure _)
  | email =>
    obtain ⟨rfl, rfl⟩ := hstring hkey
    exact (anonymizeEmail_yields text).bind (.pure _)
  | emailOr fallback =>
    obtain ⟨hv, rfl⟩ := hstring hkey
    rw [applyRule, hv]
    exact (anonymizeEmail_yields text).bind (.pure _)
  | nameOr fallback =>
    obtain ⟨hv, rfl⟩ := hstring hkey
    rw [applyRule, hv]
    exact .pure _
  | id =>
    obtain ⟨s, hs, heq⟩ := Option.map_eq_some_iff.mp hkey
    cases heq
    exact (tokenizeId_yields hs).bind (.pure _)
  | purchase =>
    obtain ⟨rfl, rfl⟩ := hstring hkey
    exact .pure _

theorem build_yields {columns : List (String × Rule)} {row : Row String}
    (hfits : ∀ c ∈ columns, c.2.fits (row.get c.1) = true) :
    Yields sha256 (build sha256 columns row) (built sha256 columns row) :=
  .mapM fun c hc => (applyRule_yields (hfits c hc)).bind (.pure _)

theorem anonymize_yields {data : Dataset String} (hfits : Fits data) (table : Table) :
    Yields sha256 (anonymize sha256 table (data table))
      ((data table).map (anonymized sha256 table)) := by
  have hbuild : ∀ row ∈ data table, Yields sha256 (build sha256 (columns table) row)
      (built sha256 (columns table) row) := fun row hrow => build_yields (hfits table row hrow)
  by_cases hpolicies : table = .policies
  · subst hpolicies
    exact .mapM fun row hrow => (hbuild row hrow).bind (.pure _)
  · rw [show anonymized sha256 table = built sha256 (columns table) from
      funext fun row => if_neg hpolicies]
    cases table with
    | policies => exact absurd rfl hpolicies
    | _ => exact .mapM hbuild

/-- **The order of the tables makes no difference.** -/
theorem anonymizeAll_yields (sha256 : String → String) {data : Dataset String} (hfits : Fits data)
    (order : List Table) : Yields sha256 (anonymizeAll sha256 data order) fun table =>
      if table ∈ order then (data table).map (anonymized sha256 table) else [] := by
  induction order with
  | nil => exact .pure _
  | cons first order ih =>
    refine (anonymize_yields hfits first).bind (ih.bind ?_)
    have hout : (fun table => if table ∈ first :: order then
          (data table).map (anonymized sha256 table) else []) =
        Function.update (fun table => if table ∈ order then
          (data table).map (anonymized sha256 table) else []) first
            ((data first).map (anonymized sha256 first)) := by
      funext table
      by_cases hfirst : table = first
      · subst hfirst
        rw [Function.update_self, if_pos List.mem_cons_self]
      · rw [Function.update_of_ne hfirst]
        exact if_congr (by simp [hfirst]) rfl rfl
    rw [hout]
    exact .pure _

theorem createAnonymizationContext_ok : createAnonymizationContext.Ok sha256 :=
  ⟨nofun, nofun, nofun⟩

/-- **What the tables come to**, in any order: each value is copied, or it gets the token of its
own. -/
theorem anonymizeAll_eq (sha256 : String → String) {data : Dataset String} (hfits : Fits data)
    {order : List Table} (horder : ∀ table, table ∈ order) :
    ∃ ctx, (anonymizeAll sha256 data order).run createAnonymizationContext =
      .ok (fun table => (data table).map (anonymized sha256 table), ctx) := by
  obtain ⟨ctx, -, hrun⟩ :=
    anonymizeAll_yields sha256 hfits order _ createAnonymizationContext_ok
  refine ⟨ctx, hrun.trans ?_⟩
  simp only [horder, if_true]

end Yields

/-! ## References -/

/-- A foreign key: the column of a table, and the key of the table that it refers to. -/
structure Reference where
  table : Table
  column : String
  target : Table
  key : String

/-- The columns that name the wallet of a holder. -/
def walletColumns : List (Table × String) :=
  [(.claims, "creatorAddress"), (.policies, "holderAddress"), (.notifications, "userId"),
    (.notificationPreferences, "userId"), (.rampTransactions, "receiverAddress"),
    (.claimComments, "authorAddress"), (.registeredVoters, "walletAddress"),
    (.registeredVoters, "registeredBy"), (.posts, "authorAddress")]

def references : List Reference :=
  [⟨.claims, "policyId", .policies, "id"⟩, ⟨.votes, "claimId", .claims, "id"⟩,
    ⟨.claimComments, "claimId", .claims, "id"⟩, ⟨.evidenceMetadata, "claimId", .claims, "id"⟩,
    ⟨.supportTicketReplies, "ticketId", .supportTickets, "id"⟩] ++
    walletColumns.map fun c => ⟨c.1, c.2, .holderProfiles, "walletAddress"⟩

/-- Every foreign key is one of the keys. -/
def ValidReferences (data : Dataset String) : Prop :=
  ∀ ref ∈ references, ∀ row ∈ data ref.table, ∃ target ∈ data ref.target,
    row.get ref.column = target.get ref.key

/-- The rows that came of two rows refer to each other exactly if those did. -/
def KeepsReferences (data out : Dataset String) : Prop :=
  ∀ ref ∈ references, ∀ r ∈ (data ref.table).zip (out ref.table),
    ∀ q ∈ (data ref.target).zip (out ref.target),
      r.2.get ref.column = q.2.get ref.key ↔ r.1.get ref.column = q.1.get ref.key

/-- The rows have the types of the schema. -/
structure Conforms (data : Dataset String) : Prop where
  fits : Fits data
  policyId : ∀ row ∈ data .policies, (asString (row.get "id")).isSome = true
  claimId : ∀ row ∈ data .claims, asString (row.get "id") = none

def Table.all : List Table :=
  [.policies, .claims, .votes, .holderProfiles, .supportTickets, .supportTicketReplies,
    .notifications, .notificationPreferences, .rampTransactions, .claimComments, .evidenceMetadata,
    .registeredVoters,
    .posts]

theorem Table.mem_all (table : Table) : table ∈ Table.all := by
  cases table <;> decide

/-- What is hashed of a dataset. -/
def keys (data : Dataset String) : List Key :=
  Table.all.flatMap fun table => (data table).flatMap fun row =>
    (columns table).filterMap fun c => c.2.key (row.get c.1)

/-- The tokens of different keys are different. -/
def CollisionFree (sha256 : String → String) (keys : List Key) : Prop :=
  ∀ k ∈ keys, ∀ k' ∈ keys, k.token sha256 = k'.token sha256 → k = k'

section References

variable {sha256 : String → String} {data : Dataset String} {table target : Table}
  {row row' : Row String} {name name' : String} {rule : Rule}

theorem mem_keys {key : Key} : key ∈ keys data ↔
    ∃ table, ∃ row ∈ data table, ∃ c ∈ columns table, c.2.key (row.get c.1) = some key := by
  simp only [keys, List.mem_flatMap, List.mem_filterMap, Table.mem_all, true_and]

theorem get_built {cs : List (String × Rule)} (hrule : cs.lookup name = some rule) :
    (built sha256 cs row).get name = rule.result sha256 (row.get name) := by
  induction cs with
  | nil => cases hrule
  | cons c cs ih =>
    unfold built Row.get at ih ⊢
    rw [List.map_cons, List.lookup_cons]
    rw [List.lookup_cons] at hrule
    cases hname : name == c.1 <;> rw [hname] at hrule
    · exact ih hrule
    · obtain rfl := eq_of_beq hname
      obtain rfl := Option.some_inj.mp hrule
      rfl

theorem get_anonymized (hrule : (columns table).lookup name = some rule) :
    (anonymized sha256 table row).get name = rule.result sha256 (row.get name) := by
  unfold anonymized
  split
  · rename_i hpolicies
    subst hpolicies
    rw [← get_built hrule]
    refine Row.get_spread ?_
    obtain ⟨front, back, heq, -⟩ := List.lookup_eq_some_iff.mp hrule
    have hmem : (name, rule) ∈ policyColumns := by
      rw [show policyColumns = columns .policies from rfl, heq]
      exact List.mem_append_right _ List.mem_cons_self
    exact List.mem_map.mpr ⟨_, List.mem_map_of_mem hmem, rfl⟩
  · exact get_built hrule

theorem get_of_copy (hrule : (columns table).lookup name = some .copy) :
    (anonymized sha256 table row).get name = row.get name := get_anonymized hrule

theorem get_of_id (hrule : (columns table).lookup name = some .id) :
    (anonymized sha256 table row).get name = Rule.id.result sha256 (row.get name) :=
      get_anonymized hrule

theorem mem_columns_of_lookup (hrule : (columns table).lookup name = some rule) :
    (name, rule) ∈ columns table := by
  obtain ⟨front, back, heq, -⟩ := List.lookup_eq_some_iff.mp hrule
  rw [heq]
  exact List.mem_append_right _ List.mem_cons_self

/-- Two columns that are both given as tokens of one kind agree as before. -/
theorem result_eq_iff (kind : Kind) (hhash : CollisionFree sha256 (keys data))
    (hrow : row ∈ data table)
    (hrow' : row' ∈ data target) (hrule : (columns table).lookup name = some rule)
    (hrule' : (columns target).lookup name' = some rule) {s s' : String}
    (hs : row.get name = .string s) (hs' : row'.get name' = .string s')
    (hkey : ∀ s, rule.key (.string s) = some ⟨kind, s⟩) :
    (anonymized sha256 table row).get name = (anonymized sha256 target row').get name' ↔
      row.get name = row'.get name' := by
  have hmem : Key.mk kind s ∈ keys data :=
    mem_keys.mpr ⟨table, row, hrow, _, mem_columns_of_lookup hrule, by rw [hs, hkey]⟩
  have hmem' : Key.mk kind s' ∈ keys data :=
    mem_keys.mpr ⟨target, row', hrow', _, mem_columns_of_lookup hrule', by rw [hs', hkey]⟩
  rw [get_anonymized hrule, get_anonymized hrule', hs, hs', Rule.result, Rule.result, hkey, hkey]
  constructor
  · intro h
    cases hhash _ hmem _ hmem' (Value.string.inj h)
    rfl
  · intro h
    cases h
    rfl

theorem mem_zip_map {α β : Type} {l : List α} {f : α → β} {r : α × β} :
    r ∈ l.zip (l.map f) ↔ r.1 ∈ l ∧ r.2 = f r.1 := by
  induction l with
  | nil => exact iff_of_false nofun fun h => nomatch h.1
  | cons a l ih =>
    rw [List.map_cons, List.zip_cons_cons, List.mem_cons, List.mem_cons, ih, Prod.ext_iff]
    constructor
    · rintro (⟨hfst, hsnd⟩ | ⟨hmem, heq⟩)
      · exact ⟨.inl hfst, by rw [hfst]; exact hsnd⟩
      · exact ⟨.inr hmem, heq⟩
    · rintro ⟨hfst | hmem, heq⟩
      · exact .inl ⟨hfst, by rw [heq, hfst]⟩
      · exact .inr ⟨hmem, heq⟩

theorem exists_wallet (hfits : Fits data) (hrow : row ∈ data table)
    (hrule : (columns table).lookup name = some .wallet) : ∃ s, row.get name = .string s := by
  have hfit := hfits table row hrow _ (mem_columns_of_lookup hrule)
  simp only [Rule.fits, Rule.key, Option.isSome_map, reduceCtorEq, decide_false,
    Bool.false_or] at hfit
  obtain ⟨s, hs⟩ := Option.isSome_iff_exists.mp hfit
  exact ⟨s, asString_eq_some.mp hs⟩

theorem walletColumns_rule : ∀ c ∈ walletColumns, (columns c.1).lookup c.2 = some .wallet := by
  decide

theorem wallets_kept (hfits : Fits data) (hhash : CollisionFree sha256 (keys data))
    (hname : (table, name) ∈ walletColumns) (hrow : row ∈ data table)
    (hrow' : row' ∈ data .holderProfiles) :
    (anonymized sha256 table row).get name = (anonymized sha256 .holderProfiles row').get
      "walletAddress" ↔ row.get name = row'.get "walletAddress" := by
  have hrule : (columns table).lookup name = some .wallet := walletColumns_rule _ hname
  have hrule' : (columns .holderProfiles).lookup "walletAddress" = some .wallet := by decide
  obtain ⟨s, hs⟩ := exists_wallet hfits hrow hrule
  obtain ⟨s', hs'⟩ := exists_wallet hfits hrow' hrule'
  exact result_eq_iff .wallet hhash hrow hrow' hrule hrule' hs hs' fun _ => rfl

theorem policies_kept (hdata : Conforms data) (hvalid : ValidReferences data)
    (hhash : CollisionFree sha256 (keys data)) (hrow : row ∈ data .claims)
    (hrow' : row' ∈ data .policies) :
    (anonymized sha256 .claims row).get "policyId" = (anonymized sha256 .policies row').get "id" ↔
      row.get "policyId" = row'.get "id" := by
  have hstring : ∀ policy ∈ data .policies, ∃ s, policy.get "id" = .string s := by
    intro policy hpolicy
    exact (Option.isSome_iff_exists.mp (hdata.policyId policy hpolicy)).imp
      fun _ => asString_eq_some.mp
  obtain ⟨policy, hpolicy, heq⟩ := hvalid ⟨.claims, "policyId", .policies, "id"⟩
    (by simp [references]) row hrow
  obtain ⟨s, hs⟩ := hstring policy hpolicy
  obtain ⟨s', hs'⟩ := hstring row' hrow'
  have hrule : (columns .claims).lookup "policyId" = some .id := by decide
  have hrule' : (columns .policies).lookup "id" = some .id := by decide
  exact result_eq_iff .id hhash hrow hrow' hrule hrule' (heq.trans hs) hs' fun _ => rfl

theorem result_id_string (sha256 : String → String) {v : Value String}
    (hfits : Rule.id.fits v = true) : ∃ token, Rule.id.result sha256 v = .string token := by
  simp only [Rule.fits, reduceCtorEq, decide_false, Bool.false_or] at hfits
  obtain ⟨key, hkey⟩ := Option.isSome_iff_exists.mp hfits
  exact ⟨key.token sha256, by rw [Rule.result, hkey]⟩

/-- Where a table refers with tokens to a table that keeps its ids, a valid reference is kept only
if the id is its own token. -/
theorem own_token_of_kept (ref : Reference) (hvalid : ValidReferences data)
    (href : ref ∈ references) (hrule : (columns ref.table).lookup ref.column = some .id)
    (hrule' : (columns ref.target).lookup ref.key = some .copy)
    (hkeeps : KeepsReferences data fun table => (data table).map (anonymized sha256 table))
    (hrow : row ∈ data ref.table) :
    Rule.id.result sha256 (row.get ref.column) = row.get ref.column ∧
      ∃ target ∈ data ref.target, row.get ref.column = target.get ref.key := by
  obtain ⟨target, htarget, heq⟩ := hvalid ref href row hrow
  have hkept := hkeeps ref href (row, anonymized sha256 ref.table row) (mem_zip_map.mpr ⟨hrow, rfl⟩)
    (target, anonymized sha256 ref.target target) (mem_zip_map.mpr ⟨htarget, rfl⟩)
  have hout := hkept.mpr heq
  dsimp only at hout
  rw [get_of_id hrule, get_of_copy hrule'] at hout
  exact ⟨hout.trans heq.symm, target, htarget, heq⟩

/-- A table that refers to claims by tokens has no rows, if its references are kept. -/
theorem eq_nil_of_kept (name : String) (hdata : Conforms data) (hvalid : ValidReferences data)
    (href : Reference.mk table name .claims "id" ∈ references)
    (hrule : (columns table).lookup name = some .id)
    (hkeeps : KeepsReferences data fun table => (data table).map (anonymized sha256 table)) :
    data table = [] := by
  refine List.eq_nil_iff_forall_not_mem.mpr fun row hrow => ?_
  have hcopied : (columns .claims).lookup "id" = some .copy := by decide
  obtain ⟨hown, claim, hclaim, heq⟩ := own_token_of_kept _ hvalid href hrule hcopied hkeeps hrow
  obtain ⟨token, htoken⟩ :=
    result_id_string sha256 (hdata.fits table row hrow _ (mem_columns_of_lookup hrule))
  have hnumber := hdata.claimId claim hclaim
  rw [← heq, ← hown, htoken] at hnumber
  cases hnumber

/-- **When the references are kept.** -/
theorem keepsReferences_iff (hdata : Conforms data) (hvalid : ValidReferences data)
    (hhash : CollisionFree sha256 (keys data)) :
    KeepsReferences data (fun table => (data table).map (anonymized sha256 table)) ↔
      data .claimComments = [] ∧ data .evidenceMetadata = [] ∧
        ∀ reply ∈ data .supportTicketReplies,
          Rule.id.result sha256 (reply.get "ticketId") = reply.get "ticketId" := by
  constructor
  · intro hkeeps
    refine ⟨eq_nil_of_kept "claimId" hdata hvalid (by simp [references]) (by decide) hkeeps,
      eq_nil_of_kept "claimId" hdata hvalid (by simp [references]) (by decide) hkeeps,
      fun reply hreply => ?_⟩
    exact (own_token_of_kept ⟨.supportTicketReplies, "ticketId", .supportTickets, "id"⟩ hvalid
      (by simp [references]) (by decide) (by decide) hkeeps hreply).1
  · rintro ⟨hcomments, hevidence, hreplies⟩ ref href r hr q hq
    obtain ⟨hrow, hout⟩ := mem_zip_map.mp hr
    obtain ⟨hrow', hout'⟩ := mem_zip_map.mp hq
    rw [hout, hout']
    rcases List.mem_append.mp href with href | href
    · simp only [List.mem_cons, List.not_mem_nil, or_false] at href
      rcases href with rfl | rfl | rfl | rfl | rfl
      · exact policies_kept hdata hvalid hhash hrow hrow'
      · rw [get_of_copy (by decide), get_of_copy (by decide)]
      · exact absurd (hcomments ▸ hrow) List.not_mem_nil
      · exact absurd (hevidence ▸ hrow) List.not_mem_nil
      · rw [get_of_id (by decide), get_of_copy (by decide), hreplies _ hrow]
    · obtain ⟨c, hc, rfl⟩ := List.mem_map.mp href
      exact wallets_kept hdata.fits hhash hc hrow hrow'

/-- The id is `tok_` and the first digits of its own hash. -/
def OwnToken (sha256 : String → String) (id : Value String) : Prop :=
  ∃ text, id = .string text ∧ text = "tok_" ++ String.ofList ((sha256 text).toList.take 20)

theorem result_eq_self_iff {id : Value String} (hid : Rule.id.fits id = true) :
    Rule.id.result sha256 id = id ↔ OwnToken sha256 id := by
  have htoken (text : String) : (Key.mk .id text).token sha256 =
      "tok_" ++ String.ofList ((sha256 text).toList.take 20) := by
    show "tok_" ++ ("" ++ String.ofList ((sha256 text).toList.take (20 - 0))) = _
    rw [String.empty_append]
  cases id with
  | string text =>
    show Value.string ((Key.mk .id text).token sha256) = .string text ↔ _
    rw [htoken, Value.string.injEq]
    constructor
    · exact fun h => ⟨text, rfl, h.symm⟩
    · rintro ⟨_, heq, h⟩
      obtain rfl := Value.string.inj heq
      exact h.symm
  | number n => exact ⟨nofun, nofun⟩
  | _ => exact absurd hid Bool.false_ne_true

/-- **When anonymization keeps the references**, whatever the order of the tables: there are no
comments and no evidence, and each ticket that has a reply is its own token. -/
theorem references_iff (hdata : Conforms data) (hvalid : ValidReferences data)
    (hhash : CollisionFree sha256 (keys data)) {order : List Table}
    (horder : ∀ table, table ∈ order) :
    ∃ out ctx, (anonymizeAll sha256 data order).run createAnonymizationContext = .ok (out, ctx) ∧
      (KeepsReferences data out ↔ data .claimComments = [] ∧ data .evidenceMetadata = [] ∧
        ∀ reply ∈ data .supportTicketReplies, OwnToken sha256 (reply.get "ticketId")) := by
  obtain ⟨ctx, hrun⟩ := anonymizeAll_eq sha256 hdata.fits horder
  refine ⟨_, ctx, hrun, (keepsReferences_iff hdata hvalid hhash).trans ?_⟩
  refine and_congr_right fun _ => and_congr_right fun _ => forall₂_congr fun reply hreply => ?_
  exact result_eq_self_iff (hdata.fits .supportTicketReplies reply hreply ("ticketId",
    .id) (by decide))

end References

/-! ## A comment on a claim -/

def demoWallet : String := "GBVUR5XPGFBFN2XYOJSZ4K6SSWJG3CQFBFPXJNZGYK4KF6HYJQ7XYZZZ"

/-- The digests of what is hashed below. -/
def demoSha256 (text : String) : String :=
  if text = demoWallet then "48992d3e8a60a77702c4d698102a8e70b8eabdc13d914885601168e796ccc7e9"
  else if text = demoWallet ++ ":7" then
    "da44b584aaa1b88665eb2d5d7ca8cccd6536bae9443d34f74ff87eb264aeceb3"
  else if text = "5" then "ef2d127de37b942baad06145e54b0c619a1f22327b2ebbcfbec78f5564afe39d"
  else if text = "Alice Smith" then
    "8ae10dfc9a69f97dcc91e1f51bced3aff442bc57a869e04126bd0ca7cb4af29d"
  else if text = "alice@example.com" then
    "ff8d9819fc0e12bf0d24892e45987e249a28dce836a85cad60e28eaaa8c6d976"
  else ""

/-- A policy, and a claim on it that has a vote. -/
def demoData : Dataset String
  | .policies => [[("id", .string (demoWallet ++ ":7")), ("policyId", .number 7),
      ("holderAddress", .string demoWallet), ("region", .string "US")]]
  | .claims => [[("id", .number 5), ("policyId", .string (demoWallet ++ ":7")),
      ("creatorAddress", .string demoWallet), ("amount", .string "1000"),
      ("status", .string "PENDING")]]
  | .votes => [[("id", .number 1), ("claimId", .number 5), ("vote", .string "APPROVE")]]
  | .holderProfiles =>
    [[("walletAddress", .string demoWallet), ("displayName", .string "Alice Smith"),
      ("email", .string "alice@example.com")]]
  | _ => []

/-- The same, with a comment on the claim. -/
def commentedData : Dataset String
  | .claimComments => [[("id", .string "comment-1"), ("claimId", .number 5),
      ("authorAddress", .string demoWallet), ("body", .string "This claim is suspicious")]]
  | table => demoData table

instance (data : Dataset String) : Decidable (Fits data) :=
  decidable_of_iff (∀ table ∈ Table.all, ∀ row ∈ data table, ∀ c ∈ columns table,
    c.2.fits (row.get c.1) = true) ⟨fun h table => h table table.mem_all, fun h table _ => h table⟩

instance (data : Dataset String) : Decidable (ValidReferences data) :=
  inferInstanceAs (Decidable (∀ ref ∈ references,
    ∀ row ∈ data ref.table, ∃ target ∈ data ref.target, row.get ref.column = target.get ref.key))

/-- The first character of the tokens of a kind. -/
def Kind.initial : Kind → Char
  | .wallet => 'G'
  | .email => 'u'
  | .name => 'U'
  | .id => 't'
  | .purchase => 's'

theorem head?_token (sha256 : String → String) (key : Key) :
    (key.token sha256).toList.head? = some key.kind.initial := by
  obtain ⟨kind, text⟩ := key
  cases kind <;> simp [Key.token, deterministicHash, Kind.initial]

theorem kind_eq_of_token {sha256 : String → String} {k k' : Key}
    (h : k.token sha256 = k'.token sha256) : k.kind = k'.kind := by
  have hinitial : some k.kind.initial = some k'.kind.initial := by
    rw [← head?_token sha256 k, h, head?_token]
  cases hk : k.kind <;> cases hk' : k'.kind <;> first
    | rfl
    | exact absurd hinitial (by rw [hk, hk']; decide)

theorem collisionFree_of_mem {sha256 : String → String} {keys l : List Key}
    (hmem : ∀ k ∈ keys, k ∈ l)
    (hl : l.Pairwise fun k k' => k.kind = k'.kind → k.token sha256 ≠ k'.token sha256) :
    CollisionFree sha256 keys := by
  have hpairs : l.Pairwise fun k k' => k.token sha256 = k'.token sha256 → k = k' :=
    hl.imp fun hne htoken => absurd htoken (hne (kind_eq_of_token htoken))
  have hflip : l.Pairwise (flip fun k k' => k.token sha256 = k'.token sha256 → k = k') :=
    hpairs.imp fun h htoken => (h htoken.symm).symm
  intro k hk k' hk'
  exact List.Pairwise.forall_of_forall_of_flip (fun _ _ _ => rfl) hpairs hflip
    (hmem k hk) (hmem k' hk')

def demoKeys : List Key :=
  [⟨.id, demoWallet ++ ":7"⟩, ⟨.wallet, demoWallet⟩, ⟨.name, "Alice Smith"⟩,
    ⟨.email, "alice@example.com"⟩]

theorem conforms_demoData : Conforms demoData := ⟨by decide +kernel, by decide, by decide⟩

/-- Without a comment the references are kept. -/
theorem references_iff_demo : ∃ out ctx,
    (anonymizeAll demoSha256 demoData Table.all).run createAnonymizationContext = .ok (out, ctx) ∧
      KeepsReferences demoData out := by
  have hhash : CollisionFree demoSha256 (keys demoData) :=
    collisionFree_of_mem (l := demoKeys) (by decide +kernel) (by decide)
  obtain ⟨out, ctx, hrun, hiff⟩ :=
    references_iff conforms_demoData (by decide +kernel) hhash Table.mem_all
  exact ⟨out, ctx, hrun, hiff.mpr ⟨rfl, rfl, nofun⟩⟩

/-- The comment refers to a token, and the claim has its number. -/
theorem references_broken : ¬ ∀ (sha256 : String → String) (data : Dataset String)
    (order : List Table),
    Conforms data → ValidReferences data → CollisionFree sha256 (keys data) →
      (∀ table, table ∈ order) →
      ∀ out ctx, (anonymizeAll sha256 data order).run createAnonymizationContext = .ok (out, ctx) →
        KeepsReferences data out := by
  intro h
  have hconforms : Conforms commentedData := ⟨by decide +kernel, by decide, by decide⟩
  have hvalid : ValidReferences commentedData := by decide +kernel
  have hhash : CollisionFree demoSha256 (keys commentedData) :=
    collisionFree_of_mem (l := ⟨.id, "5"⟩ :: demoKeys) (by decide +kernel) (by decide +kernel)
  obtain ⟨ctx, hrun⟩ := anonymizeAll_eq demoSha256 hconforms.fits Table.mem_all
  have hkeeps := h _ _ _ hconforms hvalid hhash Table.mem_all _ ctx hrun
  exact absurd ((keepsReferences_iff hconforms hvalid hhash).mp hkeeps).1 (by decide)

end NiffyInsure.Backend.Anonymization
