import NiffyInsure.Trace
import NiffyInsure.Lib.JsString

/-!
# The commitments of the browser

The frontend has three functions that compute the commitment of a secret ballot:
`computeCommitment` of `lib/commitReveal.ts`, of `lib/commitRevealStorage.ts` and of
`components/CommitRevealVote.tsx`.  The comments of the first two say that they lay out the bytes
as the contract does.  `reveal_vote` hashes the ballot, the salt and the XDR of the voter with
SHA-256; none of the three does:

* the first hashes with Keccak-256;
* the second hashes the claim, the ballot and the salt, 65 bytes, and leaves out the voter;
* the third hashes a text, which starts with the digit `0` or `1` and not with the byte 0 or 1.

`client_commitment_never_revealed`: whatever the input, no one of them computes the commitment
that the contract asks for, and a ballot that was committed with one of them cannot be revealed.
-/

namespace NiffyInsure.Frontend

open Js

/-- `"0x" + hex`, which is also what `toHex` of `viem` gives for bytes. -/
def toHex (bytes : Bytes32) : Text := 0x30 :: 0x78 :: bytesToHex bytes.toList

theorem toHex_inj {a b : Bytes32} (h : toHex a = toHex b) : a = b := by
  simp only [toHex, List.cons.injEq, true_and] at h
  exact Vector.toList_inj.mp (bytesToHex_inj h)

/-- What is used of the package `viem`: `encodePacked` at the types `uint256`, `address`, `uint8`
and `bytes32`, where `none` is an exception, and `keccak256` of the bytes that it gives. -/
structure Viem where
  encodePacked : Int → Text → Nat → Text → Option (List UInt8)
  keccak256 : List UInt8 → Bytes32

/-! ## `lib/commitReveal.ts` -/

namespace CommitReveal

inductive VoteChoice where
  | «for»
  | against
  deriving DecidableEq

/-- A claim id, which is a `string` or a `bigint`. -/
inductive ClaimId where
  | text (id : Text)
  | big (id : Int)

structure CommitmentInput where
  claimId : ClaimId
  voter : Text
  vote : VoteChoice
  salt : Text

/-- `BigInt(claimId)`. -/
def ClaimId.toBigInt : ClaimId → Option Int
  | .text id => bigInt id
  | .big id => some id

/-- `encodeVote`. -/
def encodeVote (vote : VoteChoice) : Nat := if vote = .for then 1 else 0

/-- The packed bytes that `computeCommitment` hashes. -/
def preimage (viem : Viem) (input : CommitmentInput) : Option (List UInt8) := do
  let claimId ← input.claimId.toBigInt
  viem.encodePacked claimId input.voter (encodeVote input.vote) input.salt

/-- `computeCommitment`. -/
def computeCommitment (viem : Viem) (input : CommitmentInput) : Option Text :=
  (preimage viem input).map fun bytes => toHex (viem.keccak256 bytes)

end CommitReveal

/-! ## `lib/commitRevealStorage.ts` -/

namespace CommitRevealStorage

/-- `hexToBytes`, which throws on an odd number of digits. -/
def hexToBytes (hex : Text) : Option (List UInt8) :=
  let clean := strip0x hex
  if clean.length % 2 ≠ 0 then none else some (hexBytes clean)

/-- `claimIdToBytes`: the last 32 bytes, right-aligned in a word. -/
def claimIdToBytes (claimId : Text) : Option (List UInt8) := do
  let raw ← hexToBytes (strip0x claimId)
  let kept := raw.drop (raw.length - 32)
  pure (List.replicate (32 - kept.length) 0 ++ kept)

/-- The bytes that `computeCommitment` hashes. -/
def preimage (claimId : Text) (vote : Fin 2) (salt : Text) : Option (List UInt8) := do
  let claimBytes ← claimIdToBytes claimId
  let saltBytes ← hexToBytes salt
  pure (claimBytes ++ UInt8.ofNat vote :: saltBytes)

/-- `computeCommitment`. -/
def computeCommitment (sha256 : List UInt8 → Bytes32) (claimId : Text) (vote : Fin 2)
    (salt : Text) : Option Text :=
  (preimage claimId vote salt).map fun bytes => toHex (sha256 bytes)

theorem hexToBytes_bytesToHex (bytes : List UInt8) :
    hexToBytes (bytesToHex bytes) = some bytes := by
  have heven : ¬ (bytesToHex bytes).length % 2 ≠ 0 := by
    rw [length_bytesToHex]
    omega
  rw [hexToBytes, strip0x_bytesToHex]
  show (if _ then none else _) = _
  rw [if_neg heven, hexBytes_bytesToHex]

theorem length_claimIdToBytes {claimId : Text} {bytes : List UInt8}
    (h : claimIdToBytes claimId = some bytes) : bytes.length = 32 := by
  simp only [claimIdToBytes, Option.bind_eq_bind, Option.pure_def, Option.bind_eq_some_iff,
    Option.some.injEq] at h
  obtain ⟨raw, -, rfl⟩ := h
  simp only [List.length_append, List.length_replicate, List.length_drop]
  omega

theorem length_preimage {claimId : Text} {vote : Fin 2} {salt : Bytes32} {bytes : List UInt8}
    (h : preimage claimId vote (bytesToHex salt.toList) = some bytes) : bytes.length = 65 := by
  simp only [preimage, hexToBytes_bytesToHex, Option.bind_eq_bind, Option.pure_def,
    Option.bind_some, Option.bind_eq_some_iff, Option.some.injEq] at h
  obtain ⟨claimBytes, hclaim, rfl⟩ := h
  simp [length_claimIdToBytes hclaim]

end CommitRevealStorage

/-! ## `components/CommitRevealVote.tsx` -/

namespace CommitRevealVote

/-- The text that `computeCommitment` hashes: the template literal of its source. -/
def preimage (vote : Bool) (salt claimId voter : Text) : List UInt8 :=
  textEncode ((if vote then 0x31 else 0x30) :: (salt ++ claimId ++ voter))

/-- `computeCommitment`. -/
def computeCommitment (sha256 : List UInt8 → Bytes32) (vote : Bool)
    (salt claimId voter : Text) : Text :=
  toHex (sha256 (preimage vote salt claimId voter))

theorem head_preimage (vote : Bool) (salt claimId voter : Text) :
    ∃ rest, preimage vote salt claimId voter = (if vote then 0x31 else 0x30) :: rest := by
  cases vote
  · exact ⟨_, head_textEncode (by decide)⟩
  · exact ⟨_, head_textEncode (by decide)⟩

end CommitRevealVote

/-! ## The commitment of the contract -/

/-- A ballot as the browser has it: the claim id in the two forms in which the functions take it,
the voter's address as a text, the option and the salt. -/
structure Ballot where
  claimId : CommitReveal.ClaimId
  claimIdText : Text
  voterText : Text
  vote : VoteOption
  salt : Bytes32

namespace Ballot

variable (b : Ballot)

/-- To vote for a claim is to approve it. -/
def choice : CommitReveal.VoteChoice :=
  match b.vote with
  | .approve => .for
  | .reject => .against

/-- `0 = against, 1 = for`. -/
def bit : Fin 2 :=
  match b.vote with
  | .approve => 1
  | .reject => 0

/-- The salt as `generateSalt` of `commitRevealStorage.ts` and `CommitRevealVote.tsx` writes it. -/
def saltText : Text := bytesToHex b.salt.toList

/-- What the three functions compute for the ballot. -/
def commitments (sha256 : List UInt8 → Bytes32) (viem : Viem) : List (Option Text) :=
  [CommitReveal.computeCommitment viem ⟨b.claimId, b.voterText, b.choice, toHex b.salt⟩,
    CommitRevealStorage.computeCommitment sha256 b.claimIdText b.bit b.saltText,
    some (CommitRevealVote.computeCommitment sha256 (b.vote = .approve) b.saltText b.claimIdText
      b.voterText)]

/-- The messages that are hashed with SHA-256 for the ballot, in the browser and, for either
option, in the contract.  No function into 32 bytes is injective; on these few messages
SHA-256 is taken to be. -/
def messages (env : Env) (voter : Address) : List (List UInt8) :=
  [commitmentPreimage env .approve b.salt voter, commitmentPreimage env .reject b.salt voter,
    CommitRevealVote.preimage (b.vote = .approve) b.saltText b.claimIdText b.voterText] ++
  (CommitRevealStorage.preimage b.claimIdText b.bit b.saltText).toList

variable {b} {env : Env} {voter : Address}

theorem commitmentPreimage_mem_messages (vote : VoteOption) :
    commitmentPreimage env vote b.salt voter ∈ b.messages env voter := by
  cases vote <;> simp [messages]

end Ballot

/-- The XDR of an address is that of an `ScVal`: 44 bytes for an account, 40 for a contract. -/
def XdrOfAddress (env : Env) (voter : Address) : Prop :=
  (env.toXdr voter).length = 44 ∨ (env.toXdr voter).length = 40

section

variable {env : Env} {viem : Viem} {b : Ballot} {voter : Address}

theorem length_commitmentPreimage (vote : VoteOption) (salt : Bytes32) :
    (commitmentPreimage env vote salt voter).length = 33 + (env.toXdr voter).length := by
  show (salt.toList ++ env.toXdr voter).length + 1 = _
  rw [List.length_append, Vector.length_toList]
  omega

/-- The second function leaves out the voter, so that its message is too short. -/
theorem storage_preimage_ne (hxdr : XdrOfAddress env voter) (vote : VoteOption) :
    CommitRevealStorage.preimage b.claimIdText b.bit b.saltText ≠
      some (commitmentPreimage env vote b.salt voter) := by
  intro h
  have hlen := CommitRevealStorage.length_preimage h
  rw [length_commitmentPreimage] at hlen
  rcases hxdr with hx | hx
  · omega
  · omega

/-- The third function hashes a text, and the contract a byte that is not a digit. -/
theorem vote_preimage_ne (vote : VoteOption) :
    CommitRevealVote.preimage (b.vote = .approve) b.saltText b.claimIdText b.voterText ≠
      commitmentPreimage env vote b.salt voter := by
  intro h
  obtain ⟨rest, hrest⟩ := CommitRevealVote.head_preimage (b.vote = .approve) b.saltText
    b.claimIdText b.voterText
  rw [hrest] at h
  have hfirst := (List.cons.inj h).1
  split at hfirst
  · cases vote <;> exact absurd hfirst (by decide)
  · cases vote <;> exact absurd hfirst (by decide)

theorem commitments_ne (hxdr : XdrOfAddress env voter)
    (hinj : ∀ p ∈ b.messages env voter, ∀ q ∈ b.messages env voter,
      env.sha256 p = env.sha256 q → p = q)
    (hdisj : ∀ p q, viem.keccak256 p ≠ env.sha256 q) (vote : VoteOption) :
    some (toHex (env.sha256 (commitmentPreimage env vote b.salt voter))) ∉
      b.commitments env.sha256 viem := by
  have hmem : commitmentPreimage env vote b.salt voter ∈ b.messages env voter :=
    Ballot.commitmentPreimage_mem_messages vote
  intro h
  simp only [Ballot.commitments, List.mem_cons, List.not_mem_nil, or_false] at h
  rcases h with h | h | h
  · obtain ⟨packed, -, hsame⟩ := Option.map_eq_some_iff.mp h.symm
    exact hdisj _ _ (toHex_inj hsame)
  · obtain ⟨message, hmessage, hsame⟩ := Option.map_eq_some_iff.mp h.symm
    have heq : message = _ := hinj _ (by simp [Ballot.messages, hmessage]) _ hmem (toHex_inj hsame)
    rw [heq] at hmessage
    exact storage_preimage_ne hxdr vote hmessage
  · have heq := hinj _ hmem _ (by simp [Ballot.messages]) (toHex_inj (Option.some.inj h))
    exact vote_preimage_ne vote heq.symm

theorem stored_of_revealVote {s s' : State} {claimId : Nat} {vote : VoteOption} {salt c : Bytes32}
    (h : revealVote env s voter claimId vote salt = .ok s')
    (hc : s.get (.voteCommitment claimId voter) = some c) :
    env.sha256 (commitmentPreimage env vote salt voter) = c := by
  simp only [revealVote, bind_eq_ok, okOr_eq_ok, ensure_eq_ok] at h
  obtain ⟨-, -, -, -, -, -, -, -, stored, hstored, -, -, -, hmatch, -⟩ := h
  exact hmatch.trans (Option.some.inj (hstored.symm.trans hc))

/-- No function of the browser computes the commitment that the contract asks for, be it for the
same option or for the other, and what one of them has committed cannot be revealed. -/
theorem client_commitment_never_revealed (hxdr : XdrOfAddress env voter)
    (hinj : ∀ p ∈ b.messages env voter, ∀ q ∈ b.messages env voter,
      env.sha256 p = env.sha256 q → p = q)
    (hdisj : ∀ p q, viem.keccak256 p ≠ env.sha256 q) :
    (∀ commitment ∈ b.commitments env.sha256 viem, ∀ vote,
      commitment ≠ some (toHex (env.sha256 (commitmentPreimage env vote b.salt voter)))) ∧
    ∀ (s s' : State) claimId c, s.get (.voteCommitment claimId voter) = some c →
      some (toHex c) ∈ b.commitments env.sha256 viem →
        ∀ vote, revealVote env s voter claimId vote b.salt ≠ .ok s' := by
  constructor
  · rintro commitment hcommitment vote rfl
    exact commitments_ne hxdr hinj hdisj vote hcommitment
  · intro s s' claimId c hc hcommitted vote h
    rw [← stored_of_revealVote h hc] at hcommitted
    exact commitments_ne hxdr hinj hdisj vote hcommitted

end

/-! ## A ballot of the deployment -/

/-- Account 1 approves the claim `01`.  Its address is given in the form that `viem` takes. -/
def demoBallot : Ballot where
  claimId := .text [0x30, 0x31]
  claimIdText := [0x30, 0x31]
  voterText := 0x30 :: 0x78 :: bytesToHex (List.replicate 19 0 ++ [1])
  vote := .approve
  salt := demoSalt

/-- The SHA-256 of the 65 bytes of `commitRevealStorage.ts`. -/
def storageHash : Bytes32 :=
  #v[36, 153, 199, 113, 101, 114, 199, 57, 238, 191, 234, 174, 225, 137, 0, 7, 173, 28, 108, 8, 3,
    128, 116, 94, 170, 181, 116, 103, 143, 221, 250, 228]

/-- SHA-256 on the messages of the ballot. -/
def demoSha256 (bytes : List UInt8) : Bytes32 :=
  if bytes = 0 :: (demoSalt.toList ++ demoXdr 1) then demoCommitment
  else if bytes = 1 :: (demoSalt.toList ++ demoXdr 1) then
    #v[10, 223, 53, 97, 249, 222, 22, 176, 86, 196, 51, 140, 103, 65, 137, 171, 172, 247, 10, 254,
      67, 12, 162, 253, 19, 143, 165, 56, 28, 237, 31, 145]
  else if bytes = List.replicate 31 0 ++ [1, 1] ++ demoSalt.toList then storageHash
  else if bytes = textEncode (0x31 :: (demoBallot.saltText ++ demoBallot.claimIdText ++
      demoBallot.voterText)) then
    #v[98, 21, 114, 225, 167, 222, 141, 80, 205, 183, 218, 5, 9, 209, 24, 95, 15, 164, 84, 31, 254,
      143, 143, 250, 125, 239, 140, 255, 187, 1, 143, 20]
  else Vector.replicate 32 0

/-- An invocation of the deployment, with these hashes. -/
def hashEnv : Env := { demoEnv with sha256 := demoSha256 }

/-- The package on the packed bytes of the ballot. -/
def demoViem : Viem where
  encodePacked := fun claimId voter vote salt =>
    if claimId = 1 ∧ voter = demoBallot.voterText ∧ vote = 1 ∧ salt = toHex demoSalt then
      some (List.replicate 31 0 ++ [1] ++ List.replicate 19 0 ++ [1, 1] ++ demoSalt.toList)
    else none
  keccak256 := fun bytes =>
    if bytes = List.replicate 31 0 ++ [1] ++ List.replicate 19 0 ++ [1, 1] ++ demoSalt.toList then
      #v[28, 193, 84, 235, 27, 101, 159, 101, 64, 87, 136, 217, 176, 137, 59, 39, 220, 15, 122, 18,
        222, 136, 183, 147, 246, 214, 69, 91, 149, 169, 2, 198]
    else Vector.replicate 32 1

theorem client_commitment_never_revealed_demo :
    (∀ commitment ∈ demoBallot.commitments demoSha256 demoViem, ∀ vote,
      commitment ≠ some (toHex (demoSha256 (commitmentPreimage hashEnv vote demoSalt 1)))) ∧
    ∀ (s s' : State) claimId c, s.get (.voteCommitment claimId 1) = some c →
      some (toHex c) ∈ demoBallot.commitments demoSha256 demoViem →
        ∀ vote, revealVote hashEnv s 1 claimId vote demoSalt ≠ .ok s' := by
  have hxdr : XdrOfAddress hashEnv 1 := Or.inl (by decide)
  refine @client_commitment_never_revealed hashEnv demoViem demoBallot 1 hxdr ?_ ?_
  · decide +kernel
  · intro p q
    show (if _ then _ else _) ≠ demoSha256 q
    unfold demoSha256
    split_ifs <;> decide

/-- The claim `01` is approved by account 1: the three functions give commitments, none of which
is the contract's, and the reveal of what the second one gives is refused. -/
theorem client_commitment_mismatch :
    (∀ commitment ∈ demoBallot.commitments demoSha256 demoViem, commitment ≠ none ∧
      commitment ≠ some (toHex (demoSha256 (commitmentPreimage hashEnv .approve demoSalt 1)))) ∧
    some (toHex storageHash) ∈ demoBallot.commitments demoSha256 demoViem ∧
    revealVote hashEnv (((deployed 0).set (.commitRevealPhases 1) ⟨900, 1100⟩).set
      (.voteCommitment 1 1) storageHash) 1 1 .approve demoSalt =
        .error (.error .commitmentMismatch) := by
  refine ⟨?_, ?_, ?_⟩
  · decide +kernel
  · decide +kernel
  · rfl

end NiffyInsure.Frontend
