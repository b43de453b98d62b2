import CodeFabric.Support.Fallible
import CodeFabric.Support.Run

/-! # Launch grants and daemon sessions

The launch authority of `session_authority.rs`. The supervisor registers launch grants; a handshake
consumes one grant and mints one session. Both maps are bounded, and the bounds count every stored
entry, also those nobody can use any more. -/

namespace CodeFabric.Session

open Fallible Runs

abbrev Digest := Vector UInt8 32

abbrev PrincipalId := Vector UInt8 16

/-- Texts as their characters; every bound on them is one on ASCII texts. -/
abbrev Text := List Char

inductive SessionOperation
  | status | reference | validate | start | watch | cancel | readResource | releaseResource
  deriving DecidableEq

inductive SessionAuthorityError
  | entropy | invalidGrant | capacity | generationMismatch | replay | stalePolicyRevision
  | staleRevocation | unknownGrant | grantBinding | profileUnavailable | invalidSession
  | sessionBinding | operationDenied
  deriving DecidableEq

structure RegisteredLaunchGrant where
  grantId : Text
  grantDigest : Digest
  policyId : Text
  policyRevision : Nat
  revocationGeneration : Nat
  principalId : PrincipalId
  workspaceIds : List (Vector UInt8 16)
  operations : List SessionOperation
  semanticProfiles : List Text
  maximumResourceChunkBytes : Nat
  maximumResultBytes : Nat
  maximumResultPages : Nat
  maximumRequestStateTtlSeconds : Nat
  issuedAtUnixMs : Int
  expiresAtUnixMs : Int
  daemonGeneration : Nat
  supervisorGeneration : Nat
  peerUid : Nat
  peerPid : Option Nat
  peerStartIdentity : Option Text

def Text.isLabel (text : Text) : Prop :=
  text ≠ [] ∧ text.length ≤ 128 ∧ text.all (·.toNat < 128)
  deriving Decidable

def RegisteredLaunchGrant.Valid (grant : RegisteredLaunchGrant) : Prop :=
  grant.grantId ≠ [] ∧ grant.grantDigest ≠ Vector.replicate 32 0 ∧
    (grant.policyId.isLabel ∧ grant.policyId.all fun c => c.isAlphanum ∨ c ∈ ['.', '_', '-', ':']) ∧
    grant.policyRevision ≠ 0 ∧ grant.revocationGeneration ≠ 0 ∧
    grant.principalId ≠ Vector.replicate 16 0 ∧ grant.workspaceIds ≠ [] ∧
    grant.operations.length ≠ 0 ∧ grant.semanticProfiles ≠ [] ∧
    grant.maximumResourceChunkBytes ≠ 0 ∧ grant.maximumResultBytes ≠ 0 ∧
    grant.maximumResultPages ≠ 0 ∧ grant.maximumRequestStateTtlSeconds ≠ 0 ∧
    grant.maximumRequestStateTtlSeconds ≤ 60 ∧ 0 < grant.issuedAtUnixMs ∧
    grant.issuedAtUnixMs < grant.expiresAtUnixMs ∧ grant.daemonGeneration ≠ 0 ∧
    grant.supervisorGeneration ≠ 0 ∧ Vector.replicate 16 0 ∉ grant.workspaceIds ∧
    (∀ identity ∈ grant.peerStartIdentity, identity.isLabel) ∧
    ∀ profile ∈ grant.semanticProfiles, profile.isLabel
  deriving Decidable

/-- A session; its public name, a hash of the token, is not used here. -/
structure AuthorizedSession where
  token : Digest
  sessionGeneration : Nat
  principalId : PrincipalId
  workspaceIds : List (Vector UInt8 16)
  operations : List SessionOperation
  semanticProfile : Text
  maximumResourceChunkBytes : Nat
  maximumResultBytes : Nat
  maximumResultPages : Nat
  maximumRequestStateTtlSeconds : Nat
  expiresAtUnixMs : Int
  daemonGeneration : Nat
  supervisorGeneration : Nat
  policyId : Text
  policyRevision : Nat
  revocationGeneration : Nat

structure SessionRecord where
  session : AuthorizedSession
  grantId : Text
  grantDigest : Digest
  peerUid : Nat
  peerPid : Option Nat
  peerStartIdentity : Option Text

structure PolicyAuthorityState where
  latestRevision : Nat
  revocationGeneration : Nat

/-- The grants and the sessions are listed; their digests and tokens are the keys of the maps. -/
structure AuthorityState where
  daemonGeneration : Nat
  supervisorGeneration : Nat
  nextSessionGeneration : Nat
  grants : List RegisteredLaunchGrant
  sessions : List SessionRecord
  policies : Text → Option PolicyAuthorityState
  principalRevocations : PrincipalId → Option Nat

structure LaunchGrantAuthority where
  maximumGrants : Nat
  maximumSessions : Nat

/-- The peer the kernel saw, with the start identity observed of its process. -/
structure Peer where
  uid : Nat
  pid : Option Nat
  startIdentity : Option Text

/-- What a handshake presents, and the token the entropy source gives. -/
structure Handshake where
  rawGrantLength : Nat
  digest : Digest
  peer : Peer
  desiredProfiles : List Text
  clientMaximumResourceChunkBytes : Nat
  observedAtUnixMs : Int
  token : Option Digest

/-- A grant or a session bound to a peer is used by that peer. -/
abbrev Peer.Matches (peer : Peer) (uid : Nat) (pid : Option Nat) (startIdentity : Option Text) :
    Prop :=
  uid = peer.uid ∧ (∀ bound ∈ pid, some bound = peer.pid) ∧ startIdentity = peer.startIdentity

section

variable (authority : LaunchGrantAuthority) (state : AuthorityState)

/-- Neither the generations nor the revocations nor the policy have moved past these. -/
abbrev AuthorityState.Current (policy : PolicyAuthorityState) (daemon supervisor : Nat)
    (principal : PrincipalId) (revision revocation : Nat) : Prop :=
  daemon = state.daemonGeneration ∧ supervisor = state.supervisorGeneration ∧
    (∀ revoked ∈ state.principalRevocations principal, revoked ≤ revocation) ∧
    policy.latestRevision ≤ revision ∧ policy.revocationGeneration ≤ revocation

def register (grant : RegisteredLaunchGrant) : Except SessionAuthorityError AuthorityState := do
  ensure grant.Valid .invalidGrant
  ensure (grant.daemonGeneration = state.daemonGeneration ∧
    grant.supervisorGeneration = state.supervisorGeneration) .generationMismatch
  ensure (state.grants.length < authority.maximumGrants) .capacity
  ensure (∀ other ∈ state.grants, other.grantDigest ≠ grant.grantDigest) .replay
  let current := state.policies grant.policyId
  ensure (∀ policy ∈ current, policy.latestRevision ≤ grant.policyRevision) .stalePolicyRevision
  ensure (∀ policy ∈ current, policy.revocationGeneration ≤ grant.revocationGeneration)
    .staleRevocation
  let superseding := current.any fun policy => policy.latestRevision < grant.policyRevision ∨
    policy.revocationGeneration < grant.revocationGeneration
  let kept := if superseding then state.grants.filter fun other =>
      other.policyId ≠ grant.policyId ∨ grant.policyRevision ≤ other.policyRevision ∧
        grant.revocationGeneration ≤ other.revocationGeneration
    else state.grants
  let latest := current.elim grant.policyRevision fun policy =>
    max policy.latestRevision grant.policyRevision
  return { state with
    grants := grant :: kept
    policies := Function.update state.policies grant.policyId
      (some ⟨latest, grant.revocationGeneration⟩) }

def revokePrincipal (principal : PrincipalId) (generation : Nat) :
    Except SessionAuthorityError AuthorityState := do
  ensure (∀ current ∈ state.principalRevocations principal, current < generation) .staleRevocation
  return { state with
    principalRevocations := Function.update state.principalRevocations principal (some generation)
    grants := state.grants.filter (·.principalId ≠ principal)
    sessions := state.sessions.filter (·.session.principalId ≠ principal) }

def revokeLaunch (grantId : Text) (digest : Digest) (adapterPid : Nat)
    (startIdentity : Option Text) : Except SessionAuthorityError AuthorityState := do
  ensure (grantId ≠ [] ∧ digest ≠ Vector.replicate 32 0 ∧ 1 < adapterPid) .invalidGrant
  let owns (id : Text) (other : Digest) (pid : Option Nat) (identity : Option Text) : Bool :=
    id = grantId ∧ other = digest ∧ pid = some adapterPid ∧ identity = startIdentity
  let ofGrant (grant : RegisteredLaunchGrant) :=
    owns grant.grantId grant.grantDigest grant.peerPid grant.peerStartIdentity
  let ofSession (record : SessionRecord) :=
    owns record.grantId record.grantDigest record.peerPid record.peerStartIdentity
  ensure ((∀ grant ∈ state.grants, grant.grantId = grantId → ofGrant grant) ∧
    ∀ record ∈ state.sessions, record.grantId = grantId → ofSession record) .grantBinding
  ensure (state.grants.any ofGrant ∨ state.sessions.any ofSession) .unknownGrant
  return { state with
    grants := state.grants.filter (!ofGrant ·)
    sessions := state.sessions.filter (!ofSession ·) }

def advanceGeneration (daemon supervisor : Nat) : Except SessionAuthorityError AuthorityState := do
  ensure (state.daemonGeneration < daemon ∧ state.supervisorGeneration ≤ supervisor)
    .generationMismatch
  return { state with
    daemonGeneration := daemon
    supervisorGeneration := supervisor
    nextSessionGeneration := 1
    grants := []
    sessions := [] }

/-- The session a handshake gets for its grant, which is no longer registered. -/
def mintSession (handshake : Handshake) (grant : RegisteredLaunchGrant) :
    Except SessionAuthorityError AuthorizedSession := do
  let policy ← okOr (state.policies grant.policyId) .grantBinding
  ensure (handshake.peer.Matches grant.peerUid grant.peerPid grant.peerStartIdentity ∧
    grant.issuedAtUnixMs ≤ handshake.observedAtUnixMs ∧
    handshake.observedAtUnixMs < grant.expiresAtUnixMs ∧
    state.Current policy grant.daemonGeneration grant.supervisorGeneration grant.principalId
      grant.policyRevision grant.revocationGeneration) .grantBinding
  ensure (state.sessions.length < authority.maximumSessions) .capacity
  let profile ← okOr (handshake.desiredProfiles.find? (· ∈ grant.semanticProfiles) <|>
    grant.semanticProfiles.head?) .profileUnavailable
  let bound := min grant.maximumResourceChunkBytes handshake.clientMaximumResourceChunkBytes
  ensure (bound ≠ 0) .invalidGrant
  let token ← okOr handshake.token .entropy
  ensure (state.nextSessionGeneration + 1 < 2 ^ 64) .capacity
  return ⟨token, state.nextSessionGeneration, grant.principalId, grant.workspaceIds,
    grant.operations, profile, bound, grant.maximumResultBytes, grant.maximumResultPages,
    grant.maximumRequestStateTtlSeconds, grant.expiresAtUnixMs, state.daemonGeneration,
    state.supervisorGeneration, grant.policyId, grant.policyRevision, grant.revocationGeneration⟩

/-- A handshake takes its grant out of the map whether it succeeds or not. -/
def consumeGrant (handshake : Handshake) :
    Except SessionAuthorityError AuthorizedSession × AuthorityState :=
  if handshake.rawGrantLength < 32 ∨ 512 < handshake.rawGrantLength then
    (.error .invalidGrant, state)
  else match state.grants.find? (·.grantDigest = handshake.digest) with
    | none => (.error .unknownGrant, state)
    | some grant =>
      let taken := { state with
        grants := state.grants.filter (·.grantDigest ≠ handshake.digest) }
      match mintSession authority taken handshake grant with
      | .error error => (.error error, taken)
      | .ok session => (.ok session, { taken with
          nextSessionGeneration := taken.nextSessionGeneration + 1
          sessions := ⟨session, grant.grantId, handshake.digest, handshake.peer.uid,
            handshake.peer.pid, handshake.peer.startIdentity⟩ ::
              taken.sessions.filter (·.session.token ≠ session.token) })

/-- A session that has not expired and is neither revoked nor superseded. -/
abbrev AuthorityState.Live (policy : PolicyAuthorityState) (session : AuthorizedSession)
    (now : Int) : Prop :=
  now < session.expiresAtUnixMs ∧ state.Current policy session.daemonGeneration
    session.supervisorGeneration session.principalId session.policyRevision
    session.revocationGeneration

def authorize (token : Digest) (peer : Peer) (operation : SessionOperation)
    (workspaceId : Option (Vector UInt8 16)) (now : Int) :
    Except SessionAuthorityError AuthorizedSession := do
  let record ← okOr (state.sessions.find? (·.session.token = token)) .invalidSession
  let policy ← okOr (state.policies record.session.policyId) .sessionBinding
  ensure (peer.Matches record.peerUid record.peerPid record.peerStartIdentity ∧
    state.Live policy record.session now) .sessionBinding
  ensure (operation ∈ record.session.operations ∧
    workspaceId.all (· ∈ record.session.workspaceIds)) .operationDenied
  return record.session

/-- Whether the right use of a session would be authorized at a time. -/
def AuthorityState.authorizable (now : Int) (record : SessionRecord) : Bool :=
  (state.policies record.session.policyId).any (state.Live · record.session now)

inductive Operation
  | register (grant : RegisteredLaunchGrant)
  | revokePrincipal (principal : PrincipalId) (generation : Nat)
  | revokeLaunch (grantId : Text) (digest : Digest) (adapterPid : Nat) (identity : Option Text)
  | advanceGeneration (daemon supervisor : Nat)
  | consumeGrant (handshake : Handshake)

/-- The state after an operation; only a handshake changes it when it fails. -/
def Operation.after : Operation → AuthorityState
  | .register grant => (Session.register authority state grant).toOption.getD state
  | .revokePrincipal principal generation =>
    (Session.revokePrincipal state principal generation).toOption.getD state
  | .revokeLaunch grantId digest pid identity =>
    (Session.revokeLaunch state grantId digest pid identity).toOption.getD state
  | .advanceGeneration daemon supervisor =>
    (Session.advanceGeneration state daemon supervisor).toOption.getD state
  | .consumeGrant handshake => (Session.consumeGrant authority state handshake).2

def Step (state : AuthorityState) (operation : Operation) (next : AuthorityState) : Prop :=
  next = operation.after authority state

/-- The operations that can take sessions out of the map. -/
def Operation.releases : Operation → Prop
  | .revokePrincipal .. | .revokeLaunch .. | .advanceGeneration .. => True
  | .register _ | .consumeGrant _ => False

end

/-! ## Who is refused -/

variable {authority : LaunchGrantAuthority} {state : AuthorityState} {handshake : Handshake}
  {grant : RegisteredLaunchGrant}

theorem authorizable_of_authorize {token : Digest} {peer : Peer} {operation : SessionOperation}
    {workspaceId : Option (Vector UInt8 16)} {now : Int} {session : AuthorizedSession}
    (h : authorize state token peer operation workspaceId now = .ok session) :
    ∃ record ∈ state.sessions, state.authorizable now record := by
  simp only [authorize, ok_iff] at h
  obtain ⟨record, hfind, _, hpol, _, ⟨-, hlive⟩, -⟩ := h
  refine ⟨record, List.mem_of_find?_eq_some hfind, ?_⟩
  rw [AuthorityState.authorizable, hpol]
  exact decide_eq_true hlive

theorem mintSession_capacity (h : mintSession authority state handshake grant = .error .capacity) :
    authority.maximumSessions ≤ state.sessions.length ∨
      2 ^ 64 ≤ state.nextSessionGeneration + 1 := by
  obtain he | ⟨_, -, h⟩ := bind_eq_error h
  · cases (okOr_eq_error he).1
  obtain he | ⟨_, -, h⟩ := bind_eq_error h
  · cases (ensure_eq_error he).1
  obtain he | ⟨_, -, h⟩ := bind_eq_error h
  · exact .inl (not_lt.1 (ensure_eq_error he).2)
  obtain he | ⟨_, -, h⟩ := bind_eq_error h
  · cases (okOr_eq_error he).1
  obtain he | ⟨_, -, h⟩ := bind_eq_error h
  · cases (ensure_eq_error he).1
  obtain he | ⟨_, -, h⟩ := bind_eq_error h
  · cases (okOr_eq_error he).1
  obtain he | ⟨_, -, h⟩ := bind_eq_error h
  · exact .inr (not_lt.1 (ensure_eq_error he).2)
  · cases h

theorem consumeGrant_capacity (h : (consumeGrant authority state handshake).1 = .error .capacity) :
    authority.maximumSessions ≤ state.sessions.length ∨
      2 ^ 64 ≤ state.nextSessionGeneration + 1 := by
  unfold consumeGrant at h
  split_ifs at h
  · cases h
  · split at h
    · cases h
    · dsimp only at h
      split at h
      · rename_i hmint
        cases h
        exact mintSession_capacity hmint
      · cases h

theorem register_capacity (h : register authority state grant = .error .capacity) :
    authority.maximumGrants ≤ state.grants.length := by
  by_contra hlt
  simp only [register, ensure, if_pos (not_le.1 hlt)] at h
  split_ifs at h <;> cases h

/-- **Step lemma.** A full map of sessions stays full, unless the operation is a releasing one. -/
theorem Step.full {operation : Operation} {next : AuthorityState}
    (step : Step authority state operation next)
    (h : authority.maximumSessions ≤ state.sessions.length) :
    authority.maximumSessions ≤ next.sessions.length ∨ operation.releases := by
  obtain rfl : next = _ := step
  cases operation with
  | register grant =>
    left
    show _ ≤ ((register authority state grant).toOption.getD state).sessions.length
    cases hreg : register authority state grant with
    | error error => exact h
    | ok =>
      simp only [register, ok_iff] at hreg
      obtain ⟨_, -, _, -, _, -, _, -, _, -, _, -, rfl⟩ := hreg
      exact h
  | consumeGrant handshake =>
    left
    show _ ≤ (consumeGrant authority state handshake).2.sessions.length
    unfold consumeGrant
    split_ifs
    · exact h
    · split
      · exact h
      · dsimp only
        split
        · exact h
        · rename_i hmint
          simp only [mintSession, ok_iff] at hmint
          obtain ⟨_, -, _, -, _, hlt, -⟩ := hmint
          exact absurd h (not_le.2 hlt)
  | _ => exact .inr trivial

/-- A handshake presents a registered, unexpired grant that is bound to its peer. -/
structure Presents (state : AuthorityState) (handshake : Handshake)
    (grant : RegisteredLaunchGrant) : Prop where
  length : 32 ≤ handshake.rawGrantLength ∧ handshake.rawGrantLength ≤ 512
  registered : state.grants.find? (·.grantDigest = handshake.digest) = some grant
  bound : ∃ policy, state.policies grant.policyId = some policy ∧
    handshake.peer.Matches grant.peerUid grant.peerPid grant.peerStartIdentity ∧
    grant.issuedAtUnixMs ≤ handshake.observedAtUnixMs ∧
    handshake.observedAtUnixMs < grant.expiresAtUnixMs ∧
    state.Current policy grant.daemonGeneration grant.supervisorGeneration grant.principalId
      grant.policyRevision grant.revocationGeneration

theorem mintSession_full {policy : PolicyAuthorityState}
    (hpolicy : state.policies grant.policyId = some policy)
    (hbound : handshake.peer.Matches grant.peerUid grant.peerPid grant.peerStartIdentity ∧
      grant.issuedAtUnixMs ≤ handshake.observedAtUnixMs ∧
      handshake.observedAtUnixMs < grant.expiresAtUnixMs ∧
      state.Current policy grant.daemonGeneration grant.supervisorGeneration grant.principalId
        grant.policyRevision grant.revocationGeneration)
    (hfull : authority.maximumSessions ≤ state.sessions.length) :
    mintSession authority state handshake grant = .error .capacity := by
  simp only [mintSession, hpolicy, okOr, ensure]
  rw [if_neg (not_lt.2 hfull)]
  show (if _ then Except.ok () else _) >>= _ = _
  rw [if_pos hbound]
  rfl

/-- A full map refuses every grant, whatever sessions fill it. -/
theorem Presents.refused (h : Presents state handshake grant)
    (hfull : authority.maximumSessions ≤ state.sessions.length) :
    (consumeGrant authority state handshake).1 = .error .capacity := by
  obtain ⟨policy, hpolicy, hbound⟩ := h.bound
  have hmint : mintSession authority
      { state with grants := state.grants.filter (·.grantDigest ≠ handshake.digest) } handshake
      grant = .error .capacity := mintSession_full hpolicy hbound hfull
  have hlength : ¬(handshake.rawGrantLength < 32 ∨ 512 < handshake.rawGrantLength) := by
    have := h.length
    omega
  simp only [consumeGrant, if_neg hlength, h.registered, hmint]

/-- A full map refuses every valid grant of the current generations. -/
theorem register_full (hvalid : grant.Valid)
    (hgeneration : grant.daemonGeneration = state.daemonGeneration ∧
      grant.supervisorGeneration = state.supervisorGeneration)
    (hfull : authority.maximumGrants ≤ state.grants.length) :
    register authority state grant = .error .capacity := by
  simp only [register, ensure]
  rw [if_pos hvalid, if_pos hgeneration, if_neg (not_lt.2 hfull)]
  rfl

/-- **Capacity.** Below the bound on live sessions a handshake with a good grant is not refused for
capacity exactly if the map of sessions, dead ones included, has room, or the bound is reached by
live sessions; the same holds for registering a valid grant and the unexpired grants. A map full of
sessions refuses every handshake until a revocation or a new generation. -/
theorem admits_iff (authority : LaunchGrantAuthority) (state : AuthorityState) :
    (∀ handshake grant, Presents state handshake grant →
      state.nextSessionGeneration + 1 < 2 ^ 64 →
      ((state.sessions.countP (state.authorizable handshake.observedAtUnixMs) <
          authority.maximumSessions →
        (consumeGrant authority state handshake).1 ≠ .error .capacity) ↔
      state.sessions.length < authority.maximumSessions ∨ authority.maximumSessions ≤
        state.sessions.countP (state.authorizable handshake.observedAtUnixMs))) ∧
    (∀ (grant : RegisteredLaunchGrant) (now : Int), grant.Valid →
      (grant.daemonGeneration = state.daemonGeneration ∧
        grant.supervisorGeneration = state.supervisorGeneration) →
      ((state.grants.countP (now < ·.expiresAtUnixMs) < authority.maximumGrants →
        register authority state grant ≠ .error .capacity) ↔
      state.grants.length < authority.maximumGrants ∨
        authority.maximumGrants ≤ state.grants.countP (now < ·.expiresAtUnixMs))) ∧
    ∀ steps next, Run (Step authority) state steps next →
      authority.maximumSessions ≤ state.sessions.length →
      authority.maximumSessions ≤ next.sessions.length ∨ ∃ x ∈ steps, x.label.releases := by
  refine ⟨fun handshake grant hpresents hgeneration => ⟨fun h => ?_, fun h hlive hrefused => ?_⟩,
    fun grant now hvalid hgeneration => ⟨fun h => ?_, fun h hlive hrefused => ?_⟩,
    fun steps next run hfull => ?_⟩
  · by_contra hnot
    rw [not_or, not_lt, not_le] at hnot
    exact h hnot.2 (hpresents.refused hnot.1)
  · obtain hfull | hlast := consumeGrant_capacity hrefused
    · exact h.elim (absurd hfull <| not_le.2 ·) (absurd hlive <| not_lt.2 ·)
    · omega
  · by_contra hnot
    rw [not_or, not_lt, not_le] at hnot
    exact h hnot.2 (register_full hvalid hgeneration hnot.1)
  · exact h.elim (absurd (register_capacity hrefused) <| not_le.2 ·)
      (absurd hlive <| not_lt.2 ·)
  · exact run.release (fun _ _ _ step h => step.full h) hfull

def sampleGrant (seed : UInt8) (issuedAt expiresAt : Int) : RegisteredLaunchGrant :=
  ⟨['g'], Vector.replicate 32 seed, ['p'], 1, 1, Vector.replicate 16 1, [Vector.replicate 16 1],
    [.status], [['d']], 1, 1, 1, 1, issuedAt, expiresAt, 1, 1, 0, none, none⟩

def sampleHandshake (seed : UInt8) (now : Int) : Handshake :=
  ⟨32, Vector.replicate 32 seed, ⟨0, none, none⟩, [], 1, now, some (Vector.replicate 32 seed)⟩

def sampleState : AuthorityState := ⟨1, 1, 1, [], [], fun _ => none, fun _ => none⟩

def liveState : AuthorityState := List.foldl (Operation.after ⟨1, 2⟩) sampleState
  [.register (sampleGrant 1 10 100), .consumeGrant (sampleHandshake 1 50),
    .register (sampleGrant 2 60 300)]

/-- At 150 the only session has expired, but the map has room for another; at 400 the only grant
has expired, but the map has room for another. -/
theorem admits_liveState : liveState.sessions.countP (liveState.authorizable 150) = 0 ∧
    (consumeGrant ⟨1, 2⟩ liveState (sampleHandshake 2 150)).1 ≠ .error .capacity ∧
    register ⟨2, 2⟩ liveState (sampleGrant 3 350 500) ≠ .error .capacity := by
  have hpresents : Presents liveState (sampleHandshake 2 150) (sampleGrant 2 60 300) :=
    ⟨by decide, rfl, ⟨1, 1⟩, rfl, by decide⟩
  refine ⟨rfl, ((admits_iff ⟨1, 2⟩ liveState).1 _ _ hpresents (by decide)).2 (.inl ?_) ?_,
    ((admits_iff ⟨2, 2⟩ liveState).2.1 _ 400 ?_ (by decide)).2 (.inl ?_) ?_⟩
  all_goals decide

/-- A session that expired at 100 holds the only place at 200, and a grant that expired at 300 the
only one at 400. -/
theorem expired_entries_refuse : ∃ steps state, Run (Step ⟨1, 1⟩) sampleState steps state ∧
    state.sessions.countP (state.authorizable 200) = 0 ∧
    (∀ token peer operation workspaceId session,
      authorize state token peer operation workspaceId 200 ≠ .ok session) ∧
    (consumeGrant ⟨1, 1⟩ state (sampleHandshake 2 200)).1 = .error .capacity ∧
    (consumeGrant ⟨1, 2⟩ state (sampleHandshake 2 200)).1.isOk ∧
    state.grants.countP (400 < ·.expiresAtUnixMs) = 0 ∧
    register ⟨1, 1⟩ state (sampleGrant 3 350 500) = .error .capacity ∧
    (register ⟨2, 1⟩ state (sampleGrant 3 350 500)).isOk := by
  refine ⟨_, _, .cons (l := .register (sampleGrant 1 10 100)) rfl <|
    .cons (l := .consumeGrant (sampleHandshake 1 50)) rfl <|
    .cons (l := .register (sampleGrant 2 150 300)) rfl (.nil _), rfl, ?_, rfl, rfl, rfl, rfl, rfl⟩
  intro token peer operation workspaceId session h
  obtain ⟨record, hmem, hlive⟩ := authorizable_of_authorize h
  exact List.countP_eq_zero.1 rfl record hmem hlive

/-! ## Where a session comes from -/

variable {next : AuthorityState} {operation : Operation} {record : SessionRecord}

/-- The successful operations that end a session. -/
def Operation.Ends (state next : AuthorityState) (record : SessionRecord) : Operation → Prop
  | .revokePrincipal principal generation =>
    Session.revokePrincipal state principal generation = .ok next ∧
      principal = record.session.principalId
  | .revokeLaunch grantId digest pid identity =>
    Session.revokeLaunch state grantId digest pid identity = .ok next ∧ grantId = record.grantId
  | .advanceGeneration daemon supervisor =>
    Session.advanceGeneration state daemon supervisor = .ok next
  | .register _ | .consumeGrant _ => False

/-- A handshake that mints a session for a registered grant: the session keeps within the grant. -/
structure Minted (authority : LaunchGrantAuthority) (state : AuthorityState) (handshake : Handshake)
    (grant : RegisteredLaunchGrant) (record : SessionRecord) : Prop where
  accepted : (consumeGrant authority state handshake).1 = .ok record.session
  registered : grant ∈ state.grants ∧ grant.grantDigest = handshake.digest
  bound : handshake.peer.Matches grant.peerUid grant.peerPid grant.peerStartIdentity
  timely : grant.issuedAtUnixMs ≤ handshake.observedAtUnixMs ∧
    handshake.observedAtUnixMs < grant.expiresAtUnixMs
  token : handshake.token = some record.session.token
  launch : record.grantId = grant.grantId
  peer : record.peerUid = handshake.peer.uid ∧ record.peerPid = handshake.peer.pid ∧
    record.peerStartIdentity = handshake.peer.startIdentity
  principal : record.session.principalId = grant.principalId
  workspaces : record.session.workspaceIds = grant.workspaceIds
  operations : record.session.operations = grant.operations
  expiry : record.session.expiresAtUnixMs = grant.expiresAtUnixMs
  chunk_le : record.session.maximumResourceChunkBytes ≤ grant.maximumResourceChunkBytes

/-- A handshake adds at most the session of one registered grant. -/
theorem minted_of_consumeGrant
    (h : record ∈ (consumeGrant authority state handshake).2.sessions) :
    record ∈ state.sessions ∨ ∃ grant, Minted authority state handshake grant record := by
  by_cases hlen : handshake.rawGrantLength < 32 ∨ 512 < handshake.rawGrantLength
  · rw [consumeGrant, if_pos hlen] at h
    exact .inl h
  rw [consumeGrant, if_neg hlen] at h
  cases hfind : state.grants.find? (·.grantDigest = handshake.digest) with
  | none =>
    rw [hfind] at h
    exact .inl h
  | some grant =>
    simp only [hfind] at h
    cases hmint : mintSession authority { state with
      grants := state.grants.filter (·.grantDigest ≠ handshake.digest) } handshake grant with
    | error =>
      rw [hmint] at h
      exact .inl h
    | ok session =>
      rw [hmint] at h
      obtain rfl | h := List.mem_cons.1 h
      · have hok : (consumeGrant authority state handshake).1 = .ok session := by
          rw [consumeGrant, if_neg hlen]
          simp only [hfind, hmint]
        simp only [mintSession, ok_iff] at hmint
        obtain ⟨_, -, _, ⟨hpeer, hissued, hexpires, -⟩, _, -, _, -, _, -, token, htok, _, -, rfl⟩ :=
          hmint
        refine .inr ⟨grant, hok, ⟨List.mem_of_find?_eq_some hfind, ?_⟩, hpeer, ⟨hissued, hexpires⟩,
          htok, rfl, ⟨rfl, rfl, rfl⟩, rfl, rfl, rfl, rfl, min_le_left _ _⟩
        simpa using List.find?_some hfind
      · exact .inl (List.mem_of_mem_filter h)

/-- An attempt that fails changes nothing; here one that succeeds only takes sessions away. -/
theorem mem_attempted {attempt : Except SessionAuthorityError AuthorityState} {P : Prop}
    (hdone : ∀ done, attempt = .ok done → record ∈ done.sessions → record ∈ state.sessions ∧ ¬P)
    (h : record ∈ (attempt.toOption.getD state).sessions) :
    ¬(attempt = .ok (attempt.toOption.getD state) ∧ P) ∧ record ∈ state.sessions := by
  cases attempt with
  | error => exact ⟨by simp, h⟩
  | ok done =>
    obtain ⟨hmem, hnot⟩ := hdone done rfl h
    exact ⟨fun hends => hnot hends.2, hmem⟩

/-- **Step lemma.** A session in the map has not been ended; it was there before, or a handshake has
just minted it. -/
theorem Step.origin (step : Step authority state operation next) (h : record ∈ next.sessions) :
    ¬operation.Ends state next record ∧ (record ∈ state.sessions ∨
      ∃ handshake grant, operation = .consumeGrant handshake ∧
        Minted authority state handshake grant record) := by
  obtain rfl : next = _ := step
  cases operation with
  | consumeGrant handshake =>
    refine ⟨id, ?_⟩
    obtain h | ⟨grant, hmint⟩ := minted_of_consumeGrant h
    · exact .inl h
    · exact .inr ⟨handshake, grant, rfl, hmint⟩
  | register =>
    refine ⟨id, .inl (mem_attempted (P := False) (fun done hdone hmem => ?_) h).2⟩
    simp only [register, ok_iff] at hdone
    obtain ⟨_, -, _, -, _, -, _, -, _, -, _, -, rfl⟩ := hdone
    exact ⟨hmem, id⟩
  | revokePrincipal =>
    refine (mem_attempted (fun done hdone hmem => ?_) h).imp_right .inl
    simp only [revokePrincipal, ok_iff] at hdone
    obtain ⟨_, -, rfl⟩ := hdone
    obtain ⟨hmem, hkept⟩ := List.mem_filter.1 hmem
    exact ⟨hmem, fun heq => by simp [heq] at hkept⟩
  | revokeLaunch =>
    refine (mem_attempted (fun done hdone hmem => ?_) h).imp_right .inl
    simp only [revokeLaunch, ok_iff] at hdone
    obtain ⟨_, -, _, ⟨-, hown⟩, _, -, rfl⟩ := hdone
    obtain ⟨hmem, hkept⟩ := List.mem_filter.1 hmem
    -- a launch is revoked only if all sessions under its name are its own
    refine ⟨hmem, fun heq => ?_⟩
    simp [hown record hmem heq.symm] at hkept
  | advanceGeneration =>
    refine (mem_attempted (P := True) (fun done hdone hmem => ?_) h).imp
      (fun hends hdone => hends ⟨hdone, trivial⟩) .inl
    simp only [advanceGeneration, ok_iff] at hdone
    obtain ⟨_, -, rfl⟩ := hdone
    cases hmem

/-- **Authorized sessions.** In every run from an authority without sessions, whoever is authorized
uses a session that an earlier handshake minted for a grant registered then: the use keeps within
the grant, the peer is the one of the handshake, and nothing has ended the session since. -/
theorem authorize_since_handshake (authority : LaunchGrantAuthority) {start : AuthorityState}
    {steps : List (Transition AuthorityState Operation)}
    (run : Run (Step authority) start steps state)
    (hstart : start.sessions = []) {token : Digest} {peer : Peer} {use : SessionOperation}
    {workspaceId : Option (Vector UInt8 16)} {now : Int} {session : AuthorizedSession}
    (h : authorize state token peer use workspaceId now = .ok session) :
    ∃ past x future handshake grant record, steps = past ++ x :: future ∧
      x.label = .consumeGrant handshake ∧ Minted authority x.before handshake grant record ∧
      record.session = session ∧ handshake.token = some token ∧
      peer.Matches handshake.peer.uid handshake.peer.pid handshake.peer.startIdentity ∧
      use ∈ grant.operations ∧ workspaceId.all (· ∈ grant.workspaceIds) ∧
      now < grant.expiresAtUnixMs ∧ ∀ y ∈ future, ¬y.label.Ends y.before y.after record := by
  simp only [authorize, ok_iff] at h
  obtain ⟨record, hfind, policy, -, _, ⟨hpeer, hnow, -⟩, _, ⟨huse, hws⟩, rfl⟩ := h
  have hmem := List.mem_of_find?_eq_some hfind
  obtain ⟨past, x, future, hsteps, ⟨handshake, grant, hx, hmint⟩, hkept⟩ | ⟨hnone, -⟩ := run.since
    (P := fun s => record ∈ s.sessions)
    (Q := fun x => ∃ handshake grant, x.label = .consumeGrant handshake ∧
      Minted authority x.before handshake grant record)
    (fun _ _ _ step h => (step.origin h).2) hmem
  · refine ⟨past, x, future, handshake, grant, record, hsteps, hx, hmint, rfl, ?_, ?_,
      hmint.operations ▸ huse, hmint.workspaces ▸ hws, hmint.expiry ▸ hnow, fun y hy hends => ?_⟩
    · rw [hmint.token]
      simpa using List.find?_some hfind
    · rwa [hmint.peer.1, hmint.peer.2.1, hmint.peer.2.2] at hpeer
    · obtain ⟨_, _, -, -, step, -⟩ := run.split_of_mem (x := y) (by simp [hsteps, hy])
      exact (step.origin (hkept y (List.mem_cons_of_mem _ hy))).1 hends
  · simp [hstart] at hnone

theorem authorize_liveState : ∃ steps session, Run (Step ⟨1, 2⟩) sampleState steps liveState ∧
    authorize liveState (Vector.replicate 32 1) ⟨0, none, none⟩ .status none 70 = .ok session ∧
    ∃ x ∈ steps, ∃ handshake, x.label = .consumeGrant handshake := by
  have run : Run (Step ⟨1, 2⟩) sampleState _ liveState :=
    .cons (l := .register (sampleGrant 1 10 100)) rfl <|
    .cons (l := .consumeGrant (sampleHandshake 1 50)) rfl <|
    .cons (l := .register (sampleGrant 2 60 300)) rfl (.nil _)
  have h : authorize liveState (Vector.replicate 32 1) ⟨0, none, none⟩ .status none 70 =
    .ok _ := rfl
  obtain ⟨_, x, _, handshake, _, _, hsteps, hx, -⟩ := authorize_since_handshake ⟨1, 2⟩ run rfl h
  exact ⟨_, _, run, h, x, by simp [hsteps], handshake, hx⟩

end CodeFabric.Session
