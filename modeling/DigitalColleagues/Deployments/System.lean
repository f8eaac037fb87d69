import DigitalColleagues.Deployments.Services

/-!
# Runs of a host

Any number of Admins of any number of tenants on one host, as an interleaving of
the calls of the deployment services with the governance, the builder and the
creation of the initial colleague. What a call read it may have read at any
earlier time.

## Main definitions

- `InitialColleagueService.create` — the creation of the initial colleague
- `HostAction`, `HostState.exec` — the transactions
- `host` — the system
-/

namespace DigitalColleagues

-- ════════════════════════════════════════════════════════════════════════
-- The initial colleague
-- ════════════════════════════════════════════════════════════════════════

namespace InitialColleagueService

variable (ports : HostPorts) (ctx : CallContext) (request : InitialColleagueRequest)

def colleagueId : StableId :=
  ports.derive "colleague" [ctx.actor.principalId.val, request.idempotencyKey.val]

/-- What `create` passes to the store. -/
def command : Outcome InitialColleagueCommand := do
  let colleagueId := colleagueId ports ctx request
  let profile ← Profile.make (ports.derive "profile" [colleagueId.val])
    { displayName := request.displayName
      description := request.roleDescription
      presentation :=
        { entries :=
            [("authority_source", .bool false), ("working_style", .str request.workingStyle)]
          sorted := show List.Pairwise (· < ·) ["authority_source", "working_style"] by decide } }
    1 ctx.actor ctx.now
  let mandate ← request.mandate ports.derive ctx.actor ctx.now
  pure
    { tenantId := ctx.tenantId
      colleagueId := colleagueId
      profile := profile
      mandate := mandate
      runtimePrincipals :=
        [.model (ports.derive "model" [colleagueId.val]),
          .service (ports.derive "service" [colleagueId.val])]
      actor := ctx.actor
      correlationId := ports.derive "correlation" [colleagueId.val, "initial"]
      occurredAt := ctx.now }

/-- `create`; the store repeats the check of the role. -/
def create (s : HostTables) : Outcome HostTables := do
  require (ctx.session.activeColleagueId = none)
    (.conflict "P4 supports only the initial colleague creation flow")
  let cmd ← command ports ctx request
  let (store, deployments) ← s.deployments.createInitialColleague (s.tenants ctx.tenantId) cmd
  pure { s.withStore ctx.tenantId store with deployments := deployments }

end InitialColleagueService

-- ════════════════════════════════════════════════════════════════════════
-- State and actions
-- ════════════════════════════════════════════════════════════════════════

/-- The tables of a host, the tables it had before, and what the builders of each
    colleague of each tenant read so far. -/
structure HostState where
  tables : HostTables
  past : List HostTables
  reads : StableId → StableId → ConfigurationReads

inductive HostAction
  | tenant (tenantId : StableId) (action : TenantAction)
  | read (tenantId colleagueId : StableId) (read : ConfigurationRead)
  | builder (tenantId colleagueId : StableId) (action : BuilderAction)
  | confirmDraft (tenantId colleagueId : StableId) (cmd : ConfirmDraftCommand)
  | createInitialColleague (ctx : CallContext) (request : InitialColleagueRequest)
  | call (ctx : CallContext) (call : Call) (looks : List ℕ)

-- ════════════════════════════════════════════════════════════════════════
-- Transactions
-- ════════════════════════════════════════════════════════════════════════

namespace HostTables

/-- The draft that a change proposal of a namespace of a tenant is about. -/
def findDraft (s : HostTables) (tenantId : StableId) :
    Namespace → StableId → Option ColleagueDraft
  | .colleague colleagueId, draftId => (s.configuration tenantId colleagueId).drafts.find? draftId
  | _, _ => none

/-- The host with other governance tables of a tenant. -/
def withTenant (s : HostTables) (tenantId : StableId) (tenant : TenantTables) : HostTables :=
  s.withStore tenantId { s.tenants tenantId with tenant := tenant }

/-- The host with another configuration of a colleague. -/
def withConfiguration (s : HostTables) (tenantId colleagueId : StableId)
    (tables : BuilderTables) : HostTables :=
  s.withStore tenantId ((s.tenants tenantId).writeConfiguration colleagueId tables)

end HostTables

namespace HostState

def initial : HostState := ⟨.empty, [], fun _ _ => .empty⟩

/-- The next tables; those before become past. -/
def advance (s : HostState) (tables : HostTables) : HostState :=
  { s with tables := tables, past := s.past ++ [s.tables] }

/-- The tables that the transactions of a call met: earlier ones where an index says
    so, and the present ones otherwise. -/
def look (s : HostState) (looks : List ℕ) (i : ℕ) : HostTables :=
  ((looks[i]?).bind fun n => s.past[n]?).getD s.tables

def exec (ports : HostPorts) (s : HostState) : HostAction → Outcome HostState
  | .tenant tenantId action => do
    let tenant ← (s.tables.tenant tenantId).exec ports.governance (s.tables.findDraft tenantId)
      action
    pure (s.advance (s.tables.withTenant tenantId tenant))
  | .read tenantId colleagueId read => do
    let reads ← (s.reads tenantId colleagueId).exec (s.tables.configuration tenantId colleagueId)
      read
    pure { s with
      reads := Function.update s.reads tenantId
        (Function.update (s.reads tenantId) colleagueId reads) }
  | .builder tenantId colleagueId action => do
    let tables ← (s.tables.configuration tenantId colleagueId).exec ports.governance
      (s.tables.tenant tenantId) (s.reads tenantId colleagueId) colleagueId action
    pure (s.advance (s.tables.withConfiguration tenantId colleagueId tables))
  | .confirmDraft tenantId colleagueId cmd => do
    let (_, tenant, tables) ← DigitalColleagues.confirmDraft (s.tables.tenant tenantId)
      (s.tables.configuration tenantId colleagueId) colleagueId cmd
    pure (s.advance
      ((s.tables.withTenant tenantId tenant).withConfiguration tenantId colleagueId tables))
  | .createInitialColleague ctx request => do
    let tables ← InitialColleagueService.create ports ctx request s.tables
    pure (s.advance tables)
  | .call ctx call looks => do
    let (_, tables) ← call.perform ports ctx (s.look looks) s.tables
    pure (s.advance tables)

end HostState

/-- A host with its tenants. -/
def host (ports : HostPorts) : TransitionSystem HostState HostAction where
  init s := s = .initial
  step s a t := s.exec ports a = .ok t

-- ════════════════════════════════════════════════════════════════════════
-- Concrete runs
-- ════════════════════════════════════════════════════════════════════════

theorem exists_host_path (ports : HostPorts) (as : List (HostState → HostAction))
    (p : List (Transition HostState HostAction) → HostState → Bool)
    (h : TransitionSystem.runsTo (HostState.exec ports) .initial as p = true) :
    ∃ tr s, (host ports).Path .initial tr s ∧ p tr s = true :=
  TransitionSystem.exists_path_of_runsTo (fun _ _ _ hs => hs) h

/-- An identifier that spells out a text. -/
def sampleId (text : String) : StableId :=
  let spelled := String.ofList (text.toList.map fun c => if isIdPart c then c else '-')
  if h : isStableId spelled = true then ⟨spelled, h⟩ else stableId "unnamed"

def digestOf (n : ℕ) : Digest := Fin.ofNat (2 ^ 256) n

def samplePackage : AgentPackage :=
  { legacyPackage with
    packageId := stableId "package-1"
    displayEnUs := ⟨"Assistant", "Answers."⟩
    requestedCapabilities := ["propose_reference_message"]
    contentDigest := 1 }

/-- Ports for concrete runs: two archives, and digests that tell the requests of a
    run apart. -/
def sampleHostPorts : HostPorts where
  derive kind parts := sampleId ("-".intercalate (kind :: parts))
  packageDigest package := if package = legacyPackage then legacyPackageDigest else 7
  auditId := sampleId
  requestDigest
    | .register _ packageDigest _ _ _ => packageDigest
    | .package action _ revision => digestOf (revision * 4 + match action with
      | .trust => 1
      | .revoke => 2
      | .install => 3)
    | .createDraft _ _ _ _ _ _ _ _ => 101
    | .rebinding _ _ _ revision => digestOf (200 + revision)
    | .draftStep action _ revision _ => digestOf (revision * 2 + match action with
      | .review => 300
      | .confirm => 301)
    | .transition target revision _ => digestOf (400 + revision * 16 + target.length)
  canonicalDigest
    | .create _ _ _ _ _ _ => 11
    | .rebinding _ _ _ _ => 12
  bytesDigest bytes := digestOf bytes.length
  unpack bytes := .ok (if bytes = [0] then legacyPackage else samplePackage)
  verify _ _ _ _ := .error (.validation "no attestation is verified here")
  governance := { samplePorts with policyId := fun id => sampleId ("policy-" ++ id.val) }

/-- The first Admin of the sample tenant at a time. -/
def sampleCaller (now : Instant) : CallContext where
  tenantId := sampleTenant
  session := sessionOf (sampleSession (stableId "session-1") 1) (.human firstAdmin .tenantAdmin)
  now := now

theorem sampleHostBootstrap_expires : (0 : Instant) < 100 := by decide

/-- The first Admin of the sample tenant, from the bootstrap. -/
def sampleHostBootstrap : List (HostState → HostAction) :=
  [fun _ => .tenant sampleTenant (.createBootstrap
      { credentialId := TenantTables.bootstrapInitial
        tokenDigest := 1
        issuedAt := 0
        expiresAt := 100
        retrievedAt := none
        consumedAt := none
        revision := 1
        expires := sampleHostBootstrap_expires }),
    fun _ => .tenant sampleTenant (.claimBootstrapRetrieval 1 10),
    fun _ => .tenant sampleTenant
      (.consumeBootstrap 1 firstAdmin (sampleSession (stableId "session-1") 1) 20)]

def sampleCall (now : Instant) (call : Call) : HostState → HostAction :=
  fun _ => .call (sampleCaller now) call []

/-- The registration of one of the two archives. -/
def sampleRegistration (archive : List UInt8) : PackageRegistrationRequest where
  archive := archive
  source := .localFile
  expectedArchiveDigest := digestOf archive.length
  attestationBundle := none
  githubPolicy := none
  bundle_supplied := by decide
  policy_supplied := by decide

def sampleVersion : PackageVersion := ⟨stableId "package-1", "1.0.0", 7⟩

/-- A package that an Admin registers, trusts and installs. -/
def sampleInstalled (archive : List UInt8) (version : PackageVersion) (now : Instant)
    (key : String) : List (HostState → HostAction) :=
  [sampleCall now (.register (sampleRegistration archive) (sampleId key)),
    sampleCall (now + 1) (.package .trust version 1 (sampleId key)),
    sampleCall (now + 2) (.package .install version 2 (sampleId key))]

def sampleDraftId : StableId := samplePackageRequest.draftId sampleHostPorts

/-- The review and the confirmation of a new draft. -/
def sampleConfirmation (draftId : StableId) (canonicalDigest : Digest) (now : Instant)
    (key : String) : List (HostState → HostAction) :=
  [sampleCall now (.review (stableId "deployment-1") draftId ⟨1, canonicalDigest, sampleId key⟩),
    sampleCall (now + 1)
      (.confirm (stableId "deployment-1") draftId ⟨2, canonicalDigest, sampleId key⟩)]

/-- A deployment of an installed package, confirmed at time 62. -/
def sampleDeployed : List (HostState → HostAction) :=
  sampleHostBootstrap ++ sampleInstalled [1, 1] sampleVersion 30 "key-1" ++
    [sampleCall 60 (.createDraft samplePackageRequest)] ++
    sampleConfirmation sampleDraftId 11 61 "key-1"

def sampleTransition (now : Instant) (target : String) (revision : ℕ)
    (packageDigest : Digest) (key : String) : HostState → HostAction :=
  sampleCall now (.transition (stableId "deployment-1")
    ⟨target, revision, packageDigest, sampleId key⟩)

def sampleRebindingId (key : String) : StableId :=
  P11DeploymentService.rebindingDraftId sampleHostPorts (stableId "deployment-1") .upgrade
    (sampleId key)

/-- An upgrade of the deployment, reviewed and confirmed. -/
def sampleUpgrade (version : PackageVersion) (revision : ℕ) (now : Instant) (key : String) :
    List (HostState → HostAction) :=
  sampleCall now (.rebindingDraft (stableId "deployment-1") ⟨version, revision, sampleId key⟩
    .upgrade) :: sampleConfirmation (sampleRebindingId key) 12 (now + 1) key

def sampleInitialRequest : InitialColleagueRequest where
  displayName := "Helper"
  roleDescription := "Helps."
  serviceRelationship := "Serves the tenant."
  mission := "Help."
  timezone := "UTC"
  workingContext := "Office."
  workingHours := "Always."
  workingStyle := "Calm."
  responsibilities := ["Help."]
  capabilities := ["Answer."]
  constraints := ["Stay polite."]
  effectKind := .referenceMessage
  destinationKind := stableId "reference"
  action := stableId "propose"
  effectConstraints := .empty
  idempotencyKey := stableId "key-1"

def sampleInitialColleague (now : Instant) : HostState → HostAction :=
  fun _ => .createInitialColleague (sampleCaller now) sampleInitialRequest

end DigitalColleagues
