import DepaKms.Actions
import DepaKms.Cose
import DepaKms.ServiceRequest

set_option autoImplicit false

/-!
# The proposals endpoint

A proposal is a signed document. It is accepted on the spot, its actions are applied,
and the document is kept for a while, so that older ones are not accepted again.
-/
namespace DepaKms

def proposalsToKeep : ℕ := 5

structure IProposalResult where
  ballot_count : ℕ
  proposal_id : String
  proposer_id : Option String
  state : String

def IProposalResult.new (proposal_id : String) (proposer_id : Option String) : IProposalResult :=
  ⟨0, proposal_id, proposer_id, "Accepted"⟩

def IProposalResult.toJson (r : IProposalResult) : Json :=
  .obj ([("ballot_count", .num r.ballot_count), ("proposal_id", .str r.proposal_id)] ++
    (r.proposer_id.toList.map fun id => ("proposer_id", .str id)) ++
    [("state", .str r.state), ("votes", .obj [])])

instance : Serializable (List IProposalResult) :=
  ⟨fun results => .json (.arr (results.map IProposalResult.toJson))⟩

variable (h : Host)

def digest (jsonLike : JsValue) : Except JsError String := do
  let text ← storedJson jsonLike
  pure (hexString (h.sha256 (strToBuf (text.bufToStr h.toEngine))))

def isAuthType (identity : Caller) (auth_type : String) : Bool :=
  match identity.policy with
  | .one policy => policy == auth_type
  | .all policies => policies.contains auth_type

/-- `id.toUpperCase().match(/.{1,2}/g)?.join(":")`, for an id of hexadecimal digits. -/
def colonSeparated (id : String) : Option String :=
  if id = "" then none
  else some (String.intercalate ":" (pairs id.toUpper.toList))
where
  pairs : List Char → List String
    | a :: b :: cs => String.ofList [a, b] :: pairs cs
    | [a] => [String.ofList [a]]
    | [] => []

/-- `roles.includes(role)`; a text has that method too. -/
def includesRole (roles : Json) (role : String) : Except JsError Bool :=
  match roles with
  | .arr xs => .ok (Json.includes xs (.str role))
  | .str s => .ok (decide (role.toList <:+: s.toList))
  | .null => .error (cannotRead "includes" "null")
  | _ => .error notAFunction

def rolesOf (kv : Kv) (callerId : String) : Except JsError Json :=
  match kv.userRoles.lookup ("\"" ++ callerId ++ "\"") with
  | none => .ok (.arr [])
  | some (.json roles) => .ok roles
  | some (.raw _) => .error ⟨"Failed to parse JSON"⟩

abbrev ProposalResponse : Type := ServiceResult (List IProposalResult)

def checkPermissions (kv : Kv) (logContext : LogContext) (request : Request) :
    Handler (Option ProposalResponse) := do
  let failed (errorMessage : String) (code : ℕ) : Handler (Option ProposalResponse) := do
    let failure ← ServiceResult.failed h.toEngine (.of errorMessage) code logContext []
    pure (some failure)
  Logger.debug h.toEngine "Checking permissions of ACL identity" (some logContext) []
  let caller ← required "policy" request.caller
  if isAuthType caller "user_cose_sign1" then do
    let id ← required "toUpperCase" caller.id
    match colonSeparated id with
    | none => failed "Caller ID is undefined" 500
    | some callerId => do
      Logger.info h.toEngine s!"ACL identity: {Json.quote callerId}" (some logContext) []
      let roles ← rolesOf kv callerId
      let administrator ← includesRole roles "Administrator"
      let contributor ← includesRole roles "Contributor"
      if administrator || contributor then pure none
      else failed "Caller doesn't have the ledger/append permission" 401
  else failed "Unexpected member_cert auth on ACL" 500

def checkAcl (kv : Kv) (logContext : LogContext) (request : Request) :
    Handler (Option ProposalResponse) :=
  if h.acl then checkPermissions h kv logContext request else pure none

def iterate : JsValue → Except JsError (List Json)
  | .json (.arr xs) => .ok xs
  | .json (.str s) => .ok (s.toList.map fun c => .str (String.singleton c))
  | _ => .error ⟨"value is not iterable"⟩

def proposalActions (requestBody : Json) : Except JsError (List Json) :=
  if requestBody.truthy then do
    let actions ← requestBody.get "actions"
    if actions.truthy then iterate actions else pure []
  else pure []

def findAction (name : JsValue) : Option Action :=
  match name with
  | .json (.str name) => (actions h.toEngine).lookup name
  | _ => none

/-- The loop over the actions: the store as it leaves it, and the results or the failure. -/
def applyActions (logContext : LogContext) (caller : Caller) (kv : Kv)
    (proposalResults : List IProposalResult) :
    List Json → Handler (Kv × Except ProposalResponse (List IProposalResult))
  | [] => pure (kv, .ok proposalResults)
  | proposalAction :: rest => do
    let name ← proposalAction.get "name"
    match findAction h name with
    | none => do
      let failure ← ServiceResult.failed h.toEngine (.of "Proposal not found") 404 logContext []
      pure (kv, .error failure)
    | some action => do
      let args ← proposalAction.get "args"
      action.validate args
      let kv ← action.apply kv args
      let proposal_id ← digest h args
      applyActions logContext caller kv (proposalResults ++ [.new proposal_id caller.id]) rest

def visited (kv : Kv) : List (Bytes × Bytes) :=
  h.visitOrder (kv.proposals.entries.map fun e => (e.1, e.2))

/-- The documents' ids by creation time; of two with the same time, the later one visited. -/
def createdTimeToProposalIdMap :
    List (Bytes × Bytes) → KvMap CreatedAt Bytes → Handler (KvMap CreatedAt Bytes)
  | [], times => pure times
  | (proposalId, proposal) :: rest, times => do
    let created ← createdAt h proposal
    createdTimeToProposalIdMap rest (times.set (created.heldBy proposalId) proposalId)

def deleteProposals (times : KvMap CreatedAt Bytes) (proposals : KvMap Bytes Bytes) :
    List CreatedAt → KvMap Bytes Bytes
  | [] => proposals
  | created :: rest =>
    match times.lookup created with
    | some proposalId => deleteProposals times (proposals.erase proposalId) rest
    | none => deleteProposals times proposals rest

/-- Keeps the document, and forgets the oldest ones beyond the number to keep. -/
def saveProposal (times : KvMap CreatedAt Bytes) (created : CreatedAt) (document : Bytes)
    (proposals : KvMap Bytes Bytes) : Except JsError (KvMap Bytes Bytes) := do
  let proposalId := h.sha256 document
  let times := times.set created proposalId
  let sortedCreatedTimes ← sortTimes h times.keys
  pure (deleteProposals times (proposals.insert proposalId document)
    (sortedCreatedTimes.take (sortedCreatedTimes.length - proposalsToKeep)))

def acceptProposal (logContext : LogContext) (kv : Kv) (request : Request) :
    Handler (ProposalResponse × Kv) := do
  let caller ← required "cose" request.caller
  let content ← required "content" caller.coseContent
  let requestBody ← h.bufToJsonCompatible content
  let times ← createdTimeToProposalIdMap h (visited h kv) ∅
  let currentProposalCreatedAt ← createdAt h request.body
  let lastAcceptedProposalCreatedAt ← mathMax h times.keys
  if ← createdBefore h currentProposalCreatedAt lastAcceptedProposalCreatedAt then do
    let current ← currentProposalCreatedAt.render h.toEngine
    let last := lastAcceptedProposalCreatedAt.text h.toEngine
    let errorMessage := s!"Proposal created before ({current}) last accepted proposal ({last})"
    Logger.error h.toEngine errorMessage (some logContext) []
    let failure ← ServiceResult.failed h.toEngine (.of errorMessage) 400 logContext []
    pure (failure, kv)
  else do
    let proposalActions ← proposalActions requestBody
    match ← applyActions h logContext caller kv [] proposalActions with
    | (kv, .error failure) => pure (failure, kv)
    | (kv, .ok proposalResults) => do
      let proposals ← saveProposal h times currentProposalCreatedAt request.body kv.proposals
      let response ← ServiceResult.succeeded h.toEngine proposalResults logContext none
      pure (response, { kv with proposals })

/-- What is left once the caller is authenticated. -/
def submitProposal (logContext : LogContext) (kv : Kv) (request : Request) :
    Handler (ProposalResponse × Kv) := do
  match ← checkAcl h kv logContext request with
  | some failure => pure (failure, kv)
  | none => acceptProposal h logContext kv request

def postProposals (t : Moment) (kv : Kv) (request : Request) :
    Handler (ProposalResponse × Kv) := do
  let serviceRequest ← ServiceRequest.new h t kv (LogContext.new.appendScope "proposals") request
  let logContext := serviceRequest.logContext
  match ← serviceRequest.isAuthenticated h kv with
  | (_, .failure error code headers) => pure (.failure error code headers, kv)
  | _ => submitProposal h logContext kv request

instance : Serializable (List String) := ⟨fun xs => .json (.arr (xs.map .str))⟩

/-- The creation times by id. The map is keyed by buffers, no two of which are the same one. -/
def proposalTimes : List (Bytes × Bytes) → Handler (List (Bytes × CreatedAt))
  | [] => pure []
  | (proposalId, proposal) :: rest => do
    let created ← createdAt h proposal
    let times ← proposalTimes rest
    pure ((proposalId, created) :: times)

def getProposals (kv : Kv) : Handler (ServiceResult (List String)) := do
  let logContext := LogContext.new.appendScope "proposals"
  let createdTimes ← proposalTimes h (visited h kv)
  let sortedProposals ← sortByTime h Prod.snd createdTimes
  let proposals := sortedProposals.map fun e =>
    ((kv.proposals.lookup e.1).map hexString).getD ""
  ServiceResult.succeeded h.toEngine proposals logContext none

end DepaKms
