import DepaKms.ServicePolicies
import DepaKms.AuthenticatedCallers

set_option autoImplicit false

/-!
# Who changes a policy

With an access list, every change of a policy in a running service goes back to a signer to
whom the table of roles gives the right to append.
-/
namespace DepaKms

variable {h : Host} {t : Moment} {kv : Kv} {request : Request} {caller : Caller}

/-- The role table lets the signer append to the ledger. -/
def MayAppend (kv : Kv) (caller : Caller) : Prop :=
  ∃ id callerId roles administrator contributor, caller.id = some id ∧
    colonSeparated id = some callerId ∧ rolesOf kv callerId = .ok roles ∧
    includesRole roles "Administrator" = .ok administrator ∧
    includesRole roles "Contributor" = .ok contributor ∧ (administrator || contributor) = true

theorem MayAppend.congr {kv' : Kv} (hroles : kv'.userRoles = kv.userRoles)
    (hm : MayAppend kv' caller) : MayAppend kv caller := by
  unfold MayAppend rolesOf at hm ⊢
  rwa [hroles] at hm

theorem checkPermissions_sound (logContext : LogContext) (hcaller : request.caller = some caller) :
    Logged.Ensures (checkPermissions h kv logContext request) fun refused => refused = none →
      isAuthType caller "user_cose_sign1" = true ∧ MayAppend kv caller := by
  have hfailed (errorMessage : String) (code : ℕ) : Logged.Ensures
      (do
        let failure ← ServiceResult.failed h.toEngine (.of errorMessage) code logContext []
        pure (some failure) : Handler (Option ProposalResponse))
      fun refused => refused = none →
        isAuthType caller "user_cose_sign1" = true ∧ MayAppend kv caller :=
    .skip fun _ => .pure fun hnone => by cases hnone
  refine .skip fun _ => .read fun found hfound => ?_
  cases hcaller.symm.trans (required_iff.mp hfound)
  refine .ite (fun hpolicy => ?_) fun _ => hfailed _ _
  refine .read fun id hid => ?_
  cases hcolon : colonSeparated id with
  | none => exact hfailed _ _
  | some callerId =>
    refine .skip fun _ => .read fun roles hroles => .read fun administrator ha =>
      .read fun contributor hc => .ite (fun hmay => .pure fun _ => ?_) fun _ => hfailed _ _
    exact ⟨hpolicy, id, callerId, roles, administrator, contributor, required_iff.mp hid, hcolon,
      hroles, ha, hc, hmay⟩

/-- A caller with several policies is not authenticated. -/
theorem policy_of_authenticated {logContext : LogContext} (hcaller : request.caller = some caller)
    {found : Option Caller} {identity : ServiceResult JsValue}
    (hi : (AuthenticationService.isAuthenticated h kv logContext request).result =
      .ok (found, identity)) (hok : identity.isFailure = false)
    (htype : isAuthType caller "user_cose_sign1" = true) :
    caller.policy = .one "user_cose_sign1" := by
  unfold isAuthType at htype
  cases hpolicy : caller.policy with
  | one policy =>
    rw [hpolicy] at htype
    rw [beq_iff_eq.mp htype]
  | all policies =>
    have hunknown : (AuthenticationService.validate h kv
        (AuthenticationService.logContext logContext) request caller).result =
        .error (cannotRead "validate" "undefined") :=
      validate_unknown fun policy _ he => by cases hpolicy.symm.trans he
    obtain ⟨c, r, hr, hfails⟩ := isAuthenticated_thrown hcaller hunknown
    cases hi.symm.trans hr
    rw [hfails] at hok
    cases hok

/-- The request comes from a signer who may append, and its content asks for an edit of the map. -/
structure Authorises (h : Host) (kv : Kv) (request : Request) (m : PolicyMap) (caller : Caller)
    (actions : List ProposedAction) : Prop where
  signer : request.caller = some caller
  signed : caller.policy = .one "user_cose_sign1"
  mayAppend : MayAppend kv caller
  asks : requestActions h request = some actions
  edits : editsOf m actions ≠ []

theorem userRoles_of_service (h : Host) (kv : Kv) (xs : List Transaction) :
    (serviceAfter h kv xs).userRoles = kv.userRoles := by
  obtain ⟨l, -, hr, -⟩ := represents_service h kv xs
  have hsame := congrArg Kv.userRoles hr.identities
  exact hsame

theorem authorises_of_enacts (hacl : h.acl = true) {xs : List Transaction}
    {logContext : LogContext} (hmay : MayPropose h t (serviceAfter h kv xs) request logContext)
    {actions : List ProposedAction} {kv' : Kv}
    (he : Enacts h (serviceAfter h kv xs) request actions kv') {m : PolicyMap}
    (hne : kv'.policy m ≠ (serviceAfter h kv xs).policy m) :
    ∃ caller, Authorises h kv request m caller actions := by
  obtain ⟨serviceRequest, found, identity, hread, -, hi, hok, hpermitted⟩ := hmay
  obtain ⟨hactions, kv₁, proposals, hall, -, rfl⟩ := he
  obtain ⟨caller, content, body, as, hcaller, -⟩ := requestActions_eq_some_iff.mp hactions
  unfold checkAcl at hpermitted
  rw [if_pos hacl] at hpermitted
  obtain ⟨htype, happend⟩ := checkPermissions_sound _ hcaller none hpermitted rfl
  rw [result_new (settingsAre_of_service h kv xs)] at hread
  cases hread
  rw [result_isAuthenticated] at hi
  refine ⟨caller, hcaller, policy_of_authenticated hcaller hi hok htype,
    happend.congr (userRoles_of_service h kv xs), hactions, fun hnone => hne ?_⟩
  have hpolicy := (policy_of_actions hall m).1
  rw [hnone] at hpolicy
  rw [← run_nil (commit (m.change h.toEngine)) ((serviceAfter h kv xs).policy m), ← hpolicy]
  cases m <;> rfl

/-- Where there is an access list, a policy only ever changes by an accepted proposal of a signer
    who has a role that may append, and who signed for an edit of that policy. -/
theorem policy_change_is_authorised (h : Host) (kv : Kv) (xs later : List Transaction)
    (m : PolicyMap) (hacl : h.acl = true)
    (hne : (serviceAfter h kv (xs ++ later)).policy m ≠ (serviceAfter h kv xs).policy m) :
    ∃ before x after caller actions, later = before ++ x :: after ∧
      x.operation = .postProposals ∧
      (serve h (serviceAfter h kv (xs ++ before)) x).isSome = true ∧
      Authorises h kv x.request m caller actions := by
  rw [serviceAfter_append] at hne
  obtain ⟨before, x, after, kv', rfl, hs, hchange⟩ :=
    exists_change (serve h) (fun kv => kv.policy m) hne
  rw [← serviceAfter_append] at hs hchange
  rcases serve_kept hs with ⟨-, -, hsame⟩ | ⟨hpost, logContext, actions, kv₁, hmay, henacts, rfl⟩
  · exact absurd (hsame m) hchange
  · have hedited : kv₁.policy m ≠ (serviceAfter h kv (xs ++ before)).policy m := by
      intro hsame
      refine hchange (Eq.trans ?_ hsame)
      cases m <;> rfl
    obtain ⟨caller, ha⟩ := authorises_of_enacts hacl hmay henacts hedited
    exact ⟨before, x, after, caller, actions, rfl, hpost, by rw [hs]; rfl, ha⟩

def guardedHost : Host := { sampleHost with acl := true }

/-- The signer of the sample proposals is a contributor. -/
def contributorKv : Kv :=
  { Kv.empty with
    userRoles := AList.singleton "\"AB:12\"" (.json (.arr [.str "Contributor"])) }

def contribution : Transaction := ⟨.postProposals, sampleMoment 0, (samplePost 1).request⟩

theorem sample_change_authorised :
    ∃ before x after caller actions, [contribution] = before ++ x :: after ∧
      x.operation = .postProposals ∧
      (serve guardedHost (serviceAfter guardedHost contributorKv ([] ++ before)) x).isSome = true ∧
      Authorises guardedHost contributorKv x.request .keyRotation caller actions := by
  have hset : (((serviceAfter guardedHost contributorKv ([] ++ [contribution])).policy
      .keyRotation).lookup "key_rotation_policy").isSome = true := by decide +kernel
  have hunset : (((serviceAfter guardedHost contributorKv []).policy
      .keyRotation).lookup "key_rotation_policy").isSome = false := rfl
  refine policy_change_is_authorised guardedHost contributorKv [] [contribution] .keyRotation rfl
    fun hsame => ?_
  rw [hsame, hunset] at hset
  cases hset

end DepaKms
