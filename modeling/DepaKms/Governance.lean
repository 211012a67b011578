import DepaKms.TokenPolicy
import DepaKms.ReplayBar

set_option autoImplicit false

/-!
# Governance

A proposal that is accepted enacts all of its actions, in their order. Each action
edits one of five policy maps and reads no other one, so that the maps are components
of the store.
-/
namespace DepaKms

inductive PolicyMap
  | settings
  | keyRelease
  | gcpKeyRelease
  | keyRotation
  | jwtValidation
deriving DecidableEq, Repr

namespace PolicyMap

def all : List PolicyMap := [settings, keyRelease, gcpKeyRelease, keyRotation, jwtValidation]

/-- The name under which a proposal asks for an edit of the map. -/
def actionName : PolicyMap → String
  | settings => "set_settings_policy"
  | keyRelease => "set_key_release_policy"
  | gcpKeyRelease => "set_gcp_key_release_policy"
  | keyRotation => "set_key_rotation_policy"
  | jwtValidation => "set_jwt_validation_policy"

def action (E : Engine) : PolicyMap → Action
  | settings => set_settings_policy
  | keyRelease => set_key_release_policy E
  | gcpKeyRelease => set_gcp_key_release_policy E
  | keyRotation => set_key_rotation_policy
  | jwtValidation => set_jwt_validation_policy E

def ofName : JsValue → Option PolicyMap
  | .json (.str name) => all.find? fun m => m.actionName = name
  | _ => none

end PolicyMap

theorem lookup_map {α β : Type} (name : α → String) (f : α → β) (key : String) (xs : List α) :
    (xs.map fun x => (name x, f x)).lookup key = (xs.find? fun x => name x = key).map f := by
  induction xs with
  | nil => rfl
  | cons x xs ih =>
    rw [List.map_cons, List.lookup_cons, List.find?_cons]
    by_cases hkey : name x = key
    · simp [hkey]
    · rw [beq_false_of_ne (Ne.symm hkey), decide_eq_false hkey]
      exact ih

theorem findAction_eq (h : Host) (name : JsValue) :
    findAction h name = (PolicyMap.ofName name).map (PolicyMap.action h.toEngine) := by
  cases name with
  | undefined => rfl
  | builtin name => rfl
  | json v =>
    cases v with
    | str name =>
      exact lookup_map PolicyMap.actionName (PolicyMap.action h.toEngine) name PolicyMap.all
    | null | bool | num | arr | obj => rfl

namespace Kv

def policy (kv : Kv) : PolicyMap → KvMap String KvText
  | .settings => kv.settings
  | .keyRelease => kv.keyRelease
  | .gcpKeyRelease => kv.gcpKeyRelease
  | .keyRotation => kv.keyRotation
  | .jwtValidation => kv.jwtValidation

def setPolicy (kv : Kv) (m : PolicyMap) (map : KvMap String KvText) : Kv :=
  match m with
  | .settings => { kv with settings := map }
  | .keyRelease => { kv with keyRelease := map }
  | .gcpKeyRelease => { kv with gcpKeyRelease := map }
  | .keyRotation => { kv with keyRotation := map }
  | .jwtValidation => { kv with jwtValidation := map }

/-- What no action touches. -/
def withoutPolicies (kv : Kv) : Kv :=
  { kv with settings := ∅, keyRelease := ∅, gcpKeyRelease := ∅, keyRotation := ∅, jwtValidation := ∅ }

theorem policy_setPolicy (kv : Kv) (m m' : PolicyMap) (map : KvMap String KvText) :
    (kv.setPolicy m map).policy m' = if m' = m then map else kv.policy m' := by
  cases m <;> cases m' <;> rfl

@[simp] theorem withoutPolicies_setPolicy (kv : Kv) (m : PolicyMap) (map : KvMap String KvText) :
    (kv.setPolicy m map).withoutPolicies = kv.withoutPolicies := by
  cases m <;> rfl

end Kv

namespace PolicyMap

variable (E : Engine)

/-- The edit of the map on its own. -/
def change (m : PolicyMap) (map : KvMap String KvText) (args : JsValue) :
    Option (KvMap String KvText) :=
  ((m.action E).enact (Kv.empty.setPolicy m map) args).map fun kv => kv.policy m

theorem apply_own (m : PolicyMap) :
    ∃ edit : KvMap String KvText → JsValue → Except JsError (KvMap String KvText),
      ∀ kv args, (m.action E).apply kv args = (edit (kv.policy m) args).map (kv.setPolicy m) := by
  cases m with
  | settings =>
    refine ⟨fun map args => do
      let policy ← args.get "settings_policy"
      let text ← storedJson policy
      pure (map.insert "settings_policy" text), fun kv args => ?_⟩
    change (args.get _ >>= _) = (args.get _ >>= _).map _
    cases args.get "settings_policy" with
    | error e => rfl
    | ok policy =>
      change (storedJson policy >>= _) = (storedJson policy >>= _).map _
      cases storedJson policy <;> rfl
  | keyRelease =>
    refine ⟨SetKeyReleasePolicy.apply E releaseTexts, fun kv args => ?_⟩
    change (SetKeyReleasePolicy.apply E releaseTexts kv.keyRelease args >>= _) =
      (SetKeyReleasePolicy.apply E releaseTexts kv.keyRelease args).map _
    cases SetKeyReleasePolicy.apply E releaseTexts kv.keyRelease args <;> rfl
  | gcpKeyRelease =>
    refine ⟨SetKeyReleasePolicy.apply E gcpReleaseTexts, fun kv args => ?_⟩
    change (SetKeyReleasePolicy.apply E gcpReleaseTexts kv.gcpKeyRelease args >>= _) =
      (SetKeyReleasePolicy.apply E gcpReleaseTexts kv.gcpKeyRelease args).map _
    cases SetKeyReleasePolicy.apply E gcpReleaseTexts kv.gcpKeyRelease args <;> rfl
  | keyRotation =>
    refine ⟨fun map args => do
      let policy ← args.get "key_rotation_policy"
      let text ← storedJson policy
      pure (map.insert "key_rotation_policy" text), fun kv args => ?_⟩
    change (args.get _ >>= _) = (args.get _ >>= _).map _
    cases args.get "key_rotation_policy" with
    | error e => rfl
    | ok policy =>
      change (storedJson policy >>= _) = (storedJson policy >>= _).map _
      cases storedJson policy <;> rfl
  | jwtValidation =>
    refine ⟨fun map args => do
      let issuer ← args.get "issuer"
      let key ← bufferText issuer
      let policy ← args.get "validation_policy"
      let text ← storedJson policy
      pure ((map.erase key).insert key text), fun kv args => ?_⟩
    change (args.get _ >>= _) = (args.get _ >>= _).map _
    cases args.get "issuer" with
    | error e => rfl
    | ok issuer =>
      change (bufferText issuer >>= _) = (bufferText issuer >>= _).map _
      cases bufferText issuer with
      | error e => rfl
      | ok key =>
        change (args.get _ >>= _) = (args.get _ >>= _).map _
        cases args.get "validation_policy" with
        | error e => rfl
        | ok policy =>
          change (storedJson policy >>= _) = (storedJson policy >>= _).map _
          cases storedJson policy <;> rfl

/-- An action is the edit of its map. -/
theorem enact_eq (m : PolicyMap) (kv : Kv) (args : JsValue) :
    (m.action E).enact kv args = (m.change E (kv.policy m) args).map (kv.setPolicy m) := by
  obtain ⟨edit, hedit⟩ := apply_own E m
  unfold change Action.enact
  rw [hedit, hedit, Kv.policy_setPolicy, if_pos rfl]
  cases (m.action E).validate args with
  | error e => rfl
  | ok _ =>
    simp only [Logged.ok_bind]
    cases edit (kv.policy m) args with
    | error e => rfl
    | ok map =>
      simp only [Except.map, Option.map_some, Kv.policy_setPolicy, if_true]

theorem enact_view (m : PolicyMap) (kv : Kv) (args : JsValue) :
    ((m.action E).enact kv args).map (fun kv => kv.policy m) = m.change E (kv.policy m) args := by
  rw [enact_eq, Option.map_map]
  have hview : (fun kv : Kv => kv.policy m) ∘ kv.setPolicy m = id :=
    funext fun map => (kv.policy_setPolicy m m map).trans (if_pos rfl)
  rw [hview, Option.map_id, id_eq]

end PolicyMap

structure ProposedAction where
  map : PolicyMap
  args : JsValue

namespace ProposedAction

def of (proposalAction : Json) : Option ProposedAction := do
  let name ← (proposalAction.get "name").toOption
  let map ← PolicyMap.ofName name
  let args ← (proposalAction.get "args").toOption
  pure ⟨map, args⟩

variable (E : Engine)

def enact (kv : Kv) (a : ProposedAction) : Option Kv := (a.map.action E).enact kv a.args

def edit (m : PolicyMap) (map : KvMap String KvText) (a : ProposedAction) :
    Option (KvMap String KvText) := m.change E map a.args

theorem componentwise :
    Componentwise Kv.policy Kv.setPolicy ProposedAction.map (edit E) (enact E) where
  read_write kv m map m' := kv.policy_setPolicy m m' map
  perform_eq kv a := a.map.enact_eq E kv a.args

variable {E}

theorem withoutPolicies_enact {kv kv' : Kv} {a : ProposedAction} (he : enact E kv a = some kv') :
    kv'.withoutPolicies = kv.withoutPolicies := by
  rw [(componentwise E).perform_eq] at he
  obtain ⟨map, -, rfl⟩ := Option.map_eq_some_iff.mp he
  exact kv.withoutPolicies_setPolicy _ _

/-- What a proposal is shown to have been for the action: the digest of its arguments. -/
def proposalId (h : Host) (a : ProposedAction) : String :=
  ((digest h a.args).toOption).getD ""

theorem digest_eq (h : Host) {proposalAction : Json} {args : JsValue} (m : PolicyMap)
    (hargs : proposalAction.get "args" = .ok args)
    (hv : (m.action h.toEngine).validate args = .ok ()) :
    digest h args = .ok (proposalId h ⟨m, args⟩) := by
  cases args with
  | undefined => cases m <;> cases hv
  | builtin name => exact absurd hargs (not_builtin_of_get (v := .json proposalAction) (by decide))
  | json v => rfl

end ProposedAction

section Loop

variable {h : Host} {logContext : LogContext} {caller : Caller} {kv kv' : Kv}
  {results results' : List IProposalResult}

/-- One round of the loop that does not end it. -/
theorem applyActions_cons_iff {proposalAction : Json} {rest : List Json} :
    (applyActions h logContext caller kv results (proposalAction :: rest)).result =
        .ok (kv', .ok results') ↔
      ∃ a kv₁, ProposedAction.of proposalAction = some a ∧
        ProposedAction.enact h.toEngine kv a = some kv₁ ∧
        (applyActions h logContext caller kv₁ (results ++ [.new (a.proposalId h) caller.id])
          rest).result = .ok (kv', .ok results') := by
  rw [applyActions.eq_2, ProposedAction.of]
  simp only [Logged.result_bind, Logged.result_lift]
  cases hname : proposalAction.get "name" with
  | error e => simp [Except.toOption]
  | ok name =>
    simp only [Logged.ok_bind, findAction_eq, Except.toOption, Option.bind_eq_bind,
      Option.bind_some]
    cases PolicyMap.ofName name with
    | none => simp
    | some m =>
      simp only [Option.map_some, Option.bind_some, Logged.result_bind, Logged.result_lift]
      cases hargs : proposalAction.get "args" with
      | error e => simp
      | ok args =>
        simp only [Logged.ok_bind, Option.bind_some, Option.pure_def, Option.some.injEq]
        constructor
        · intro hr
          obtain ⟨_, hv, hr⟩ := Logged.bind_ok_iff.mp hr
          obtain ⟨kv₁, hk, hr⟩ := Logged.bind_ok_iff.mp hr
          rw [ProposedAction.digest_eq h m hargs hv, Logged.ok_bind] at hr
          exact ⟨_, kv₁, rfl, Action.enact_eq_some_iff.mpr ⟨hv, hk⟩, hr⟩
        · rintro ⟨_, kv₁, rfl, he, hr⟩
          obtain ⟨hv, hk⟩ := Action.enact_eq_some_iff.mp he
          rw [hv, Logged.ok_bind, hk, Logged.ok_bind, ProposedAction.digest_eq h m hargs hv,
            Logged.ok_bind]
          exact hr

/-- The loop over the actions of a document enacts all of them, or is left with a failure. -/
theorem applyActions_ok_iff {proposalActions : List Json} :
    (applyActions h logContext caller kv results proposalActions).result =
        .ok (kv', .ok results') ↔
      ∃ actions, proposalActions.mapM ProposedAction.of = some actions ∧
        actions.foldlM (ProposedAction.enact h.toEngine) kv = some kv' ∧
        results' = results ++ actions.map fun a => .new (a.proposalId h) caller.id := by
  induction proposalActions generalizing kv results with
  | nil =>
    change Except.ok (kv, Except.ok results) = _ ↔ _
    simp only [List.mapM_nil, Except.ok.injEq, Prod.mk.injEq]
    constructor
    · rintro ⟨rfl, rfl⟩
      exact ⟨[], rfl, rfl, by simp⟩
    · rintro ⟨_, hactions, hkv, rfl⟩
      cases hactions
      cases hkv
      exact ⟨rfl, by simp⟩
  | cons proposalAction rest ih =>
    rw [applyActions_cons_iff, List.mapM_cons]
    simp only [ih]
    constructor
    · rintro ⟨a, kv₁, ha, hkv₁, actions, hrest, hkv', rfl⟩
      refine ⟨a :: actions, by rw [ha, hrest]; rfl, ?_, by simp⟩
      rw [List.foldlM_cons, hkv₁]
      exact hkv'
    · rintro ⟨_, hactions, hkv', rfl⟩
      obtain ⟨a, ha, hactions⟩ := Option.bind_eq_some_iff.mp hactions
      obtain ⟨actions, hrest, hactions⟩ := Option.bind_eq_some_iff.mp hactions
      cases hactions
      rw [List.foldlM_cons] at hkv'
      obtain ⟨kv₁, hkv₁, hkv'⟩ := Option.bind_eq_some_iff.mp hkv'
      exact ⟨a, kv₁, ha, hkv₁, actions, hrest, hkv', by simp⟩

end Loop

/-- The actions that the signed content of a request asks for. -/
def requestActions (h : Host) (request : Request) : Option (List ProposedAction) := do
  let caller ← request.caller
  let content ← caller.coseContent
  let requestBody ← (h.bufToJsonCompatible content).toOption
  let proposalActions ← (proposalActions requestBody).toOption
  proposalActions.mapM ProposedAction.of

/-- The document is not older than those that are kept, and the documents kept after it. -/
structure Admits (h : Host) (kv : Kv) (document : Bytes) (proposals : KvMap Bytes Bytes) : Prop where
  admits : ∃ times created last,
    (createdTimeToProposalIdMap h (visited h kv) ∅).result = .ok times ∧
      (createdAt h document).result = .ok created ∧ mathMax h times.keys = .ok last ∧
      createdBefore h created last = .ok false ∧
      saveProposal h times created document kv.proposals = .ok proposals

/-- All actions of the request apply, one after the other, and its document is admitted. -/
def Enacts (h : Host) (kv : Kv) (request : Request) (actions : List ProposedAction) (kv' : Kv) :
    Prop :=
  requestActions h request = some actions ∧ ∃ kv₁ proposals,
    actions.foldlM (ProposedAction.enact h.toEngine) kv = some kv₁ ∧
      Admits h kv request.body proposals ∧ kv' = { kv₁ with proposals }

def resultsOf (h : Host) (request : Request) (actions : List ProposedAction) :
    List IProposalResult :=
  actions.map fun a => .new (a.proposalId h) (request.caller.bind Caller.id)

theorem toOption_eq_some_iff {ε α : Type} {x : Except ε α} {a : α} :
    x.toOption = some a ↔ x = .ok a := by
  cases x <;> simp [Except.toOption]

section Accept

variable {h : Host} {kv kv' : Kv} {request : Request}

theorem requestActions_eq_some_iff {actions : List ProposedAction} :
    requestActions h request = some actions ↔
      ∃ caller content body as, request.caller = some caller ∧ caller.coseContent = some content ∧
        h.bufToJsonCompatible content = .ok body ∧ proposalActions body = .ok as ∧
        as.mapM ProposedAction.of = some actions := by
  unfold requestActions
  simp only [Option.bind_eq_bind, Option.bind_eq_some_iff, toOption_eq_some_iff]
  constructor
  · rintro ⟨caller, hcaller, content, hcontent, body, hbody, as, has, hactions⟩
    exact ⟨caller, content, body, as, hcaller, hcontent, hbody, has, hactions⟩
  · rintro ⟨caller, content, body, as, hcaller, hcontent, hbody, has, hactions⟩
    exact ⟨caller, hcaller, content, hcontent, body, hbody, as, has, hactions⟩

theorem enacted_withoutPolicies {E : Engine} {kv kv' : Kv} {actions : List ProposedAction}
    (hall : actions.foldlM (ProposedAction.enact E) kv = some kv') :
    kv'.withoutPolicies = kv.withoutPolicies := by
  induction actions generalizing kv with
  | nil =>
    cases hall
    rfl
  | cons a actions ih =>
    rw [List.foldlM_cons] at hall
    obtain ⟨kv₁, he, hall⟩ := Option.bind_eq_some_iff.mp hall
    exact (ih hall).trans (ProposedAction.withoutPolicies_enact he)

theorem enacted_proposals {E : Engine} {kv kv' : Kv} {actions : List ProposedAction}
    (hall : actions.foldlM (ProposedAction.enact E) kv = some kv') :
    kv'.proposals = kv.proposals := by
  have hkept := congrArg Kv.proposals (enacted_withoutPolicies hall)
  exact hkept

theorem acceptProposal_ok_iff {logContext : LogContext} {response : ProposalResponse} :
    ((acceptProposal h logContext kv request).result = .ok (response, kv') ∧
        response.isFailure = false) ↔
      ∃ actions, Enacts h kv request actions kv' ∧ response =
        .success (resultsOf h request actions) (ServiceResult.withRequestId logContext []) := by
  unfold acceptProposal
  constructor
  · rintro ⟨hr, hok⟩
    rw [Logged.result_bind, Logged.result_lift] at hr
    obtain ⟨caller, hcaller, hr⟩ := Logged.bind_ok_iff.mp hr
    rw [Logged.result_bind, Logged.result_lift] at hr
    obtain ⟨content, hcontent, hr⟩ := Logged.bind_ok_iff.mp hr
    rw [Logged.result_bind, Logged.result_lift] at hr
    obtain ⟨body, hbody, hr⟩ := Logged.bind_ok_iff.mp hr
    rw [Logged.result_bind] at hr
    obtain ⟨times, htimes, hr⟩ := Logged.bind_ok_iff.mp hr
    rw [Logged.result_bind] at hr
    obtain ⟨created, hcreated, hr⟩ := Logged.bind_ok_iff.mp hr
    rw [Logged.result_bind, Logged.result_lift] at hr
    obtain ⟨last, hlast, hr⟩ := Logged.bind_ok_iff.mp hr
    rw [Logged.result_bind, Logged.result_lift] at hr
    obtain ⟨before, hbefore, hr⟩ := Logged.bind_ok_iff.mp hr
    cases before with
    | true =>
      rw [if_pos rfl, Logged.result_bind, Logged.result_lift] at hr
      obtain ⟨current, -, hr⟩ := Logged.bind_ok_iff.mp hr
      cases hr
      cases hok
    | false =>
      rw [if_neg (by simp), Logged.result_bind, Logged.result_lift] at hr
      obtain ⟨as, has, hr⟩ := Logged.bind_ok_iff.mp hr
      rw [Logged.result_bind] at hr
      obtain ⟨⟨kv₁, outcome⟩, houtcome, hr⟩ := Logged.bind_ok_iff.mp hr
      cases outcome with
      | error failure =>
        have hfailure := (applyActions_ensures logContext caller kv [] as _ houtcome).2 failure rfl
        cases hr
        rw [hfailure] at hok
        cases hok
      | ok results =>
        obtain ⟨actions, hactions, hkv₁, rfl⟩ := applyActions_ok_iff.mp houtcome
        rw [Logged.result_bind, Logged.result_lift] at hr
        obtain ⟨proposals, hsave, hr⟩ := Logged.bind_ok_iff.mp hr
        rw [enacted_proposals hkv₁] at hsave
        cases hr
        have hcaller := required_iff.mp hcaller
        refine ⟨actions, ⟨requestActions_eq_some_iff.mpr ⟨caller, content, body, as, hcaller,
          required_iff.mp hcontent, hbody, has, hactions⟩, kv₁, proposals, hkv₁,
          ⟨times, created, last, htimes, hcreated, hlast, hbefore, hsave⟩, rfl⟩, ?_⟩
        unfold resultsOf
        rw [hcaller]
        rfl
  · rintro ⟨actions, ⟨hactions, kv₁, proposals, hkv₁, hadmits, rfl⟩, rfl⟩
    obtain ⟨caller, content, body, as, hcaller, hcontent, hbody, has, hactions⟩ :=
      requestActions_eq_some_iff.mp hactions
    obtain ⟨times, created, last, htimes, hcreated, hlast, hbar, hsave⟩ := hadmits
    have houtcome : (applyActions h logContext caller kv [] as).result =
        .ok (kv₁, .ok ([] ++ actions.map fun a => .new (a.proposalId h) caller.id)) :=
      applyActions_ok_iff.mpr ⟨actions, hactions, hkv₁, rfl⟩
    rw [← enacted_proposals hkv₁] at hsave
    refine ⟨?_, rfl⟩
    rw [Logged.result_bind, Logged.result_lift, required_iff.mpr hcaller, Logged.ok_bind,
      Logged.result_bind, Logged.result_lift, required_iff.mpr hcontent, Logged.ok_bind,
      Logged.result_bind, Logged.result_lift, hbody, Logged.ok_bind, Logged.result_bind, htimes,
      Logged.ok_bind, Logged.result_bind, hcreated, Logged.ok_bind, Logged.result_bind,
      Logged.result_lift, hlast, Logged.ok_bind, Logged.result_bind, Logged.result_lift, hbar,
      Logged.ok_bind, if_neg (by simp), Logged.result_bind, Logged.result_lift, has, Logged.ok_bind, Logged.result_bind, houtcome, Logged.ok_bind,
      Logged.result_bind, Logged.result_lift, hsave, Logged.ok_bind]
    unfold resultsOf
    rw [hcaller]
    rfl

/-- The caller is authenticated, and may append to the ledger. -/
def MayPropose (h : Host) (t : Moment) (kv : Kv) (request : Request) (logContext : LogContext) :
    Prop :=
  ∃ serviceRequest caller identity,
    (ServiceRequest.new h t kv (LogContext.new.appendScope "proposals") request).result =
        .ok serviceRequest ∧
      serviceRequest.logContext = logContext ∧
      (serviceRequest.isAuthenticated h kv).result = .ok (caller, identity) ∧
      identity.isFailure = false ∧ (checkAcl h kv logContext request).result = .ok none

theorem submitProposal_ok_iff {logContext : LogContext} {response : ProposalResponse} :
    ((submitProposal h logContext kv request).result = .ok (response, kv') ∧
        response.isFailure = false) ↔
      (checkAcl h kv logContext request).result = .ok none ∧
        (acceptProposal h logContext kv request).result = .ok (response, kv') ∧
        response.isFailure = false := by
  unfold submitProposal
  rw [Logged.result_bind]
  cases hacl : (checkAcl h kv logContext request).result with
  | error e => simp
  | ok refused =>
    rw [Logged.ok_bind]
    cases refused with
    | none => simp
    | some failure =>
      have hfailure := checkAcl_ensures kv logContext request _ hacl failure rfl
      refine iff_of_false ?_ (by simp)
      rintro ⟨hr, hok⟩
      cases hr
      rw [hfailure] at hok
      cases hok

/-- A proposal is accepted just when its caller may propose and all of it can be enacted. -/
theorem postProposals_ok_iff {t : Moment} {response : ProposalResponse} :
    ((postProposals h t kv request).result = .ok (response, kv') ∧ response.isFailure = false) ↔
      ∃ logContext actions, MayPropose h t kv request logContext ∧
        Enacts h kv request actions kv' ∧ response =
          .success (resultsOf h request actions) (ServiceResult.withRequestId logContext []) := by
  have hsubmit (serviceRequest : ServiceRequest) :
      ((submitProposal h serviceRequest.logContext kv request).result = .ok (response, kv') ∧
          response.isFailure = false) ↔
        (checkAcl h kv serviceRequest.logContext request).result = .ok none ∧
          ∃ actions, Enacts h kv request actions kv' ∧ response = .success
            (resultsOf h request actions)
            (ServiceResult.withRequestId serviceRequest.logContext []) := by
    rw [submitProposal_ok_iff, acceptProposal_ok_iff]
  unfold postProposals
  rw [Logged.result_bind]
  constructor
  · rintro ⟨hr, hok⟩
    obtain ⟨serviceRequest, hnew, hr⟩ := Logged.bind_ok_iff.mp hr
    rw [Logged.result_bind] at hr
    obtain ⟨⟨caller, identity⟩, hidentity, hr⟩ := Logged.bind_ok_iff.mp hr
    cases identity with
    | failure error code headers =>
      cases hr
      cases hok
    | success body headers =>
      obtain ⟨hacl, actions, henacts, hresponse⟩ := (hsubmit serviceRequest).mp ⟨hr, hok⟩
      exact ⟨_, actions, ⟨serviceRequest, caller, _, hnew, rfl, hidentity, rfl, hacl⟩, henacts,
        hresponse⟩
    | pending headers =>
      obtain ⟨hacl, actions, henacts, hresponse⟩ := (hsubmit serviceRequest).mp ⟨hr, hok⟩
      exact ⟨_, actions, ⟨serviceRequest, caller, _, hnew, rfl, hidentity, rfl, hacl⟩, henacts,
        hresponse⟩
  · rintro ⟨_, actions, ⟨serviceRequest, caller, identity, hnew, rfl, hidentity, hok, hacl⟩,
      henacts, hresponse⟩
    have hserved := (hsubmit serviceRequest).mpr ⟨hacl, actions, henacts, hresponse⟩
    rw [hnew, Logged.ok_bind, Logged.result_bind, hidentity, Logged.ok_bind]
    cases identity with
    | failure error code headers => cases hok
    | success body headers => exact hserved
    | pending headers => exact hserved

theorem post_eq_some_iff {p : Post} :
    post h kv p = some kv' ↔ ∃ logContext actions kv₁,
      MayPropose h p.moment kv p.request logContext ∧ Enacts h kv p.request actions kv₁ ∧
        kv' = { kv₁ with version := kv.version + 1 } := by
  unfold post
  constructor
  · intro hp
    split at hp
    · rename_i response kv₁ hresult
      split_ifs at hp with hfail
      cases hp
      obtain ⟨logContext, actions, hmay, henacts, -⟩ :=
        postProposals_ok_iff.mp ⟨hresult, by simpa using hfail⟩
      exact ⟨logContext, actions, kv₁, hmay, henacts, rfl⟩
    · cases hp
  · rintro ⟨logContext, actions, kv₁, hmay, henacts, rfl⟩
    obtain ⟨hresult, -⟩ := postProposals_ok_iff.mpr ⟨logContext, actions, hmay, henacts, rfl⟩
    rw [hresult]
    rfl

end Accept

end DepaKms
