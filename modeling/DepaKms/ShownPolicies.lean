import DepaKms.PolicyGrowth
import DepaKms.ServicePolicies

set_option autoImplicit false

/-!
# What the service shows of its policies

Each of the three endpoints shows, to a caller that is authenticated, what the accepted
proposals say, and nothing else of the calls so far.
-/
namespace DepaKms

variable {h : Host} {t : Moment} {kv : Kv} {request : Request}

/-- The response to a caller that may be refused. -/
def shownTo {α : Type} (identity : ServiceResult JsValue) (response : ServiceResult α) :
    ServiceResult α :=
  match identity with
  | .failure error code headers => .failure error code headers
  | _ => response

/-- The endpoint answers with the response, but for callers that it refuses. -/
def Shows {α : Type} (h : Host) (t : Moment) (kv : Kv) (scope : String) (request : Request)
    (endpoint : Handler (ServiceResult α)) (response : LogContext → ServiceResult α) : Prop :=
  ∃ caller identity,
    ((received h t (LogContext.new.appendScope scope) request).isAuthenticated h kv).result =
        .ok (caller, identity) ∧
      endpoint.result = .ok (shownTo identity
        (response (received h t (LogContext.new.appendScope scope) request).logContext))

section Endpoint

variable {α : Type} [Serializable α] {settings : Json} (hs : SettingsAre kv settings)
  {scope : String} {read : LogContext → Handler α}
include hs

theorem showPolicy_shows (response : LogContext → ServiceResult α)
    (hread : ∀ logContext, (tryCatch
        (do
          let result ← read logContext
          ServiceResult.succeeded h.toEngine result logContext none)
        fun error : JsError =>
          ServiceResult.failed h.toEngine (.of error.message) 500 logContext [] :
        Handler (ServiceResult α)).result = .ok (response logContext)) :
    Shows h t kv scope request (showPolicy h t kv scope read request) response := by
  obtain ⟨⟨caller, identity⟩, hidentity⟩ := returns_isAuthenticated (h := h) kv
    (received h t (LogContext.new.appendScope scope) request)
  refine ⟨caller, identity, hidentity, ?_⟩
  unfold showPolicy
  rw [Logged.result_bind, result_new hs, Logged.ok_bind, Logged.result_bind, hidentity,
    Logged.ok_bind]
  cases identity with
  | failure error code headers => rfl
  | success body headers => exact hread _
  | pending headers => exact hread _

theorem shows_value {a : α} (hread : ∀ logContext, (read logContext).result = .ok a) :
    Shows h t kv scope request (showPolicy h t kv scope read request)
      fun logContext => .success a (ServiceResult.withRequestId logContext []) := by
  refine showPolicy_shows hs _ fun logContext => ?_
  rw [Logged.result_tryCatch, Logged.result_bind, hread]
  rfl

theorem shows_error {message : LogContext → String}
    (hread : ∀ logContext, (read logContext).result = .error ⟨message logContext⟩) :
    Shows h t kv scope request (showPolicy h t kv scope read request) fun logContext => .failure
      (.of s!"{logContext.toString} {message logContext}") 500
      (ServiceResult.withRequestId logContext []) := by
  refine showPolicy_shows hs _ fun logContext => ?_
  rw [Logged.result_tryCatch, Logged.result_bind, hread]
  rfl

end Endpoint

theorem tokens_of_service (h : Host) (kv : Kv) (xs : List Transaction) (iss : String) :
    (serviceAfter h kv xs).jwtValidation.lookup iss =
      (lastPolicy (acceptedEdits h kv xs .jwtValidation) iss).map KvText.json := by
  obtain ⟨hpolicy, haccepted⟩ := policy_enacted (h := h) .jwtValidation Kv.empty rfl kv xs
  have hempty : Kv.empty.jwtValidation = ∅ := rfl
  have hstored := (stored_is_last h.toEngine hempty (acceptedEdits h kv xs .jwtValidation)).1 iss
  rw [← accepted_eq_passing h.toEngine Kv.empty] at hstored
  change accepted (set_jwt_validation_policy h.toEngine).enact _ _ = _ at haccepted
  rw [haccepted] at hstored
  exact (congrArg (AList.lookup iss) hpolicy).trans hstored

def KvText.parsed : KvText → Option Json
  | json v => some v
  | raw _ => none

/-- One round of the loop over the issuers; `__proto__` is no property of its own. -/
def collect (fields : List (String × Json)) (e : Sigma fun _ : String => KvText) :
    List (String × Json) :=
  match e.2.parsed with
  | some policy => if e.1 = "__proto__" then fields else assign fields e.1 policy
  | none => fields

theorem result_collectPolicies (E : Engine) (logContext : LogContext)
    (entries : List (Sigma fun _ : String => KvText)) (fields : List (String × Json)) :
    (collectPolicies E logContext (.obj fields) entries).result =
      .ok (.obj (entries.foldl collect fields)) := by
  induction entries generalizing fields with
  | nil => rfl
  | cons e entries ih =>
    obtain ⟨issuer, text⟩ := e
    unfold collectPolicies
    cases text with
    | raw text =>
      rw [Logged.result_bind, Logger.result_error, Logged.ok_bind]
      exact ih fields
    | json policy =>
      rw [Logged.result_bind, Logged.result_lift, setProperty, Logged.ok_bind, Logged.result_bind,
        Logger.result_debug, Logged.ok_bind]
      exact ih _

theorem lookup_collect (fields : List (String × Json)) (e : Sigma fun _ : String => KvText)
    (iss : String) : (collect fields e).lookup iss =
      if iss = e.1 ∧ iss ≠ "__proto__" then e.2.parsed.or (fields.lookup iss)
      else fields.lookup iss := by
  unfold collect
  cases e.2.parsed with
  | none => simp
  | some policy =>
    dsimp only
    by_cases hproto : e.1 = "__proto__"
    · rw [if_pos hproto, if_neg]
      rintro ⟨he, hne⟩
      exact hne (he.trans hproto)
    · rw [if_neg hproto, lookup_assign]
      by_cases he : iss = e.1
      · rw [if_pos he, if_pos ⟨he, he ▸ hproto⟩]
        rfl
      · rw [if_neg he, if_neg fun hboth => he hboth.1]

theorem lookup_collected {entries : List (Sigma fun _ : String => KvText)}
    (hnodup : entries.NodupKeys) (fields : List (String × Json)) {iss : String}
    (hiss : iss ≠ "__proto__") :
    (entries.foldl collect fields).lookup iss =
      ((entries.dlookup iss).bind KvText.parsed).or (fields.lookup iss) := by
  induction entries generalizing fields with
  | nil => rfl
  | cons e entries ih =>
    obtain ⟨hfresh, hrest⟩ := List.nodupKeys_cons.mp hnodup
    rw [List.foldl_cons, ih hrest, lookup_collect]
    by_cases he : iss = e.1
    · subst he
      rw [List.dlookup_eq_none.mpr hfresh, if_pos ⟨rfl, hiss⟩, List.dlookup_cons_eq]
      rfl
    · rw [if_neg fun hboth => he hboth.1, List.dlookup_cons_ne _ _ he]

theorem lookup_collected_proto (entries : List (Sigma fun _ : String => KvText))
    (fields : List (String × Json)) :
    (entries.foldl collect fields).lookup "__proto__" = fields.lookup "__proto__" := by
  induction entries generalizing fields with
  | nil => rfl
  | cons e entries ih => rw [List.foldl_cons, ih, lookup_collect, if_neg fun hboth => hboth.2 rfl]

namespace SetKeyReleasePolicy

open KeyReleasePolicy (Operator)

variable {E : Engine} {map map' : KvMap String KvText}

theorem release_change {args : JsValue}
    (hc : PolicyMap.keyRelease.change E map args = some map') :
    apply E releaseTexts map args = .ok map' := by
  obtain ⟨kv', henact, rfl⟩ := Option.map_eq_some_iff.mp hc
  obtain ⟨keyRelease, happly, rfl⟩ := apply_of_enact henact
  exact happly

/-- The release policy in force, as the accepted proposals say it. -/
theorem follows_service (h : Host) (kv : Kv) (xs : List Transaction) :
    Follows (serviceAfter h kv xs).keyRelease
      (run PolicyLedger.edit PolicyLedger.empty (acceptedEdits h kv xs .keyRelease)) := by
  refine policy_keeps (m := .keyRelease) (R := fun map history =>
    Follows map (run PolicyLedger.edit PolicyLedger.empty history)) follows_empty ?_ kv xs
  intro map history args map' hm hc
  rw [run_snoc]
  exact follows_apply hm (release_change hc)

/-- An accepted proposal leaves a document of claims behind. -/
theorem claims_after_apply {args : JsValue} (h : apply E releaseTexts map args = .ok map') :
    ∃ items, map'.lookup "claims" = some (.json items) := by
  obtain ⟨claims, map₁, hadd | hremove, hlookup⟩ := apply_claims h
  · obtain ⟨items, rfl⟩ := edit_inserts hadd
    exact ⟨items, hlookup.trans (AList.lookup_insert _)⟩
  · obtain ⟨items, rfl⟩ := edit_inserts hremove
    exact ⟨items, hlookup.trans (AList.lookup_insert _)⟩

theorem claims_of_service (h : Host) (kv : Kv) (xs : List Transaction) :
    if acceptedEdits h kv xs .keyRelease = [] then
      (serviceAfter h kv xs).keyRelease.lookup "claims" = none
    else ∃ items, (serviceAfter h kv xs).keyRelease.lookup "claims" = some (.json items) := by
  refine policy_keeps (m := .keyRelease) (R := fun map history =>
    if history = [] then map.lookup "claims" = none
    else ∃ items, map.lookup "claims" = some (.json items)) rfl ?_ kv xs
  intro map history args map' _ hc
  rw [if_neg (List.append_ne_nil_of_right_ne_nil _ (List.cons_ne_nil _ _))]
  exact claims_after_apply (release_change hc)

/-- The policy says of every claim what the ledger says. -/
structure Says (policy : IKeyReleasePolicy) (l : PolicyLedger) : Prop where
  claims : ∀ c v, v.IsScalar →
    ((∃ xs, policy.claims.get c = .ok (.json (.arr xs)) ∧ v ∈ xs) ↔ l.listed c v = true)
  bounds : ∀ op c, c ≠ "__proto__" → ∀ v,
    ((∃ items, boundsOf policy op = some items ∧ items.get c = .ok (.json v)) ↔
      l.bound op c = some v)

theorem says_of_follows {l : PolicyLedger} (hm : Follows map l) {policy : IKeyReleasePolicy}
    {logContextIn : Option LogContext}
    (hread : (KeyReleasePolicy.getKeyReleasePolicyFromMap E map logContextIn).result = .ok policy) :
    Says policy l := by
  have hnone := (readBack_iff (E := E) hm policy none).mpr ((readBack_iff hm policy logContextIn).mp hread)
  refine ⟨fun c v hv => ?_, fun op c hc v => ?_⟩
  · rw [← listed_iff (E := E) hm hv]
    constructor
    · rintro ⟨xs, hget, hmem⟩
      exact ⟨policy, xs, hnone, hget, hmem⟩
    · rintro ⟨policy', xs, hread', hget, hmem⟩
      cases hnone.symm.trans hread'
      exact ⟨xs, hget, hmem⟩
  · rw [← threshold_iff (E := E) hm hc]
    constructor
    · rintro ⟨items, hitems, hget⟩
      exact ⟨policy, items, hnone, hitems, hget⟩
    · rintro ⟨policy', items, hread', hitems, hget⟩
      cases hnone.symm.trans hread'
      exact ⟨items, hitems, hget⟩

theorem readEntry_none {map : KvMap String KvText} {type : String} (hn : map.lookup type = none)
    (logContext : LogContext) : KeyReleasePolicy.readEntry logContext map type = .ok none := by
  unfold KeyReleasePolicy.readEntry
  rw [hn]

/-- What reading the policy throws where no claims are stored. -/
def missingClaims (logContext : LogContext) : JsError :=
  KmsError "Key release policy claims not found in the key release policy map"
    (LogContext.within (some logContext) "getKeyReleasePolicyFromMap")

end SetKeyReleasePolicy

end DepaKms
