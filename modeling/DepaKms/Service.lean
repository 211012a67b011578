import DepaKms.Governance
import DepaKms.KeyRuns
import DepaKms.PolicyEndpoints

set_option autoImplicit false

/-!
# The service

All endpoints over one store. A call is a transaction: it is rolled back when it fails,
and only a refresh and a proposal write anything.
-/
namespace DepaKms

inductive Operation
  | keys (call : Call)
  | auth
  | heartbeat
  | settingsPolicy
  | keyReleasePolicy
  | jwtValidationPolicy
  | postProposals
  | getProposals

structure Transaction where
  operation : Operation
  moment : Moment
  request : Request

/-- A response as it is sent, with the text of its body. -/
def ServiceResult.sent {α : Type} [Serializable α] : ServiceResult α → ServiceResult JsValue
  | success body headers => success (Serializable.toJson body) headers
  | pending headers => pending headers
  | failure error code headers => failure error code headers

@[simp] theorem ServiceResult.isFailure_sent {α : Type} [Serializable α] (r : ServiceResult α) :
    r.sent.isFailure = r.isFailure := by
  cases r <;> rfl

variable (h : Host)

section Serve

variable (kv : Kv)

def answering {α : Type} [Serializable α] (handler : Handler (ServiceResult α)) :
    Handler (ServiceResult JsValue × Kv) := do
  let response ← handler
  pure (response.sent, kv)

def Transaction.respond (x : Transaction) : Handler (ServiceResult JsValue × Kv) :=
  match x.operation with
  | .keys (.refresh keys) => do
    let (response, kv) ← DepaKms.refresh h x.moment kv keys x.request
    pure (response.sent, kv)
  | .keys .key => answering kv (DepaKms.key h x.moment kv x.request)
  | .keys .unwrapKey => answering kv (DepaKms.unwrapKey h x.moment kv x.request)
  | .keys .unwrapKeyGcp => answering kv (DepaKms.unwrapKeyGcp h x.moment kv x.request)
  | .keys .pubkey => answering kv (DepaKms.pubkey h x.moment kv x.request)
  | .keys .listpubkeys => answering kv (DepaKms.listpubkeys h x.moment kv x.request)
  | .auth => answering kv (DepaKms.auth h x.moment kv x.request)
  | .heartbeat => answering kv (DepaKms.heartbeat h x.moment kv x.request)
  | .settingsPolicy => answering kv (DepaKms.settingsPolicy h x.moment kv x.request)
  | .keyReleasePolicy => answering kv (DepaKms.keyReleasePolicy h x.moment kv x.request)
  | .jwtValidationPolicy => answering kv (DepaKms.jwtValidationPolicy h x.moment kv x.request)
  | .postProposals => do
    let (response, kv) ← DepaKms.postProposals h x.moment kv x.request
    pure (response.sent, kv)
  | .getProposals => answering kv (DepaKms.getProposals h kv)

/-- The store after the call, unless it fails or throws. -/
def serve (x : Transaction) : Option Kv :=
  match (x.respond h kv).result with
  | .ok (response, kv') =>
    if response.isFailure then none else some { kv' with version := kv'.version + 1 }
  | .error _ => none

def Transaction.writes (x : Transaction) : Bool :=
  match x.operation with
  | .keys (.refresh _) => true
  | .postProposals => true
  | _ => false

/-- The store as it is for those that only read. -/
def Kv.read (kv : Kv) : Kv := { kv with version := kv.version + 1 }

/-- All that an accepted call can do to the store. -/
inductive Served (x : Transaction) (kv' : Kv) : Prop
  | read (hreads : x.writes = false) (hkv : kv' = kv.read)
  | key (keys : CryptoKeyPair) (hrefresh : x.operation = .keys (.refresh keys)) (kid : String)
      (item : IKeyItem) (hnew : NewKey h x.moment keys kv kid item)
      (hkv : kv' = (kv.addKey (LastestItemStore.size kv + 1) kid item).read)
  | proposal (hpost : x.operation = .postProposals) (logContext : LogContext)
      (actions : List ProposedAction) (kv₁ : Kv)
      (hmay : MayPropose h x.moment kv x.request logContext)
      (henacts : Enacts h kv x.request actions kv₁)
      (hkv : kv' = { kv₁ with version := kv.version + 1 })

end Serve

variable {h} {kv kv' : Kv}

theorem serve_eq_some_iff {x : Transaction} :
    serve h kv x = some kv' ↔ ∃ response kv₁, (x.respond h kv).result = .ok (response, kv₁) ∧
      response.isFailure = false ∧ kv' = { kv₁ with version := kv₁.version + 1 } := by
  unfold serve
  constructor
  · intro hs
    split at hs
    · rename_i response kv₁ hresponse
      split_ifs at hs with hok
      cases hs
      exact ⟨response, kv₁, hresponse, by simpa using hok, rfl⟩
    · cases hs
  · rintro ⟨response, kv₁, hresponse, hok, rfl⟩
    rw [hresponse]
    simp only [hok, Bool.false_eq_true, if_false]

theorem answering_eq_ok_iff {α : Type} [Serializable α] {handler : Handler (ServiceResult α)}
    {response : ServiceResult JsValue} :
    (answering kv handler).result = .ok (response, kv') ↔
      ∃ r, handler.result = .ok r ∧ response = r.sent ∧ kv' = kv := by
  unfold answering
  rw [Logged.result_bind, Logged.bind_ok_iff]
  simp [eq_comm]

section Reads

variable {α : Type} [Serializable α] {handler : Handler (ServiceResult α)} {x : Transaction}
  (hx : x.respond h kv = answering kv handler)
include hx

theorem serve_reads (hs : serve h kv x = some kv') : kv' = kv.read := by
  obtain ⟨response, kv₁, hresponse, -, rfl⟩ := serve_eq_some_iff.mp hs
  rw [hx] at hresponse
  obtain ⟨-, -, -, rfl⟩ := answering_eq_ok_iff.mp hresponse
  rfl

theorem commit_reads :
    commit (serve h) kv x = match (reading kv handler).result with
      | .ok (false, kv') => { kv' with version := kv'.version + 1 }
      | _ => kv := by
  unfold commit serve reading
  rw [hx, answering, Logged.result_bind, Logged.result_bind]
  cases handler.result with
  | error e => rfl
  | ok r =>
    simp only [Logged.ok_bind, Logged.result_pure, ServiceResult.isFailure_sent]
    cases r.isFailure <;> rfl

end Reads

/-- Calls of the key endpoints are transactions of the service. -/
theorem serve_keys (call : Call) (t : Moment) (request : Request) :
    commit (serve h) kv ⟨.keys call, t, request⟩ = keyStep h kv ⟨call, t, request⟩ := by
  cases call with
  | refresh keys =>
    unfold commit serve keyStep Transaction.respond Event.perform
    dsimp only
    rw [Logged.result_bind, Logged.result_bind]
    cases (refresh h t kv keys request).result with
    | error e => rfl
    | ok r =>
      simp only [Logged.ok_bind, Logged.result_pure, ServiceResult.isFailure_sent]
      cases r.1.isFailure <;> rfl
  | key => exact commit_reads rfl
  | unwrapKey => exact commit_reads rfl
  | unwrapKeyGcp => exact commit_reads rfl
  | pubkey => exact commit_reads rfl
  | listpubkeys => exact commit_reads rfl

theorem run_keys (events : List Event) :
    run (commit (serve h)) kv (events.map fun e => ⟨.keys e.call, e.moment, e.request⟩) =
      run (keyStep h) kv events := by
  rw [run_map]
  exact congrArg (fun step => run step kv events) (funext₂ fun kv e => serve_keys _ _ _)

theorem Enacts.version_eq {request : Request} {actions : List ProposedAction}
    (he : Enacts h kv request actions kv') : kv'.version = kv.version := by
  obtain ⟨-, kv₁, proposals, hkv₁, -, rfl⟩ := he
  have hkept := congrArg Kv.version (enacted_withoutPolicies hkv₁)
  exact hkept

theorem respond_post {t : Moment} {request : Request} {response : ServiceResult JsValue} :
    ((Transaction.respond h kv ⟨.postProposals, t, request⟩).result = .ok (response, kv') ∧
        response.isFailure = false) ↔
      ∃ logContext actions, MayPropose h t kv request logContext ∧
        Enacts h kv request actions kv' ∧ response = (ServiceResult.success
          (resultsOf h request actions) (ServiceResult.withRequestId logContext [])).sent := by
  unfold Transaction.respond
  dsimp only
  rw [Logged.result_bind, Logged.bind_ok_iff]
  constructor
  · rintro ⟨⟨⟨r, kv₁⟩, hr, hresponse⟩, hok⟩
    cases hresponse
    rw [ServiceResult.isFailure_sent] at hok
    obtain ⟨logContext, actions, hmay, henacts, rfl⟩ := postProposals_ok_iff.mp ⟨hr, hok⟩
    exact ⟨logContext, actions, hmay, henacts, rfl⟩
  · rintro ⟨logContext, actions, hmay, henacts, rfl⟩
    obtain ⟨hr, -⟩ := postProposals_ok_iff.mpr ⟨logContext, actions, hmay, henacts, rfl⟩
    exact ⟨⟨_, hr, rfl⟩, rfl⟩

/-- A posted proposal is a transaction of the service. -/
theorem serve_post (t : Moment) (request : Request) :
    serve h kv ⟨.postProposals, t, request⟩ = post h kv ⟨t, request⟩ := by
  refine Option.ext fun kv' => ?_
  rw [serve_eq_some_iff, post_eq_some_iff]
  constructor
  · rintro ⟨response, kv₁, hr, hok, rfl⟩
    obtain ⟨logContext, actions, hmay, henacts, -⟩ := respond_post.mp ⟨hr, hok⟩
    exact ⟨logContext, actions, kv₁, hmay, henacts, by rw [henacts.version_eq]⟩
  · rintro ⟨logContext, actions, kv₁, hmay, henacts, rfl⟩
    obtain ⟨hr, hok⟩ := respond_post.mpr ⟨logContext, actions, hmay, henacts, rfl⟩
    exact ⟨_, kv₁, hr, hok, by rw [henacts.version_eq]⟩

theorem serve_refresh {keys : CryptoKeyPair} {t : Moment} {request : Request}
    (hs : serve h kv ⟨.keys (.refresh keys), t, request⟩ = some kv') :
    ∃ kid item, NewKey h t keys kv kid item ∧
      kv' = (kv.addKey (LastestItemStore.size kv + 1) kid item).read := by
  obtain ⟨response, kv₁, hr, hok, rfl⟩ := serve_eq_some_iff.mp hs
  unfold Transaction.respond at hr
  dsimp only at hr
  rw [Logged.result_bind] at hr
  obtain ⟨⟨r, kv₂⟩, hrefresh, hr⟩ := Logged.bind_ok_iff.mp hr
  cases hr
  have hrefreshed := refresh_ensures keys request _ hrefresh
  unfold Refreshed at hrefreshed
  rw [ServiceResult.isFailure_sent] at hok
  simp only [hok, Bool.false_eq_true, if_false] at hrefreshed
  obtain ⟨kid, item, hnew, rfl⟩ := hrefreshed
  exact ⟨kid, item, hnew, rfl⟩

theorem serve_cases {x : Transaction} (hs : serve h kv x = some kv') : Served h kv x kv' := by
  obtain ⟨operation, t, request⟩ := x
  cases operation with
  | keys call =>
    cases call with
    | refresh keys =>
      obtain ⟨kid, item, hnew, hkv⟩ := serve_refresh hs
      exact .key keys rfl kid item hnew hkv
    | key => exact .read rfl (serve_reads rfl hs)
    | unwrapKey => exact .read rfl (serve_reads rfl hs)
    | unwrapKeyGcp => exact .read rfl (serve_reads rfl hs)
    | pubkey => exact .read rfl (serve_reads rfl hs)
    | listpubkeys => exact .read rfl (serve_reads rfl hs)
  | auth => exact .read rfl (serve_reads rfl hs)
  | heartbeat => exact .read rfl (serve_reads rfl hs)
  | settingsPolicy => exact .read rfl (serve_reads rfl hs)
  | keyReleasePolicy => exact .read rfl (serve_reads rfl hs)
  | jwtValidationPolicy => exact .read rfl (serve_reads rfl hs)
  | postProposals =>
    rw [serve_post] at hs
    obtain ⟨logContext, actions, kv₁, hmay, henacts, hkv⟩ := post_eq_some_iff.mp hs
    exact .proposal rfl logContext actions kv₁ hmay henacts hkv
  | getProposals => exact .read rfl (serve_reads rfl hs)

/-- A call either leaves the policies and the proposals alone or is an accepted proposal. -/
theorem serve_kept {x : Transaction} (hs : serve h kv x = some kv') :
    (x.operation ≠ .postProposals ∧ kv'.proposals = kv.proposals ∧
        ∀ m, kv'.policy m = kv.policy m) ∨
      x.operation = .postProposals ∧ ∃ logContext actions kv₁,
        MayPropose h x.moment kv x.request logContext ∧ Enacts h kv x.request actions kv₁ ∧
          kv' = { kv₁ with version := kv.version + 1 } := by
  cases serve_cases hs with
  | read hreads hkv =>
    refine .inl ⟨fun hpost => ?_, by rw [hkv]; rfl, fun m => by rw [hkv]; cases m <;> rfl⟩
    unfold Transaction.writes at hreads
    rw [hpost] at hreads
    cases hreads
  | key keys hrefresh kid item hnew hkv =>
    refine .inl ⟨fun hpost => ?_, by rw [hkv]; rfl, fun m => by rw [hkv]; cases m <;> rfl⟩
    cases hpost.symm.trans hrefresh
  | proposal hpost logContext actions kv₁ hmay henacts hkv =>
    exact .inr ⟨hpost, logContext, actions, kv₁, hmay, henacts, hkv⟩

end DepaKms
