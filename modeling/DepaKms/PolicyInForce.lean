import DepaKms.PolicyRemoval
import DepaKms.ShownPolicies

set_option autoImplicit false

/-!
# The release policy in force

What a report has met that the evaluator accepts, told by the proposals alone: the
values of the claims, where each comes from, and the bounds.
-/
namespace DepaKms

namespace KeyReleasePolicy

variable {E : Engine} {attestationClaims : JsValue}

/-- The attested value is a number within the bound of the entry. -/
def InBound (E : Engine) (op : Operator) (attestationClaims : JsValue) (entry : String × Json) :
    Prop :=
  ∃ w value bound, attestationClaims.get entry.1 = .ok w ∧ attestationNumber E w = .ok value ∧
    policyNumber E entry.2 = some bound ∧ op.holds value (some bound) = true

theorem operatorsLoop_sound (logContext : LogContext) (op : Operator)
    (entries : List (String × Json)) :
    Logged.Ensures (operatorsLoop E logContext op attestationClaims entries) fun o =>
      o = none → ∀ e ∈ entries, InBound E op attestationClaims e := by
  have hfailed (error : ErrorResponse) (code : ℕ) {P : Prop} :
      Logged.Ensures
        (do
          let failure ← ServiceResult.failed E error code logContext []
          pure (some failure) : Handler (Option (ServiceResult JsValue)))
        fun o => o = none → P :=
    .skip fun _ => .pure (by simp)
  induction entries with
  | nil => exact .pure (by simp)
  | cons e entries ih =>
    obtain ⟨key, policyValue⟩ := e
    refine .read fun w hw => .skip fun _ => .skip fun _ => .skip fun _ => .ite (fun _ => hfailed _ _)
      fun _ => .ite (fun _ => hfailed _ _) fun _ => ?_
    cases hbound : policyNumber E policyValue with
    | none => exact hfailed _ _
    | some bound =>
      refine .read fun value hvalue => .skip fun _ => .ite (fun hholds => ?_) fun _ => hfailed _ _
      refine ih.mono fun o ho hnone => ?_
      exact List.forall_mem_cons.mpr ⟨⟨w, value, bound, hw, hvalue, hbound, hholds⟩, ho hnone⟩

theorem operators_sound (logContext : LogContext) (op : Operator) (fields : List (String × Json)) :
    Logged.Ensures (validateKeyReleasePolicyOperators E logContext op (.obj fields)
        attestationClaims) fun r =>
      r.isFailure = false → ∀ e ∈ fields, InBound E op attestationClaims e := by
  have hfailed (error : ErrorResponse) (code : ℕ) {P : Prop} :
      Logged.Ensures (ServiceResult.failed E error code logContext [] :
        Handler (ServiceResult JsValue)) fun r => r.isFailure = false → P := by
    intro r hr hok
    cases hr
    cases hok
  refine .ite (fun _ => hfailed _ _) fun _ => .ite (fun _ => hfailed _ _) fun _ => ?_
  refine .read fun entries hentries => .step fun o ho => ?_
  cases hentries
  cases o with
  | some failure =>
    refine .pure fun hok => ?_
    rw [(operatorsLoop_failure E logContext op _ _ _ ho failure rfl).1] at hok
    cases hok
  | none =>
    intro r _ _ e he
    exact operatorsLoop_sound logContext op _ none ho rfl e ((mem_enumerate fields e).mpr he)

/-- The operator `gt` decides where the policy has it, and `gte` where it has not. -/
theorem bounds_sound (logContext : LogContext) (gte gt : Option Json) :
    Logged.Ensures (checkBounds E logContext gte gt attestationClaims) fun r =>
      r.isFailure = false →
        (∀ fields, gt = some (.obj fields) → ∀ e ∈ fields, InBound E .gt attestationClaims e) ∧
        (gt = none → ∀ fields, gte = some (.obj fields) →
          ∀ e ∈ fields, InBound E .gte attestationClaims e) := by
  refine .step fun gteResult hgte => ?_
  cases hgt : gt with
  | none =>
    refine .pure fun hok => ⟨by simp, fun _ fields hfields => ?_⟩
    subst hfields
    exact (Logged.Ensures.skip fun _ => operators_sound logContext .gte fields) gteResult hgte hok
  | some bounds =>
    cases bounds with
    | obj fields =>
      refine .skip fun _ => (operators_sound logContext .gt fields).mono fun r hr hok => ?_
      refine ⟨fun fields' he => ?_, by simp⟩
      cases he
      exact hr hok
    | _ => exact fun r _ _ => ⟨by simp, by simp⟩

end KeyReleasePolicy

namespace SetKeyReleasePolicy

open KeyReleasePolicy (Operator InBound evaluator_sound evaluator_accepts_iff bounds_sound
  getKeyReleasePolicyFromMap validateKeyReleasePolicy policyNumber)

variable {E : Engine} {texts : ReleaseTexts} {map map' : KvMap String KvText} {args : JsValue}

/-- Each value in a list of the document is one that may stand under its claim. -/
def AllListed (P : String → Json → Prop) : Json → Prop :=
  AllEntries fun e => ∃ xs, e.2 = .arr xs ∧ ∀ v ∈ xs, P e.1 v

theorem AllListed.imp {P Q : String → Json → Prop} {items : Json} (ha : AllListed P items)
    (himp : ∀ c v, P c v → Q c v) : AllListed Q items := by
  obtain ⟨fields, rfl, hall⟩ := ha
  refine ⟨fields, rfl, fun e he => ?_⟩
  obtain ⟨xs, hxs, hlisted⟩ := hall e he
  exact ⟨xs, hxs, fun v hv => himp _ v (hlisted v hv)⟩

theorem addClaim_listed {P : String → Json → Prop} {items items' item : Json} {key : String}
    (ha : AllListed P items) (hitem : ∀ v ∈ asList item, P key v)
    (h : addClaim E items key item = .ok items') : AllListed P items' := by
  obtain ⟨fields, rfl, hall⟩ := ha
  have hlists (j : Json) (hj : fields.lookup key = some j) : ∃ xs, j = .arr xs := by
    obtain ⟨xs, hxs, -⟩ := hall (key, j) (mem_of_lookup hj)
    exact ⟨xs, hxs⟩
  have hmerged {xs : List Json} (hxs : ∀ v ∈ xs, P key v) :
      ∀ v ∈ merge xs (asList item), P key v := by
    obtain ⟨added, hadded, hmem⟩ := merge_appends xs (asList item)
    rw [hadded]
    exact List.forall_mem_append.mpr ⟨hxs, fun v hv => hitem v (hmem v hv)⟩
  rcases addClaim_cases hlists h with ⟨xs, hxs, rfl⟩ | ⟨-, -, -, rfl⟩ | ⟨-, -, rfl⟩
  · obtain ⟨ys, hys, hlisted⟩ := hall _ (mem_of_lookup hxs)
    cases hys
    exact ⟨_, rfl, forall_assign hall ⟨_, rfl, hmerged hlisted⟩⟩
  · exact ⟨_, rfl, forall_assign hall ⟨_, rfl, hmerged (by simp)⟩⟩
  · exact ⟨fields, rfl, hall⟩

theorem removeValue_listed {P : String → Json → Prop} {items items' i : Json} {key : String}
    (ha : AllListed P items) (h : removeValue E texts key items i = .ok items') :
    AllListed P items' := by
  obtain ⟨fields, rfl, hall⟩ := ha
  obtain ⟨xs, hxs, ⟨-, rfl⟩ | ⟨-, rfl⟩⟩ := removeValue_cases h
  · exact allEntries_delete ⟨fields, rfl, hall⟩ key
  · obtain ⟨ys, hys, hlisted⟩ := hall _ (mem_of_lookup hxs)
    cases hys
    refine ⟨_, rfl, forall_assign hall ⟨_, rfl, fun v hv => ?_⟩⟩
    exact hlisted v (List.mem_of_mem_filter hv)

/-- The edit of the claims, with the proposal that it is for. -/
theorem apply_claims_edit (h : apply E texts map args = .ok map') :
    ∃ claims map₁, args.get "claims" = .ok claims ∧
      (isAdd args = true ∧ add E texts "claims" map claims = .ok map₁ ∨
        remove E texts "claims" map claims = .ok map₁) ∧
      map'.lookup "claims" = map₁.lookup "claims" := by
  obtain ⟨claims, map₁, map₂, hclaims, ⟨hadds, hadd, hgte, hgt⟩ | ⟨-, hremove, hgte, hgt⟩⟩ :=
    apply_cases h
  · refine ⟨claims, map₁, hclaims, .inl ⟨hadds, hadd⟩, ?_⟩
    rw [operatorEdit_frame (fun bounds hb => edit_inserts hb) hgt (by decide),
      operatorEdit_frame (fun bounds hb => edit_inserts hb) hgte (by decide)]
  · refine ⟨claims, map₁, hclaims, .inr hremove, ?_⟩
    rw [operatorEdit_frame (fun bounds hb => edit_inserts hb) hgt (by decide),
      operatorEdit_frame (fun bounds hb => edit_inserts hb) hgte (by decide)]

/-- The proposal adds the value to the claim. -/
def AddsValue (args : JsValue) (c : String) (v : Json) : Prop :=
  isAdd args = true ∧ Named (entriesOf args "claims") c v

theorem apply_listed {P : String → Json → Prop} (hm : Holds map "claims" (AllListed P))
    (h : apply E texts map args = .ok map') :
    Holds map' "claims" (AllListed fun c v => P c v ∨ AddsValue args c v) := by
  obtain ⟨claims, map₁, hclaims, hedit, hlookup⟩ := apply_claims_edit h
  refine Holds.congr ?_ hlookup
  rcases hedit with ⟨hadds, hadd⟩ | hremove
  · obtain ⟨entries, items, hentries, rfl, hlisted⟩ := edit_history
      (R := fun items done => AllListed (fun c v => P c v ∨ Named done c v) items) noItems_ok
      (fun items done e items' hR hi => addClaim_listed
        (hR.imp fun c v => Or.imp_right fun hn => hn.snoc e)
        (fun v hv => .inr ⟨e, by simp, rfl, hv⟩) hi)
      (hm.imp fun items ha => ha.imp fun c v => .inl) hadd
    rw [← entriesOf_eq hclaims hentries] at hlisted
    exact holds_inserted (hlisted.imp fun c v => Or.imp_right fun hn => ⟨hadds, hn⟩)
  · exact (edit_keeps absentKey_ok (fun _ _ _ => removeClaim_keeps fun _ _ _ => removeValue_listed)
      hm hremove).imp fun items ha => ha.imp fun c v => .inl

/-- One of the proposals adds the value to the claim. -/
def Added (edits : List JsValue) (c : String) (v : Json) : Prop := ∃ p ∈ edits, AddsValue p c v

theorem listed_added (h : Host) (kv : Kv) (xs : List Transaction) :
    Holds (serviceAfter h kv xs).keyRelease "claims"
      (AllListed (Added (acceptedEdits h kv xs .keyRelease))) := by
  refine policy_keeps (m := .keyRelease) (R := fun map history =>
    Holds map "claims" (AllListed (Added history))) ⟨[], rfl, by simp⟩ ?_ kv xs
  intro map history args map' hm hc
  refine (apply_listed hm (release_change hc)).imp fun items ha => ha.imp fun c v => ?_
  rintro (⟨p, hp, hadds⟩ | hadds)
  · exact ⟨p, List.mem_append_left _ hp, hadds⟩
  · exact ⟨args, List.mem_append_right _ List.mem_cons_self, hadds⟩

/-- The value is in force: the last of the proposals that name it adds it. -/
def InForce (edits : List JsValue) (c : String) (v : Json) : Prop :=
  ∃ p, lastOf (namesValue c v) edits = some p ∧ isAdd p = true

def BoundInForce (edits : List JsValue) (op : Operator) (c : String) (b : Json) : Prop :=
  ∃ p, lastOf (namesBound op c) edits = some p ∧ isAdd p = true ∧ boundGiven op c p = some b

theorem inForce_iff {edits : List JsValue} {c : String} {v : Json} :
    (run PolicyLedger.edit PolicyLedger.empty edits).listed c v = true ↔ InForce edits c v := by
  rw [PolicyLedger.listed_run]
  unfold InForce
  cases lastOf (namesValue c v) edits <;> simp

theorem boundInForce_iff {edits : List JsValue} {op : Operator} {c : String} {b : Json} :
    (run PolicyLedger.edit PolicyLedger.empty edits).bound op c = some b ↔
      BoundInForce edits op c b := by
  rw [PolicyLedger.bound_run]
  unfold BoundInForce
  cases lastOf (namesBound op c) edits with
  | none => simp
  | some p => cases hadd : isAdd p <;> simp [hadd]

/-- The attested value has the text of the listed one. -/
def Attests (E : Engine) (report : JsValue) (c : String) (v : Json) : Prop :=
  ∃ w text, report.get c = .ok w ∧ w.toStringCall E = .ok text ∧ v.toStringCall E = .ok text

/-- What the report has to be under the policy that the proposals make. A bound of `gte` counts
    as long as there never was one of `gt`. -/
structure ReportMeets (E : Engine) (edits : List JsValue) (report : JsValue) : Prop where
  nonempty : ∃ c v, Added edits c v ∧ Attests E report c v
  claims : ∀ c v, v.IsScalar → InForce edits c v →
    ∃ u, Added edits c u ∧ (u.IsScalar → InForce edits c u) ∧ Attests E report c u
  gt : ∀ c b, c ≠ "__proto__" → BoundInForce edits .gt c b → InBound E .gt report (c, b)
  gte : (∀ p ∈ edits, p.get "gt" = .ok .undefined) →
    ∀ c b, c ≠ "__proto__" → BoundInForce edits .gte c b → InBound E .gte report (c, b)

/-- From the first proposal on that has bounds of `gt` there is a document of them. -/
theorem apply_gt_none_iff (h : apply E texts map args = .ok map') :
    map'.lookup "gt" = none ↔ map.lookup "gt" = none ∧ args.get "gt" = .ok .undefined := by
  have hlast {change : String → KvMap String KvText → JsValue → Except JsError (KvMap String KvText)}
      {map₂ : KvMap String KvText} (hframe : map₂.lookup "gt" = map.lookup "gt")
      (hchange : ∀ bounds, change "gt" map₂ bounds = .ok map' → ∃ items,
        map' = map₂.insert "gt" (.json items))
      (hedit : operatorEdit args "gt" change map₂ = .ok map') :
      map'.lookup "gt" = none ↔ map.lookup "gt" = none ∧ args.get "gt" = .ok .undefined := by
    obtain ⟨bounds, hbounds, hedit⟩ := Logged.bind_ok_iff.mp hedit
    rw [hbounds]
    cases bounds with
    | undefined =>
      cases hedit
      rw [hframe]
      simp
    | builtin _ | json _ =>
      obtain ⟨items, rfl⟩ := hchange _ hedit
      rw [AList.lookup_insert]
      simp
  obtain ⟨claims, map₁, map₂, -, ⟨-, hclaims, hgte, hedit⟩ | ⟨-, hclaims, hgte, hedit⟩⟩ :=
    apply_cases h
  all_goals
    obtain ⟨items, rfl⟩ := edit_inserts hclaims
    refine hlast ?_ (fun bounds hb => edit_inserts hb) hedit
    rw [operatorEdit_frame (fun bounds hb => edit_inserts hb) hgte (by decide)]
    exact AList.lookup_insert_ne (by decide)

theorem gt_none_iff (h : Host) (kv : Kv) (xs : List Transaction) :
    (serviceAfter h kv xs).keyRelease.lookup "gt" = none ↔
      ∀ p ∈ acceptedEdits h kv xs .keyRelease, p.get "gt" = .ok .undefined := by
  refine policy_keeps (m := .keyRelease) (R := fun map history =>
    map.lookup "gt" = none ↔ ∀ p ∈ history, p.get "gt" = .ok .undefined) ?_ ?_ kv xs
  · exact ⟨fun _ => by simp, fun _ => rfl⟩
  · intro map history args map' hm hc
    rw [apply_gt_none_iff (release_change hc), hm, forall_mem_snoc]

/-- The bounds in force are entries of the document that is read back. -/
theorem mem_bounds {l : PolicyLedger} (hm : Follows map l) {op : Operator} {c : String} {b : Json}
    (hc : c ≠ "__proto__") (hb : l.bound op c = some b) :
    ∃ fields, documentOf map op.type = some (.obj fields) ∧ (c, b) ∈ fields := by
  rcases documentOf_eq (hm.bounds op) with
    ⟨items, hdocument, fields, rfl, hfields⟩ | ⟨-, -, fields, he, hfields⟩
  · exact ⟨fields, hdocument, mem_of_lookup ((hfields c hc).trans hb)⟩
  · cases he
    rw [← hfields c hc] at hb
    cases hb

/-- A report that the evaluator accepts meets what the accepted proposals say. -/
theorem report_meets (h : Host) (kv : Kv) (xs : List Transaction) {policy : IKeyReleasePolicy}
    {report : JsValue} {logContextIn logContext : Option LogContext}
    (hread : (getKeyReleasePolicyFromMap h.toEngine (serviceAfter h kv xs).keyRelease
      logContextIn).result = .ok policy)
    (hsucceeds : Succeeds (validateKeyReleasePolicy h.toEngine policy report logContext)) :
    ReportMeets h.toEngine (acceptedEdits h kv xs .keyRelease) report := by
  have hm := follows_service h kv xs
  obtain ⟨claims, hdocument, rfl⟩ := (readBack_iff hm policy logContextIn).mp hread
  obtain ⟨fields, rfl, hlists⟩ := documentOf_holds hm.claims hdocument
  obtain ⟨_, he, hlisted⟩ := documentOf_holds (listed_added h kv xs) hdocument
  cases he
  obtain ⟨entries, hentries, hnonempty, hmatch⟩ := evaluator_sound h.toEngine _ report _ hsucceeds
  cases hentries
  have hattests {e : String × Json} (hmem : e ∈ fields) : ∃ ys u, e.2 = .arr ys ∧ u ∈ ys ∧
      Added (acceptedEdits h kv xs .keyRelease) e.1 u ∧ Attests h.toEngine report e.1 u := by
    obtain ⟨ys, hys, u, hu, text, hutext, w, hw, hwtext⟩ :=
      hmatch e ((mem_enumerate _ _).mpr hmem)
    obtain ⟨zs, hzs, hadded⟩ := hlisted e hmem
    cases hys.symm.trans hzs
    exact ⟨ys, u, hys, hu, hadded u hu, w, text, hw, hwtext, hutext⟩
  obtain ⟨-, -, r, hr, hok⟩ := (evaluator_accepts_iff rfl report logContext).mp hsucceeds
  obtain ⟨hgt, hgte⟩ := bounds_sound _ _ _ r hr hok
  refine ⟨?_, fun c v hv hforce => ?_, fun c b hc hb => ?_, fun hnever c b hc hb => ?_⟩
  · obtain ⟨e, he⟩ := List.exists_mem_of_ne_nil _ hnonempty
    obtain ⟨ys, u, -, -, hadded, hattested⟩ := hattests ((mem_enumerate _ _).mp he)
    exact ⟨e.1, u, hadded, hattested⟩
  · obtain ⟨ys, hys, -⟩ := (mem_list_iff (hlists c) hv).mpr (inForce_iff.mpr hforce)
    obtain ⟨zs, u, hzs, hu, hadded, hattested⟩ :=
      hattests (mem_of_lookup (Json.get_json_iff.mp hys))
    cases hzs
    refine ⟨u, hadded, fun hscalar => ?_, hattested⟩
    exact inForce_iff.mp ((mem_list_iff (hlists c) hscalar).mp ⟨ys, hys, hu⟩)
  · obtain ⟨bounds, hbounds, hmem⟩ := mem_bounds hm hc (boundInForce_iff.mpr hb)
    exact hgt bounds hbounds _ hmem
  · obtain ⟨bounds, hbounds, hmem⟩ := mem_bounds hm hc (boundInForce_iff.mpr hb)
    have hnone : documentOf (serviceAfter h kv xs).keyRelease "gt" = none := by
      unfold documentOf
      rw [(gt_none_iff h kv xs).mpr hnever]
    exact hgte hnone bounds hbounds _ hmem

end SetKeyReleasePolicy

end DepaKms
