import DepaKms.Attestation
import DepaKms.PolicyGrowth

set_option autoImplicit false

/-!
# The shape of the policy

What the evaluator takes for granted of a policy: each claim a list of values of the declared
type, each bound a number. The action asks for less, and stores whatever it is given.
-/
namespace DepaKms
namespace SetKeyReleasePolicy

open KeyReleasePolicy (Operator PlainList policyNumber validateKeyReleasePolicy
  getKeyReleasePolicyFromMap)

variable {E : Engine} {texts : ReleaseTexts}

/-- The value has the type that the table declares for the claim. -/
def Declared (c : String) (v : Json) : Prop := claimTypes.lookup c = some (JsValue.json v).typeOf

theorem Declared.plain {c : String} {v : Json} (hd : Declared c v) : IsPlain v := by
  have hall : ∀ f ∈ claimTypes, f.2 = "string" ∨ f.2 = "number" ∨ f.2 = "boolean" := by decide
  obtain ⟨before, after, hsplit, -⟩ := List.lookup_eq_some_iff.mp hd
  have htype := hall (c, (JsValue.json v).typeOf) (hsplit ▸ List.mem_append_right _ List.mem_cons_self)
  cases v with
  | bool b => exact .bool b
  | num q => exact .num q
  | str s => exact .str s
  | null => simp [JsValue.typeOf] at htype
  | arr xs => simp [JsValue.typeOf] at htype
  | obj fields => simp [JsValue.typeOf] at htype

theorem Declared.scalar {c : String} {v : Json} (hd : Declared c v) : v.IsScalar := by
  cases hd.plain with
  | bool b => exact .bool b
  | num q => exact .num q
  | str s => exact .str s

theorem Declared.name {c : String} {v : Json} (hd : Declared c v) : c ∈ claimNames := by
  obtain ⟨before, after, hsplit, -⟩ := List.lookup_eq_some_iff.mp hd
  unfold claimNames
  rw [hsplit]
  simp

structure ShapedList (c : String) (xs : List Json) : Prop where
  nonempty : xs ≠ []
  nodup : xs.Nodup
  declared : ∀ v ∈ xs, Declared c v

theorem addNew_shaped {c : String} {xs : List Json} {i : Json} (hnodup : xs.Nodup)
    (hdeclared : ∀ v ∈ xs, Declared c v) (hi : Declared c i) :
    ShapedList c (if Json.includes xs i then xs else xs ++ [i]) := by
  split_ifs with hincludes
  · have hmem := (Json.includes_iff hi.scalar).mp hincludes
    exact ⟨List.ne_nil_of_mem hmem, hnodup, hdeclared⟩
  · have hfresh : i ∉ xs := fun hmem => hincludes ((Json.includes_iff hi.scalar).mpr hmem)
    refine ⟨by simp, ?_, fun v hv => ?_⟩
    · rw [List.nodup_append]
      refine ⟨hnodup, List.nodup_singleton _, ?_⟩
      rintro a ha b hb rfl
      exact hfresh (List.mem_singleton.mp hb ▸ ha)
    · rcases List.mem_append.mp hv with hv | hv
      · exact hdeclared v hv
      · rw [List.mem_singleton.mp hv]
        exact hi

theorem merge_shaped {c : String} {xs items : List Json} (hne : xs ≠ [] ∨ items ≠ [])
    (hnodup : xs.Nodup) (hdeclared : ∀ v ∈ xs, Declared c v) (hall : ∀ v ∈ items, Declared c v) :
    ShapedList c (merge xs items) := by
  induction items generalizing xs with
  | nil => exact ⟨hne.resolve_right (not_not.mpr rfl), hnodup, hdeclared⟩
  | cons i items ih =>
    obtain ⟨hi, hitems⟩ := List.forall_mem_cons.mp hall
    have hs := addNew_shaped hnodup hdeclared hi
    exact ih (.inl hs.nonempty) hs.nodup hs.declared hitems

def ShapedClaim (entry : String × Json) : Prop :=
  entry.1 ∈ claimNames ∧ ∃ xs, entry.2 = .arr xs ∧ ShapedList entry.1 xs

def ShapedBound (E : Engine) (entry : String × Json) : Prop :=
  entry.1 ∈ claimNames ∧ ∃ bound, policyNumber E entry.2 = some bound

/-- Every entry of the document is as asked. -/
def AllEntries (P : String × Json → Prop) (items : Json) : Prop :=
  ∃ fields, items = .obj fields ∧ ∀ e ∈ fields, P e

theorem forall_assign {P : String × Json → Prop} {fields : List (String × Json)} {key : String}
    {v : Json} (hall : ∀ e ∈ fields, P e) (hv : P (key, v)) : ∀ e ∈ assign fields key v, P e := by
  intro e he
  unfold assign at he
  split_ifs at he
  · obtain ⟨f, hf, rfl⟩ := List.mem_map.mp he
    split_ifs
    · exact hv
    · exact hall f hf
  · rcases List.mem_append.mp he with he | he
    · exact hall e he
    · rw [List.mem_singleton.mp he]
      exact hv

theorem allEntries_delete {P : String × Json → Prop} {items : Json} (ha : AllEntries P items)
    (key : String) : AllEntries P (deleteProperty items key) := by
  obtain ⟨fields, rfl, hall⟩ := ha
  exact ⟨_, rfl, fun e he => hall e (List.mem_of_mem_filter he)⟩

theorem allEntries_set {P : String × Json → Prop} {items items' : Json} (ha : AllEntries P items)
    {key : String} {v : Json} (hv : key ≠ "__proto__" → P (key, v))
    (h : setProperty items key v = .ok items') : AllEntries P items' := by
  obtain ⟨fields, rfl, hall⟩ := ha
  cases h
  refine ⟨_, rfl, ?_⟩
  split_ifs with hproto
  · exact hall
  · exact forall_assign hall (hv hproto)

def Present (items : Json) (c : String) : Prop := items.get c ≠ .ok .undefined

theorem present_assign {fields : List (String × Json)} {c : String}
    (hp : Present (.obj fields) c) (key : String) (v : Json) :
    Present (.obj (assign fields key v)) c := by
  intro hget
  cases hlookup : (assign fields key v).lookup c with
  | some w =>
    rw [Json.get_own hlookup] at hget
    cases hget
  | none =>
    rw [Json.get_inherited hlookup] at hget
    rw [lookup_assign] at hlookup
    split_ifs at hlookup
    exact hp ((Json.get_inherited hlookup).trans hget)

theorem addClaim_shaped {items items' item : Json} {key : String}
    (ha : AllEntries ShapedClaim items) (hvalues : ∀ v ∈ asList item, Declared key v)
    (hempty : asList item = [] → Present items key)
    (h : addClaim E items key item = .ok items') :
    AllEntries ShapedClaim items' ∧ ∀ c, Present items c → Present items' c := by
  obtain ⟨fields, rfl, hall⟩ := ha
  have hown (j : Json) (hj : fields.lookup key = some j) := hall (key, j) (mem_of_lookup hj)
  have hlists (j : Json) (hj : fields.lookup key = some j) : ∃ xs, j = .arr xs := by
    obtain ⟨-, xs, hxs, -⟩ := hown j hj
    exact ⟨xs, hxs⟩
  rcases addClaim_cases hlists h with ⟨xs, hlookup, rfl⟩ | ⟨-, habsent, -, rfl⟩ | ⟨-, -, rfl⟩
  · obtain ⟨hname, ys, hys, hs⟩ := hown _ hlookup
    cases hys
    have hmerge := merge_shaped (.inl hs.nonempty) hs.nodup hs.declared hvalues
    exact ⟨⟨_, rfl, forall_assign hall ⟨hname, _, rfl, hmerge⟩⟩,
      fun c hc => present_assign hc key _⟩
  · have hsome : asList item ≠ [] := fun hnil => hempty hnil habsent
    obtain ⟨v, hv⟩ := List.exists_mem_of_ne_nil _ hsome
    have hmerge := merge_shaped (.inr hsome) List.nodup_nil (by simp) hvalues
    exact ⟨⟨_, rfl, forall_assign hall ⟨(hvalues v hv).name, _, rfl, hmerge⟩⟩,
      fun c hc => present_assign hc key _⟩
  · exact ⟨⟨fields, rfl, hall⟩, fun c hc => hc⟩

theorem setOperator_shaped {items items' item : Json} {key : String}
    (ha : AllEntries (ShapedBound E) items) (hv : key ≠ "__proto__" → ShapedBound E (key, item))
    (h : setOperator texts items key item = .ok items') : AllEntries (ShapedBound E) items' := by
  have hset : setProperty items key item = .ok items' := by
    cases item <;> first | exact h | cases h
  exact allEntries_set ha hv hset

theorem removeValue_shaped {items items' i : Json} {key : String}
    (ha : AllEntries ShapedClaim items) (h : removeValue E texts key items i = .ok items') :
    AllEntries ShapedClaim items' := by
  obtain ⟨fields, rfl, hall⟩ := ha
  obtain ⟨xs, hlookup, ⟨-, rfl⟩ | ⟨hne, rfl⟩⟩ := removeValue_cases h
  · exact allEntries_delete ⟨fields, rfl, hall⟩ key
  · obtain ⟨hname, ys, hys, hs⟩ := hall (key, .arr xs) (mem_of_lookup hlookup)
    cases hys
    refine ⟨_, rfl, forall_assign hall ⟨hname, _, rfl, hne, hs.nodup.filter _, ?_⟩⟩
    exact fun v hv => hs.declared v (List.mem_of_mem_filter hv)

theorem removeClaim_shaped {items items' item : Json} {key : String}
    (ha : AllEntries ShapedClaim items) (h : removeClaim E texts items key item = .ok items') :
    AllEntries ShapedClaim items' :=
  removeClaim_keeps (fun _ _ _ => removeValue_shaped) ha h

theorem dropOperator_shaped {items items' item : Json} {key : String}
    (ha : AllEntries (ShapedBound E) items) (h : dropOperator E texts items key item = .ok items') :
    AllEntries (ShapedBound E) items' := by
  unfold dropOperator at h
  split at h
  · cases h
  · obtain ⟨current, -, h⟩ := Logged.bind_ok_iff.mp h
    split_ifs at h
    · cases h
    · obtain ⟨text, -, h⟩ := Logged.bind_ok_iff.mp h
      cases h
      exact allEntries_delete ha key

/-- The stored policy is one that the evaluator can read. -/
structure WellFormed (E : Engine) (map : KvMap String KvText) : Prop where
  claims : Holds map "claims" (AllEntries ShapedClaim)
  bounds : ∀ op : Operator, Holds map op.type (AllEntries (ShapedBound E))

/-- What an addition asks for is of the declared types. An empty list is fine for a claim that
    is there already. -/
structure AsksForShaped (E : Engine) (map : KvMap String KvText) (args : JsValue) : Prop where
  values : ∀ e ∈ entriesOf args "claims", (∀ v ∈ asList e.2, Declared e.1 v) ∧
    (asList e.2 = [] → Present (edited map "claims") e.1)
  bounds : ∀ op : Operator, ∀ e ∈ entriesOf args op.type, e.1 ≠ "__proto__" → ShapedBound E e

section Proposals

variable {map map' : KvMap String KvText} {args claims : JsValue}

theorem add_shaped (hm : Holds map "claims" (AllEntries ShapedClaim))
    (hc : args.get "claims" = .ok claims)
    (hasks : ∀ e ∈ entriesOf args "claims", (∀ v ∈ asList e.2, Declared e.1 v) ∧
      (asList e.2 = [] → Present (edited map "claims") e.1))
    (h : add E texts "claims" map claims = .ok map') :
    Holds map' "claims" (AllEntries ShapedClaim) := by
  let R (items : Json) (done : List (String × Json)) : Prop :=
    (∀ e ∈ done, (∀ v ∈ asList e.2, Declared e.1 v) ∧
        (asList e.2 = [] → Present (edited map "claims") e.1)) →
      AllEntries ShapedClaim items ∧ ∀ c, Present (edited map "claims") c → Present items c
  have hinit : Holds map "claims" (R · []) := by
    obtain ⟨hedited, hold⟩ := hm.edited
    refine hedited.imp fun items hitems _ => ?_
    subst hitems
    exact ⟨hold, fun c hc => hc⟩
  obtain ⟨entries, items, hentries, rfl, hitems⟩ := edit_history (R := R) noItems_ok
    (fun items done e items' hR hi hall => by
      obtain ⟨ha, hpresent⟩ := hR fun e' he' => hall e' (List.mem_append_left _ he')
      obtain ⟨hvalues, hempty⟩ := hall e (by simp)
      obtain ⟨ha', hpresent'⟩ := addClaim_shaped ha hvalues (fun hnil => hpresent _ (hempty hnil)) hi
      exact ⟨ha', fun c hc => hpresent' c (hpresent c hc)⟩) hinit h
  rw [entriesOf_eq hc hentries] at hasks
  exact holds_inserted (hitems hasks).1

theorem remove_shaped (hm : Holds map "claims" (AllEntries ShapedClaim))
    (h : remove E texts "claims" map claims = .ok map') :
    Holds map' "claims" (AllEntries ShapedClaim) :=
  edit_keeps absentKey_ok (fun _ _ _ => removeClaim_shaped) hm h

theorem addOperator_shaped {type : String} {bounds : JsValue}
    (hm : Holds map type (AllEntries (ShapedBound E))) (hb : args.get type = .ok bounds)
    (hasks : ∀ e ∈ entriesOf args type, e.1 ≠ "__proto__" → ShapedBound E e)
    (h : addOperator texts type map bounds = .ok map') :
    Holds map' type (AllEntries (ShapedBound E)) := by
  let R (items : Json) (done : List (String × Json)) : Prop :=
    (∀ e ∈ done, e.1 ≠ "__proto__" → ShapedBound E e) → AllEntries (ShapedBound E) items
  obtain ⟨entries, items, hentries, rfl, hitems⟩ := edit_history (R := R) noItems_ok
    (fun items done e items' hR hi hall =>
      setOperator_shaped (hR fun e' he' => hall e' (List.mem_append_left _ he'))
        (hall e (by simp)) hi) (hm.imp fun items ha _ => ha) h
  rw [entriesOf_eq hb hentries] at hasks
  exact holds_inserted (hitems hasks)

theorem removeOperator_shaped {type : String} {bounds : JsValue}
    (hm : Holds map type (AllEntries (ShapedBound E)))
    (h : removeOperator E texts type map bounds = .ok map') :
    Holds map' type (AllEntries (ShapedBound E)) :=
  edit_keeps absentKey_ok (fun _ _ _ => dropOperator_shaped) hm h

theorem operatorEdit_shaped {Q : Json → Prop} {type : String}
    {change : String → KvMap String KvText → JsValue → Except JsError (KvMap String KvText)}
    (hm : Holds map type Q)
    (hchange : ∀ bounds, args.get type = .ok bounds → change type map bounds = .ok map' →
      Holds map' type Q)
    (h : operatorEdit args type change map = .ok map') : Holds map' type Q := by
  obtain ⟨bounds, hbounds, h⟩ := Logged.bind_ok_iff.mp h
  split_ifs at h
  · cases h
    exact hm
  · exact hchange bounds hbounds h

theorem wellFormed_edits {map₁ : KvMap String KvText} (map₂ : KvMap String KvText)
    (hm : WellFormed E map)
    (hclaims : Holds map₁ "claims" (AllEntries ShapedClaim))
    (hframe₁ : ∀ other, other ≠ "claims" → map₁.lookup other = map.lookup other)
    (hgte : Holds map₁ "gte" (AllEntries (ShapedBound E)) → Holds map₂ "gte" (AllEntries (ShapedBound E)))
    (hframe₂ : ∀ other, other ≠ "gte" → map₂.lookup other = map₁.lookup other)
    (hgt : Holds map₂ "gt" (AllEntries (ShapedBound E)) → Holds map' "gt" (AllEntries (ShapedBound E)))
    (hframe : ∀ other, other ≠ "gt" → map'.lookup other = map₂.lookup other) :
    WellFormed E map' := by
  have hgte := hgte ((hm.bounds .gte).congr (hframe₁ _ (by decide)))
  have hgt := hgt ((hm.bounds .gt).congr
    ((hframe₂ _ (by decide)).trans (hframe₁ _ (by decide))))
  refine ⟨hclaims.congr ((hframe _ (by decide)).trans (hframe₂ _ (by decide))), fun op => ?_⟩
  cases op with
  | gte => exact hgte.congr (hframe _ (by decide))
  | gt => exact hgt

theorem apply_wellFormed (hm : WellFormed E map)
    (hasks : isAdd args = true → AsksForShaped E map args)
    (h : apply E texts map args = .ok map') : WellFormed E map' := by
  have hclaims_frame {items : Json} (other : String) (hother : other ≠ "claims") :
      (map.insert "claims" (.json items)).lookup other = map.lookup other :=
    AList.lookup_insert_ne hother
  obtain ⟨claims, map₁, map₂, hclaims, ⟨hadds, hadd, hgte, hgt⟩ | ⟨-, hremove, hgte, hgt⟩⟩ :=
    apply_cases h
  · have hasks := hasks hadds
    have hmap₁ := add_shaped hm.claims hclaims hasks.values hadd
    obtain ⟨items, rfl⟩ := edit_inserts hadd
    refine wellFormed_edits map₂ hm hmap₁ hclaims_frame ?_ ?_ ?_ ?_
    · exact fun hb => operatorEdit_shaped hb
        (fun bounds hbounds => addOperator_shaped hb hbounds (hasks.bounds .gte)) hgte
    · exact fun other => operatorEdit_frame (fun bounds hb => edit_inserts hb) hgte
    · exact fun hb => operatorEdit_shaped hb
        (fun bounds hbounds => addOperator_shaped hb hbounds (hasks.bounds .gt)) hgt
    · exact fun other => operatorEdit_frame (fun bounds hb => edit_inserts hb) hgt
  · have hmap₁ := remove_shaped hm.claims hremove
    obtain ⟨items, rfl⟩ := edit_inserts hremove
    refine wellFormed_edits map₂ hm hmap₁ hclaims_frame ?_ ?_ ?_ ?_
    · exact fun hb => operatorEdit_shaped hb (fun bounds _ => removeOperator_shaped hb) hgte
    · exact fun other => operatorEdit_frame (fun bounds hb => edit_inserts hb) hgte
    · exact fun hb => operatorEdit_shaped hb (fun bounds _ => removeOperator_shaped hb) hgt
    · exact fun other => operatorEdit_frame (fun bounds hb => edit_inserts hb) hgt

end Proposals

section Evaluator

variable (E) (logContext : LogContext) {fields : List (String × Json)}
  (hatt : ∀ f ∈ fields, IsPlain f.2)
include hatt

theorem claims_answered {items : Json} (ha : AllEntries ShapedClaim items) :
    ∃ r, (KeyReleasePolicy.validateKeyReleasePolicyClaims E logContext items
      (.json (.obj fields))).result = .ok r := by
  obtain ⟨entries, rfl, hall⟩ := ha
  have hplain : ∀ e ∈ enumerate entries, PlainList e.2 := by
    intro e he
    obtain ⟨-, xs, hxs, hs⟩ := hall e ((mem_enumerate _ _).mp he)
    exact ⟨xs, hxs, fun x hx => (hs.declared x hx).plain⟩
  obtain ⟨o, ho, -⟩ := KeyReleasePolicy.claimsLoop_decides E logContext hatt _ hplain
  have hentries : (Json.obj entries).ownEntries = .ok (enumerate entries) := rfl
  unfold KeyReleasePolicy.validateKeyReleasePolicyClaims
  simp only [Json.isNull, KeyReleasePolicy.isNullish, Bool.false_eq_true, if_false,
    Logged.result_bind, Logged.result_monadLift, hentries, Logged.ok_bind, ho]
  cases o with
  | none => exact ⟨_, rfl⟩
  | some failure => exact ⟨_, rfl⟩

theorem bounds_answered (op : Operator) {items : Json} (ha : AllEntries (ShapedBound E) items) :
    ∃ r, (KeyReleasePolicy.validateKeyReleasePolicyOperators E logContext op items
      (.json (.obj fields))).result = .ok r := by
  obtain ⟨entries, rfl, hall⟩ := ha
  obtain ⟨o, ho, -⟩ := KeyReleasePolicy.operatorsLoop_decides E logContext op hatt (enumerate entries)
    fun e he => (hall e ((mem_enumerate _ _).mp he)).2
  have hentries : (Json.obj entries).ownEntries = .ok (enumerate entries) := rfl
  unfold KeyReleasePolicy.validateKeyReleasePolicyOperators
  simp only [Json.isNull, KeyReleasePolicy.isNullish, Bool.false_eq_true, if_false,
    Logged.result_bind, Logged.result_monadLift, hentries, Logged.ok_bind, ho]
  cases o with
  | none => exact ⟨_, rfl⟩
  | some failure => exact ⟨_, rfl⟩

theorem operator_answered (op : Operator) {bounds : Option Json}
    (ha : ∀ items, bounds = some items → AllEntries (ShapedBound E) items)
    (before : ServiceResult JsValue) :
    ∃ r, (KeyReleasePolicy.applyOperator E logContext op bounds (.json (.obj fields)) before).result =
      .ok r := by
  unfold KeyReleasePolicy.applyOperator
  split
  · exact ⟨_, rfl⟩
  · exact ⟨_, rfl⟩
  · rw [Logged.result_bind, Logger.result_debug, Logged.ok_bind]
    exact bounds_answered E logContext hatt op (ha _ rfl)

theorem evaluator_answers {policy : IKeyReleasePolicy} (hclaims : AllEntries ShapedClaim policy.claims)
    (hgte : ∀ items, policy.gte = some items → AllEntries (ShapedBound E) items)
    (hgt : ∀ items, policy.gt = some items → AllEntries (ShapedBound E) items)
    (logContextIn : Option LogContext) :
    ∃ r, (validateKeyReleasePolicy E policy (.json (.obj fields)) logContextIn).result = .ok r := by
  obtain ⟨entries, hentries⟩ : ∃ entries, policy.claims.ownEntries = .ok entries := by
    obtain ⟨stored, hstored, -⟩ := hclaims
    rw [hstored]
    exact ⟨_, rfl⟩
  unfold validateKeyReleasePolicy
  simp only [Logged.result_bind, Logged.result_monadLift, hentries, Logged.ok_bind]
  split_ifs
  · exact ⟨_, rfl⟩
  · obtain ⟨claimsResult, hresult⟩ := claims_answered E _ hatt hclaims
    rw [Logged.result_bind, hresult, Logged.ok_bind]
    split_ifs
    · exact ⟨_, rfl⟩
    · obtain ⟨gteResult, hresult⟩ := operator_answered E _ hatt .gte hgte claimsResult
      rw [Logged.result_bind, hresult, Logged.ok_bind]
      exact operator_answered E _ hatt .gt hgt gteResult

end Evaluator

/-- The policy is well formed, and the evaluator has an answer to every report. -/
structure SuitsEvaluator (E : Engine) (map : KvMap String KvText) : Prop where
  wellFormed : WellFormed E map
  answers : ∀ policy logContextIn, (getKeyReleasePolicyFromMap E map logContextIn).result = .ok policy →
    ∀ report logContextIn', ∃ r, (validateKeyReleasePolicy E policy
      (.json (.obj (SnpAttestationClaims.getClaims E report))) logContextIn').result = .ok r

theorem documentOf_holds {map : KvMap String KvText} {type : String} {R : Json → Prop}
    (hm : Holds map type R) {items : Json} (hi : documentOf map type = some items) : R items := by
  rcases documentOf_eq hm with ⟨items', hitems', hR⟩ | ⟨hnone, -⟩
  · cases hi.symm.trans hitems'
    exact hR
  · cases hi.symm.trans hnone

theorem WellFormed.suits {map : KvMap String KvText} {l : PolicyLedger} (hw : WellFormed E map)
    (hm : Follows map l) : SuitsEvaluator E map := by
  refine ⟨hw, fun policy logContextIn hpolicy report logContextIn' => ?_⟩
  obtain ⟨claims, hclaims, rfl⟩ := (readBack_iff hm policy logContextIn).mp hpolicy
  exact evaluator_answers E (SnpAttestationClaims.getClaims_plain E report)
    (documentOf_holds hw.claims hclaims) (fun items => documentOf_holds (hw.bounds .gte))
    (fun items => documentOf_holds (hw.bounds .gt)) logContextIn'

theorem wellFormed_empty : WellFormed E ∅ where
  claims := ⟨[], rfl, by simp⟩
  bounds _ := ⟨[], rfl, by simp⟩

theorem sample_asks (map : KvMap String KvText) : AsksForShaped sampleEngine map sampleAdd := by
  have hclaims : entriesOf sampleAdd "claims" =
      [("x-ms-sevsnpvm-vmpl", .arr [.num 0, .num 1])] := rfl
  have hbounds (op : Operator) (e : String × Json) (he : e ∈ entriesOf sampleAdd op.type) :
      e = ("x-ms-sevsnpvm-vmpl", .num 0) := by
    cases op with
    | gte => exact List.mem_singleton.mp he
    | gt => cases he
  refine ⟨fun e he => ?_, fun op e he _ => ?_⟩
  · rw [hclaims, List.mem_singleton] at he
    subst he
    refine ⟨fun v hv => ?_, fun hnil => by cases hnil⟩
    simp only [asList, List.mem_cons, List.not_mem_nil, or_false] at hv
    have hnumber : claimTypes.lookup "x-ms-sevsnpvm-vmpl" = some "number" := by decide
    rcases hv with rfl | rfl
    · exact hnumber
    · exact hnumber
  · rw [hbounds op e he]
    exact ⟨by decide, 0, rfl⟩

def sampleNull : JsValue :=
  sampleProposal "add" [("claims", .obj [("x-ms-sevsnpvm-reportdata", .null)])]

end SetKeyReleasePolicy

end DepaKms
