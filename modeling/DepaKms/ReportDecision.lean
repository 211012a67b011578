import DepaKms.PrivateAnswers
import DepaKms.PolicyShape
import DepaKms.ReleaseSpec

set_option autoImplicit false

/-!
# The decision on a report

Where additions to the release policy ask for values of the declared types, the policy that is
stored has a meaning, and the accepted proposals alone tell which reports are accepted.
-/
namespace DepaKms
namespace SetKeyReleasePolicy

open KeyReleasePolicy (Operator Bounded validateKeyReleasePolicy)
open ReleasePolicy (claimsJson boundsJson recordJson HasListed HasVisible WithinBound)

variable {E : Engine} {texts : ReleaseTexts} {map map' : KvMap String KvText} {args : JsValue}

theorem setOperator_tidy {items items' item : Json} {key : String} (ht : Tidy items)
    (h : setOperator texts items key item = .ok items') : Tidy items' := by
  obtain ⟨fields, rfl, hd⟩ := ht
  have hset : setProperty (.obj fields) key item = .ok items' := by
    cases item <;> first | exact h | cases h
  cases hset
  refine ⟨_, rfl, ?_⟩
  split_ifs
  · exact hd
  · exact assign_distinct hd key item

theorem dropOperator_tidy {items items' item : Json} {key : String} (ht : Tidy items)
    (h : dropOperator E texts items key item = .ok items') : Tidy items' := by
  unfold dropOperator at h
  split at h
  · cases h
  · obtain ⟨current, -, h⟩ := Logged.bind_ok_iff.mp h
    split_ifs at h
    · cases h
    · obtain ⟨text, -, h⟩ := Logged.bind_ok_iff.mp h
      cases h
      obtain ⟨fields, rfl, hd⟩ := ht
      exact ⟨_, rfl, filter_distinct hd _⟩

/-- What the single edits keep of the documents of the bounds is kept by a proposal. -/
theorem apply_bounds {Q : Json → Prop}
    (hset : ∀ items items' item key, Q items → setOperator texts items key item = .ok items' →
      Q items')
    (hdrop : ∀ items items' item key, Q items → dropOperator E texts items key item = .ok items' →
      Q items')
    (hm : ∀ op : Operator, Holds map op.type Q) (h : apply E texts map args = .ok map') :
    ∀ op : Operator, Holds map' op.type Q := by
  have hedits
      {change : String → KvMap String KvText → JsValue → Except JsError (KvMap String KvText)}
      {map₂ : KvMap String KvText} {items : Json}
      (hinserts : ∀ type map bounds map', change type map bounds = .ok map' → ∃ items,
        map' = map.insert type (.json items))
      (hkeeps : ∀ type map bounds map', Holds map type Q → change type map bounds = .ok map' →
        Holds map' type Q)
      (hgte : operatorEdit args "gte" change (map.insert "claims" (.json items)) = .ok map₂)
      (hgt : operatorEdit args "gt" change map₂ = .ok map') (op : Operator) :
      Holds map' op.type Q := by
    have hframe {other : String} (hother : other ≠ "claims") :
        (map.insert "claims" (.json items)).lookup other = map.lookup other :=
      AList.lookup_insert_ne hother
    cases op with
    | gte =>
      have hkept := operatorEdit_shaped ((hm .gte).congr (hframe (by decide)))
        (fun bounds _ hc => hkeeps _ _ _ _ ((hm .gte).congr (hframe (by decide))) hc) hgte
      exact hkept.congr (operatorEdit_frame (fun bounds hc => hinserts _ _ _ _ hc) hgt (by decide))
    | gt =>
      have hkept := ((hm .gt).congr (hframe (by decide))).congr
        (operatorEdit_frame (fun bounds hc => hinserts _ _ _ _ hc) hgte (by decide))
      exact operatorEdit_shaped hkept (fun bounds _ hc => hkeeps _ _ _ _ hkept hc) hgt
  obtain ⟨claims, map₁, map₂, -, ⟨-, hadd, hgte, hgt⟩ | ⟨-, hremove, hgte, hgt⟩⟩ := apply_cases h
  · obtain ⟨items, rfl⟩ := edit_inserts hadd
    exact hedits (fun _ _ _ _ hc => edit_inserts hc)
      (fun _ _ _ _ hq hc => edit_keeps noItems_ok
        (fun items e items' hi he => hset items items' e.2 e.1 hi he) hq hc) hgte hgt
  · obtain ⟨items, rfl⟩ := edit_inserts hremove
    exact hedits (fun _ _ _ _ hc => edit_inserts hc)
      (fun _ _ _ _ hq hc => edit_keeps absentKey_ok
        (fun items e items' hi he => hdrop items items' e.2 e.1 hi he) hq hc) hgte hgt

/-- No document of the policy names anything twice. -/
structure TidyPolicy (map : KvMap String KvText) : Prop where
  claims : Holds map "claims" Tidy
  bounds : ∀ op : Operator, Holds map op.type Tidy

theorem tidy_of_service (h : Host) (kv : Kv) (xs : List Transaction) :
    TidyPolicy (serviceAfter h kv xs).keyRelease := by
  refine policy_keeps (m := .keyRelease) (R := fun map _ => TidyPolicy map) ?_ ?_ kv xs
  · exact ⟨⟨[], rfl, List.nodup_nil⟩, fun op => ⟨[], rfl, List.nodup_nil⟩⟩
  · intro map history args map' hm hc
    have happly := release_change hc
    exact ⟨apply_tidy hm.claims happly, apply_bounds (fun _ _ _ _ => setOperator_tidy)
      (fun _ _ _ _ => dropOperator_tidy) hm.bounds happly⟩

/-- What the addition asks for is of the declared types, and it gives no claim an empty list. -/
structure AsksForDeclared (E : Engine) (args : JsValue) : Prop where
  values : ∀ e ∈ entriesOf args "claims", asList e.2 ≠ [] ∧ ∀ v ∈ asList e.2, Declared e.1 v
  bounds : ∀ op : Operator, ∀ e ∈ entriesOf args op.type, e.1 ≠ "__proto__" → ShapedBound E e

theorem AsksForDeclared.shaped (ha : AsksForDeclared E args) (map : KvMap String KvText) :
    AsksForShaped E map args :=
  ⟨fun e he => ⟨(ha.values e he).2, fun hnil => absurd hnil (ha.values e he).1⟩, ha.bounds⟩

/-- Each of the additions asks for declared values. -/
def Declares (E : Engine) (edits : List JsValue) : Prop :=
  ∀ p ∈ edits, isAdd p = true → AsksForDeclared E p

theorem wellFormed_of_service (h : Host) (kv : Kv) (xs : List Transaction) :
    Declares h.toEngine (acceptedEdits h kv xs .keyRelease) →
      WellFormed h.toEngine (serviceAfter h kv xs).keyRelease := by
  refine policy_keeps (m := .keyRelease) (R := fun map history =>
    Declares h.toEngine history → WellFormed h.toEngine map) (fun _ => wellFormed_empty) ?_ kv xs
  intro map history args map' hm hc hdeclares
  obtain ⟨hbefore, hargs⟩ := forall_mem_snoc.mp hdeclares
  exact apply_wellFormed (hm hbefore) (fun hadds => (hargs hadds).shaped map) (release_change hc)

theorem exists_record {fields : List (String × Json)} (hatt : ∀ f ∈ fields, IsPlain f.2) :
    ∃ record, recordJson record = fields := by
  have hmem : fields ∈ Set.range (List.map fun f : String × Plain => (f.1, f.2.val)) := by
    rw [Set.range_list_map]
    exact fun f hf => ⟨(f.1, ⟨f.2, hatt f hf⟩), rfl⟩
  exact hmem

theorem exists_claims {fields : List (String × Json)} (hall : ∀ e ∈ fields, ShapedClaim e) :
    ∃ claims, claimsJson claims = fields := by
  have hmem : fields ∈ Set.range
      (List.map fun c : String × List Plain => (c.1, Json.arr (c.2.map Subtype.val))) := by
    rw [Set.range_list_map]
    intro e he
    obtain ⟨c, item⟩ := e
    obtain ⟨-, xs, hxs, hs⟩ := hall _ he
    have hplain : xs ∈ Set.range (List.map (Subtype.val : Plain → Json)) := by
      rw [Set.range_list_map]
      exact fun v hv => ⟨⟨v, (hs.declared v hv).plain⟩, rfl⟩
    obtain ⟨ps, rfl⟩ := hplain
    exact ⟨(c, ps), Prod.ext rfl hxs.symm⟩
  exact hmem

theorem exists_bounds {document : Option Json}
    (hall : ∀ items, document = some items → AllEntries (ShapedBound E) items) :
    ∃ bounds : Option (List (String × Bound E)),
      document = bounds.map fun b => Json.obj (boundsJson b) := by
  cases document with
  | none => exact ⟨none, rfl⟩
  | some items =>
    obtain ⟨fields, rfl, hfields⟩ := hall _ rfl
    have hmem : fields ∈ Set.range (List.map fun b : String × Bound E => (b.1, b.2.val)) := by
      rw [Set.range_list_map]
      exact fun e he => ⟨(e.1, ⟨e.2, (hfields e he).2⟩), rfl⟩
    obtain ⟨bounds, rfl⟩ := hmem
    exact ⟨some bounds, rfl⟩

/-- The bounds of the operator. -/
def boundsIn (policy : ReleasePolicy E) : Operator → Option (List (String × Bound E))
  | .gte => policy.gte
  | .gt => policy.gt

/-- The documents of the map are those of the policy. -/
structure Stores (map : KvMap String KvText) (policy : ReleasePolicy E) : Prop where
  claims : documentOf map "claims" = some (.obj (claimsJson policy.claims))
  bounds : ∀ op : Operator, documentOf map op.type =
    (boundsIn policy op).map fun b => .obj (boundsJson b)

theorem exists_stored {items : Json} (hw : WellFormed E map)
    (hdocument : documentOf map "claims" = some items) :
    ∃ policy : ReleasePolicy E, Stores map policy := by
  obtain ⟨fields, rfl, hfields⟩ := documentOf_holds hw.claims hdocument
  obtain ⟨claims, rfl⟩ := exists_claims hfields
  obtain ⟨gte, hgte⟩ := exists_bounds fun items => documentOf_holds (hw.bounds .gte)
  obtain ⟨gt, hgt⟩ := exists_bounds fun items => documentOf_holds (hw.bounds .gt)
  refine ⟨⟨claims, gte, gt⟩, hdocument, fun op => ?_⟩
  cases op with
  | gte => exact hgte
  | gt => exact hgt

theorem Stores.toPolicy {policy : ReleasePolicy E} (hs : Stores map policy) :
    policy.toPolicy = ⟨"add", .obj (claimsJson policy.claims), documentOf map "gte",
      documentOf map "gt"⟩ := by
  have hgte := hs.bounds .gte
  have hgt := hs.bounds .gt
  change documentOf map "gte" = policy.gte.map _ at hgte
  change documentOf map "gt" = policy.gt.map _ at hgt
  rw [hgte, hgt]
  rfl

theorem Stores.bound {policy : ReleasePolicy E} (hs : Stores map policy) {op : Operator}
    {bs : List (String × Bound E)} (hbs : boundsIn policy op = some bs) :
    documentOf map op.type = some (.obj (boundsJson bs)) := by
  rw [hs.bounds, hbs]
  rfl

theorem documentOf_eq_none_iff {R : Json → Prop} {type : String} (hm : Holds map type R) :
    documentOf map type = none ↔ map.lookup type = none := by
  rcases documentOf_eq hm with ⟨items, hitems, -⟩ | ⟨hnone, hlookup, -⟩
  · refine ⟨fun hnone => ?_, fun hlookup => ?_⟩
    · cases hitems.symm.trans hnone
    · unfold documentOf
      rw [hlookup]
  · exact ⟨fun _ => hlookup, fun _ => hnone⟩

/-- The policy says what the proposals leave in force. -/
structure Means (edits : List JsValue) (policy : ReleasePolicy E) : Prop where
  claims : ∀ c ∈ policy.claims, c.1 ∈ claimNames ∧ c.2 ≠ [] ∧
    ∀ v, InForce edits c.1 v ↔ ∃ p ∈ c.2, p.val = v
  complete : ∀ c v, InForce edits c v → ∃ ps, (c, ps) ∈ policy.claims
  bounds : ∀ op c b, c ≠ "__proto__" → (BoundInForce edits op c b ↔
    ∃ bs, boundsIn policy op = some bs ∧ ∃ x ∈ bs, x.1 = c ∧ x.2.val = b)
  bounded : ∀ op bs, boundsIn policy op = some bs → ∀ x ∈ bs, x.1 ∈ claimNames
  gt : policy.gt = none ↔ ∀ p ∈ edits, p.get "gt" = .ok .undefined

theorem InForce.scalar {edits : List JsValue} {c : String} {v : Json} (hf : InForce edits c v) :
    v.IsScalar := by
  obtain ⟨p, hlast, -⟩ := hf
  exact scalar_of_namesValue (List.of_mem_filter (List.mem_of_getLast? hlast))

section Means

variable {edits : List JsValue} {policy : ReleasePolicy E} (hs : Stores map policy)
  (hm : Follows map (run PolicyLedger.edit PolicyLedger.empty edits))
include hs hm

theorem claim_of_inForce {c : String} {v : Json} (hforce : InForce edits c v) :
    ∃ ps, (c, ps) ∈ policy.claims := by
  obtain ⟨_, he, hlists⟩ := documentOf_holds hm.claims hs.claims
  cases he
  obtain ⟨ys, hget, -⟩ := (mem_list_iff (hlists c) hforce.scalar).mpr (inForce_iff.mpr hforce)
  obtain ⟨x, hx, he⟩ := List.mem_map.mp (mem_of_lookup (Json.get_json_iff.mp hget))
  exact ⟨x.2, (Prod.mk.inj he).1 ▸ hx⟩

theorem inForce_iff_listed (ht : TidyPolicy map) (hw : WellFormed E map) {c : String × List Plain}
    (hc : c ∈ policy.claims) (v : Json) : InForce edits c.1 v ↔ ∃ p ∈ c.2, p.val = v := by
  obtain ⟨_, he, hlists⟩ := documentOf_holds hm.claims hs.claims
  cases he
  obtain ⟨_, he, hd⟩ := documentOf_holds ht.claims hs.claims
  cases he
  obtain ⟨_, he, hshaped⟩ := documentOf_holds hw.claims hs.claims
  cases he
  have hentry : (c.1, Json.arr (c.2.map Subtype.val)) ∈ claimsJson policy.claims :=
    List.mem_map.mpr ⟨c, hc, rfl⟩
  have hget : (Json.obj (claimsJson policy.claims)).get c.1 =
      .ok (.json (.arr (c.2.map Subtype.val))) := Json.get_json_iff.mpr (hd.lookup_of_mem hentry)
  rw [← List.mem_map]
  constructor
  · intro hforce
    obtain ⟨ys, hys, hmem⟩ := (mem_list_iff (hlists c.1) hforce.scalar).mpr (inForce_iff.mpr hforce)
    cases hget.symm.trans hys
    exact hmem
  · intro hmem
    obtain ⟨-, xs, hxs, hvalues⟩ := hshaped _ hentry
    cases hxs
    have hscalar := (hvalues.declared v hmem).scalar
    exact inForce_iff.mp ((mem_list_iff (hlists c.1) hscalar).mp ⟨_, hget, hmem⟩)

theorem boundInForce_iff_bound (ht : TidyPolicy map) (op : Operator) {c : String}
    (hc : c ≠ "__proto__") (b : Json) :
    BoundInForce edits op c b ↔
      ∃ bs, boundsIn policy op = some bs ∧ ∃ x ∈ bs, x.1 = c ∧ x.2.val = b := by
  rw [← boundInForce_iff]
  cases hbs : boundsIn policy op with
  | none =>
    have hnone : documentOf map op.type = none := by
      rw [hs.bounds, hbs]
      rfl
    rcases documentOf_eq (hm.bounds op) with ⟨items, hitems, -⟩ | ⟨-, -, fields, he, hfields⟩
    · cases hitems.symm.trans hnone
    · cases he
      rw [← hfields c hc]
      simp
  | some bs =>
    obtain ⟨_, he, hfields⟩ := documentOf_holds (hm.bounds op) (hs.bound hbs)
    cases he
    obtain ⟨_, he, hd⟩ := documentOf_holds (ht.bounds op) (hs.bound hbs)
    cases he
    rw [← hfields c hc]
    constructor
    · intro hlookup
      obtain ⟨x, hx, he⟩ := List.mem_map.mp (mem_of_lookup hlookup)
      exact ⟨bs, rfl, x, hx, Prod.mk.inj he⟩
    · rintro ⟨_, he, x, hx, rfl, rfl⟩
      cases he
      exact hd.lookup_of_mem (List.mem_map.mpr ⟨x, hx, rfl⟩)

end Means

/-- The policy that is read has a meaning, and it is that of the accepted proposals. -/
theorem stored_policy_means (h : Host) (kv : Kv) (xs : List Transaction)
    (hdeclares : Declares h.toEngine (acceptedEdits h kv xs .keyRelease))
    {policy : IKeyReleasePolicy} {logContextIn : Option LogContext}
    (hread : (KeyReleasePolicy.getKeyReleasePolicyFromMap h.toEngine
      (serviceAfter h kv xs).keyRelease logContextIn).result = .ok policy) :
    ∃ P : ReleasePolicy h.toEngine, P.toPolicy = policy ∧
      Means (acceptedEdits h kv xs .keyRelease) P := by
  have hm := follows_service h kv xs
  have ht := tidy_of_service h kv xs
  have hw := wellFormed_of_service h kv xs hdeclares
  obtain ⟨items, hdocument, rfl⟩ := (readBack_iff hm policy logContextIn).mp hread
  obtain ⟨P, hs⟩ := exists_stored hw hdocument
  cases hdocument.symm.trans hs.claims
  refine ⟨P, hs.toPolicy, fun c hc => ?_, fun c v => claim_of_inForce hs hm,
    fun op c b hc => boundInForce_iff_bound hs hm ht op hc b, fun op bs hbs x hx => ?_, ?_⟩
  · obtain ⟨_, he, hall⟩ := documentOf_holds hw.claims hs.claims
    cases he
    obtain ⟨hname, ys, hys, hvalues⟩ := hall _ (List.mem_map.mpr ⟨c, hc, rfl⟩)
    refine ⟨hname, fun hnil => hvalues.nonempty ?_, inForce_iff_listed hs hm ht hw hc⟩
    rw [← Json.arr.inj hys, hnil]
    rfl
  · obtain ⟨_, he, hall⟩ := documentOf_holds (hw.bounds op) (hs.bound hbs)
    cases he
    exact (hall _ (List.mem_map.mpr ⟨x, hx, rfl⟩)).1
  · have hnone := documentOf_eq_none_iff (hm.bounds .gt)
    rw [hs.bounds .gt, Option.map_eq_none_iff] at hnone
    exact hnone.trans (gt_none_iff h kv xs)

/-- The report has what the proposals leave in force. A bound of `gte` counts as long as there
    never was one of `gt`. -/
structure MeetsInForce (E : Engine) (edits : List JsValue) (report : List (String × Json)) :
    Prop where
  nonempty : ∃ c v, InForce edits c v
  claims : ∀ c v, InForce edits c v → ∃ u w, InForce edits c u ∧ report.lookup c = some w ∧
    plainText E u = plainText E w
  gt : ∀ c b, c ≠ "__proto__" → BoundInForce edits .gt c b → Bounded E .gt report (c, b)
  gte : (∀ p ∈ edits, p.get "gt" = .ok .undefined) →
    ∀ c b, c ≠ "__proto__" → BoundInForce edits .gte c b → Bounded E .gte report (c, b)

section Decision

variable {edits : List JsValue} {policy : ReleasePolicy E} (hm : Means edits policy)
  {record : AttestationRecord}
include hm

theorem Means.nonempty_iff : policy.claims ≠ [] ↔ ∃ c v, InForce edits c v := by
  constructor
  · intro hne
    obtain ⟨c, hc⟩ := List.exists_mem_of_ne_nil _ hne
    obtain ⟨-, hvalues, hlisted⟩ := hm.claims c hc
    obtain ⟨p, hp⟩ := List.exists_mem_of_ne_nil _ hvalues
    exact ⟨c.1, p.val, (hlisted _).mpr ⟨p, hp, rfl⟩⟩
  · rintro ⟨c, v, hforce⟩
    obtain ⟨ps, hmem⟩ := hm.complete c v hforce
    exact List.ne_nil_of_mem hmem

theorem Means.claims_iff :
    (∀ c ∈ policy.claims, HasVisible E record c) ↔
      ∀ c v, InForce edits c v → ∃ u w, InForce edits c u ∧
        (recordJson record).lookup c = some w ∧ plainText E u = plainText E w := by
  have hproto : ∀ c ∈ claimNames, c ∉ objectPrototype := by decide
  constructor
  · intro hvisible c v hforce
    obtain ⟨ps, hmem⟩ := hm.complete c v hforce
    obtain ⟨hname, -, hlisted⟩ := hm.claims _ hmem
    rcases hvisible _ hmem with ⟨w, hw, p, hp, htext⟩ | ⟨-, hinherited, -⟩
    · refine ⟨p.val, w.val, (hlisted _).mpr ⟨p, hp, rfl⟩, ?_, htext⟩
      rw [ReleasePolicy.lookup_record, hw]
      rfl
    · exact absurd hinherited (hproto c hname)
  · intro hall c hc
    obtain ⟨-, hvalues, hlisted⟩ := hm.claims c hc
    obtain ⟨v, hv⟩ := List.exists_mem_of_ne_nil _ hvalues
    obtain ⟨u, w, hforce, hlookup, htext⟩ := hall c.1 v.val ((hlisted _).mpr ⟨v, hv, rfl⟩)
    obtain ⟨p, hp, rfl⟩ := (hlisted u).mp hforce
    rw [ReleasePolicy.lookup_record] at hlookup
    obtain ⟨w', hw', rfl⟩ := Option.map_eq_some_iff.mp hlookup
    exact .inl ⟨w', hw', p, hp, htext⟩

theorem Means.bounds_iff (record : AttestationRecord) {op : Operator} {rel : ℚ → ℚ → Prop}
    (hrel : ∀ q b, op.holds (some q) (some b) = true ↔ rel q b) :
    (∀ bs, boundsIn policy op = some bs → ∀ x ∈ bs, WithinBound rel record x) ↔
      ∀ c b, c ≠ "__proto__" → BoundInForce edits op c b →
        Bounded E op (recordJson record) (c, b) := by
  constructor
  · intro hall c b hc hforce
    obtain ⟨bs, hbs, x, hx, rfl, rfl⟩ := (hm.bounds op c b hc).mp hforce
    exact (ReleasePolicy.bounded_iff op rel hrel record x).mpr (hall bs hbs x hx)
  · intro hall bs hbs x hx
    have hc := claimName_ne_proto (hm.bounded op bs hbs x hx)
    refine (ReleasePolicy.bounded_iff op rel hrel record x).mp (hall x.1 x.2.val hc ?_)
    exact (hm.bounds op _ _ hc).mpr ⟨bs, hbs, x, hx, rfl, rfl⟩

theorem Means.operators_iff :
    policy.LastOperatorHolds record ↔
      (∀ c b, c ≠ "__proto__" → BoundInForce edits .gt c b →
        Bounded E .gt (recordJson record) (c, b)) ∧
      ((∀ p ∈ edits, p.get "gt" = .ok .undefined) → ∀ c b, c ≠ "__proto__" →
        BoundInForce edits .gte c b → Bounded E .gte (recordJson record) (c, b)) := by
  have hgt := hm.bounds_iff record ReleasePolicy.gt_holds
  have hgte := hm.bounds_iff record ReleasePolicy.gte_holds
  rw [← hgt, ← hgte, ← hm.gt]
  unfold ReleasePolicy.LastOperatorHolds boundsIn
  cases policy.gt with
  | some bs => simp
  | none => cases policy.gte <;> simp

/-- The evaluator accepts what has all that is in force, and nothing else. -/
theorem Means.decides (logContextIn : Option LogContext) :
    Succeeds (validateKeyReleasePolicy E policy.toPolicy (ReleasePolicy.attestationValue record)
      logContextIn) ↔ MeetsInForce E edits (recordJson record) := by
  rw [ReleasePolicy.succeeds_evaluator, hm.nonempty_iff, hm.claims_iff, hm.operators_iff]
  constructor
  · rintro ⟨hnonempty, hclaims, hgt, hgte⟩
    exact ⟨hnonempty, hclaims, hgt, hgte⟩
  · rintro ⟨hnonempty, hclaims, hgt, hgte⟩
    exact ⟨hnonempty, hclaims, hgt, hgte⟩

end Decision

/-- In a running service, the policy that is read accepts a record just when it has all that the
    accepted proposals leave in force. -/
theorem accepts_iff_meets (h : Host) (kv : Kv) (xs : List Transaction)
    (hdeclares : Declares h.toEngine (acceptedEdits h kv xs .keyRelease))
    {fields : List (String × Json)} (hatt : ∀ f ∈ fields, IsPlain f.2)
    (logContextIn : Option LogContext) :
    Accepts h.toEngine (serviceAfter h kv xs) logContextIn (.json (.obj fields)) ↔
      MeetsInForce h.toEngine (acceptedEdits h kv xs .keyRelease) fields := by
  obtain ⟨record, rfl⟩ := exists_record hatt
  unfold Accepts
  rw [succeeds_bind]
  constructor
  · rintro ⟨policy, hread, hsucceeds⟩
    obtain ⟨P, rfl, hmeans⟩ := stored_policy_means h kv xs hdeclares hread
    exact (hmeans.decides logContextIn).mp hsucceeds
  · intro hmeets
    have hedits : acceptedEdits h kv xs .keyRelease ≠ [] := by
      obtain ⟨c, v, p, hlast, -⟩ := hmeets.nonempty
      exact List.ne_nil_of_mem (List.mem_of_mem_filter (List.mem_of_getLast? hlast))
    have hclaims := claims_of_service h kv xs
    rw [if_neg hedits] at hclaims
    obtain ⟨items, hitems⟩ := hclaims
    have hdocument : documentOf (serviceAfter h kv xs).keyRelease "claims" = some items := by
      unfold documentOf
      rw [hitems]
    have hread := (readBack_iff (E := h.toEngine) (follows_service h kv xs) _ logContextIn).mpr
      ⟨items, hdocument, rfl⟩
    obtain ⟨P, hpolicy, hmeans⟩ := stored_policy_means h kv xs hdeclares hread
    refine ⟨_, hread, ?_⟩
    rw [← hpolicy]
    exact (hmeans.decides logContextIn).mpr hmeets

end SetKeyReleasePolicy
end DepaKms
