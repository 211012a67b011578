import DepaKms.PolicyLedger
import DepaKms.ReleaseDecision
import DepaKms.SampleHost

set_option autoImplicit false

/-!
# The release policy over a history of proposals

The policy that is read back is exactly what the accepted proposals say, and what a
removal then means for the evaluator.
-/
namespace DepaKms
namespace SetKeyReleasePolicy

open KeyReleasePolicy (Operator)

variable {E : Engine} {texts : ReleaseTexts} {map map' : KvMap String KvText}

/-- The documents of the policy map hold what the ledger has. -/
structure Follows (map : KvMap String KvText) (l : PolicyLedger) : Prop where
  claims : Holds map "claims" (HoldsClaims · l.listed)
  bounds : ∀ op : Operator, Holds map op.type (HoldsBounds · (l.bound op))
  complete : map.lookup "claims" = none → ∀ op : Operator, map.lookup op.type = none

theorem follows_empty : Follows ∅ PolicyLedger.empty where
  claims := ⟨[], rfl, fun _ _ _ => rfl⟩
  bounds _ := ⟨[], rfl, fun _ _ => rfl⟩
  complete _ _ := rfl

theorem follows_edits {map₁ : KvMap String KvText} (map₂ : KvMap String KvText) {items : Json}
    {l l' : PolicyLedger} (hm : Follows map l) (hclaims : map₁ = map.insert "claims" (.json items))
    (hitems : HoldsClaims items l'.listed)
    (hgte : Holds map₁ "gte" (HoldsBounds · (l.bound .gte)) →
      (∀ type, type ≠ "gte" → map₂.lookup type = map₁.lookup type) ∧
        Holds map₂ "gte" (HoldsBounds · (l'.bound .gte)))
    (hgt : Holds map₂ "gt" (HoldsBounds · (l.bound .gt)) →
      (∀ type, type ≠ "gt" → map'.lookup type = map₂.lookup type) ∧
        Holds map' "gt" (HoldsBounds · (l'.bound .gt))) : Follows map' l' := by
  subst hclaims
  obtain ⟨hframe₂, hgte⟩ := hgte ((hm.bounds .gte).congr (AList.lookup_insert_ne (by decide)))
  obtain ⟨hframe, hgt⟩ := hgt ((hm.bounds .gt).congr
    ((hframe₂ _ (by decide)).trans (AList.lookup_insert_ne (by decide))))
  have hlookup : map'.lookup "claims" = some (.json items) := by
    rw [hframe _ (by decide), hframe₂ _ (by decide), AList.lookup_insert]
  refine ⟨?_, fun op => ?_, fun hnone => ?_⟩
  · unfold Holds
    rw [hlookup]
    exact hitems
  · cases op with
    | gte => exact hgte.congr (hframe _ (by decide))
    | gt => exact hgt
  · rw [hlookup] at hnone
    cases hnone

/-- What a successful proposal does, one edit after the other. -/
theorem apply_cases {args : JsValue} (h : apply E texts map args = .ok map') :
    ∃ claims map₁ map₂, args.get "claims" = .ok claims ∧
      ((isAdd args = true ∧ add E texts "claims" map claims = .ok map₁ ∧
          operatorEdit args "gte" (addOperator texts) map₁ = .ok map₂ ∧
          operatorEdit args "gt" (addOperator texts) map₂ = .ok map') ∨
        (isAdd args = false ∧ remove E texts "claims" map claims = .ok map₁ ∧
          operatorEdit args "gte" (removeOperator E texts) map₁ = .ok map₂ ∧
          operatorEdit args "gt" (removeOperator E texts) map₂ = .ok map')) := by
  obtain ⟨type, htype, h⟩ := Logged.bind_ok_iff.mp h
  split at h
  · obtain ⟨claims, hclaims, h⟩ := Logged.bind_ok_iff.mp h
    obtain ⟨map₁, hadd, h⟩ := Logged.bind_ok_iff.mp h
    obtain ⟨map₂, hgte, hgt⟩ := Logged.bind_ok_iff.mp h
    exact ⟨claims, map₁, map₂, hclaims, .inl ⟨by simp [isAdd, htype], hadd, hgte, hgt⟩⟩
  · obtain ⟨claims, hclaims, h⟩ := Logged.bind_ok_iff.mp h
    obtain ⟨map₁, hremove, h⟩ := Logged.bind_ok_iff.mp h
    obtain ⟨map₂, hgte, hgt⟩ := Logged.bind_ok_iff.mp h
    exact ⟨claims, map₁, map₂, hclaims, .inr ⟨by simp [isAdd, htype], hremove, hgte, hgt⟩⟩
  · obtain ⟨text, -, h⟩ := Logged.bind_ok_iff.mp h
    cases h

theorem follows_apply {l : PolicyLedger} {args : JsValue} (hm : Follows map l)
    (h : apply E texts map args = .ok map') : Follows map' (l.edit args) := by
  obtain ⟨claims, map₁, map₂, hclaims, ⟨hadds, hadd, hgte, hgt⟩ | ⟨hremoves, hremove, hgte, hgt⟩⟩ :=
    apply_cases h
  · obtain ⟨items, hmap₁, hitems⟩ := add_spec hm.claims hclaims hadd
    obtain ⟨hlisted, hbound⟩ := l.edit_added hadds
    refine follows_edits map₂ hm hmap₁ ?_ (fun hholds => ?_) fun hholds => ?_
    · rw [hlisted]
      exact hitems
    · rw [hbound .gte]
      exact addOperator_spec .gte hholds hgte
    · rw [hbound .gt]
      exact addOperator_spec .gt hholds hgt
  · obtain ⟨items, hmap₁, hitems⟩ := remove_spec hm.claims hclaims hremove
    obtain ⟨hlisted, hbound⟩ := l.edit_removed hremoves
    refine follows_edits map₂ hm hmap₁ ?_ (fun hholds => ?_) fun hholds => ?_
    · rw [hlisted]
      exact hitems
    · rw [hbound .gte]
      exact removeOperator_spec .gte hholds hgte
    · rw [hbound .gt]
      exact removeOperator_spec .gt hholds hgt

def proposed (E : Engine) (kv : Kv) (proposals : List JsValue) : Kv :=
  run (commit (set_key_release_policy E).enact) kv proposals

def successful (E : Engine) (kv : Kv) (proposals : List JsValue) : List JsValue :=
  accepted (set_key_release_policy E).enact kv proposals

theorem apply_of_enact {kv kv' : Kv} {args : JsValue}
    (h : (set_key_release_policy E).enact kv args = some kv') :
    ∃ keyRelease, apply E releaseTexts kv.keyRelease args = .ok keyRelease ∧
      kv' = { kv with keyRelease } := by
  obtain ⟨-, hchanged⟩ := Action.enact_eq_some_iff.mp h
  obtain ⟨keyRelease, happly, hchanged⟩ := Logged.bind_ok_iff.mp hchanged
  cases hchanged
  exact ⟨keyRelease, happly, rfl⟩

theorem follows_enact {kv kv' : Kv} {l : PolicyLedger} {args : JsValue}
    (hm : Follows kv.keyRelease l) (h : (set_key_release_policy E).enact kv args = some kv') :
    Follows kv'.keyRelease (l.edit args) := by
  obtain ⟨keyRelease, happly, rfl⟩ := apply_of_enact h
  exact follows_apply hm happly

theorem follows_proposed {kv : Kv} {l : PolicyLedger} (hm : Follows kv.keyRelease l)
    (proposals : List JsValue) :
    Follows (proposed E kv proposals).keyRelease
      (run PolicyLedger.edit l (successful E kv proposals)) := by
  refine run_accepted (P := fun _ _ => True) (R := fun (kv : Kv) l => Follows kv.keyRelease l)
    ?_ hm (throughout_of_forall (fun _ _ _ => trivial) kv)
  intro kv l args kv' _ hm h
  exact follows_enact hm h

def claimNames : List String := claimTypes.map Prod.fst

theorem claimName_ne_proto {c : String} (hc : c ∈ claimNames) : c ≠ "__proto__" := by
  have hall : ∀ c ∈ claimNames, c ≠ "__proto__" := by decide
  exact hall c hc

def boundsOf (policy : IKeyReleasePolicy) : Operator → Option Json
  | .gte => policy.gte
  | .gt => policy.gt

/-- The value is in the list for the claim, in the policy read back from the map. -/
def Listed (E : Engine) (map : KvMap String KvText) (c : String) (v : Json) : Prop :=
  ∃ policy xs, (KeyReleasePolicy.getKeyReleasePolicyFromMap E map none).result = .ok policy ∧
    policy.claims.get c = .ok (.json (.arr xs)) ∧ v ∈ xs

/-- The bound of the operator for the claim, in the policy read back from the map. -/
def Threshold (E : Engine) (map : KvMap String KvText) (op : Operator) (c : String) (v : Json) :
    Prop :=
  ∃ policy bounds, (KeyReleasePolicy.getKeyReleasePolicyFromMap E map none).result = .ok policy ∧
    boundsOf policy op = some bounds ∧ bounds.get c = .ok (.json v)

def documentOf (map : KvMap String KvText) (type : String) : Option Json :=
  match map.lookup type with
  | some (.json v) => some v
  | _ => none

theorem readEntry_eq {R : Json → Prop} {type : String} (hm : Holds map type R)
    (logContext : LogContext) :
    KeyReleasePolicy.readEntry logContext map type = .ok (documentOf map type) := by
  unfold Holds at hm
  unfold KeyReleasePolicy.readEntry documentOf
  split at hm
  · rename_i hlookup
    rw [hlookup]
  · rename_i hlookup
    rw [hlookup]
  · cases hm

theorem readBack_iff {l : PolicyLedger} (hm : Follows map l) (policy : IKeyReleasePolicy)
    (logContextIn : Option LogContext) :
    (KeyReleasePolicy.getKeyReleasePolicyFromMap E map logContextIn).result = .ok policy ↔
      ∃ claims, documentOf map "claims" = some claims ∧
        policy = ⟨"add", claims, documentOf map "gte", documentOf map "gt"⟩ := by
  have hgte (logContext : LogContext) := readEntry_eq (hm.bounds .gte) logContext
  have hgt (logContext : LogContext) := readEntry_eq (hm.bounds .gt) logContext
  simp only [Operator.type] at hgte hgt
  unfold KeyReleasePolicy.getKeyReleasePolicyFromMap
  simp only [Logged.result_bind, Logged.result_lift, readEntry_eq hm.claims, Logged.ok_bind]
  cases documentOf map "claims" with
  | none => simp
  | some claims =>
    simp only [Logged.result_bind, Logged.result_lift, hgte, hgt, Logged.ok_bind,
      Logger.result_debug, Logged.result_pure, Except.ok.injEq, Option.some.injEq]
    constructor
    · rintro rfl
      exact ⟨claims, rfl, rfl⟩
    · rintro ⟨_, rfl, rfl⟩
      rfl

theorem documentOf_eq {R : Json → Prop} {type : String} (hm : Holds map type R) :
    (∃ items, documentOf map type = some items ∧ R items) ∨
      (documentOf map type = none ∧ map.lookup type = none ∧ R (.obj [])) := by
  unfold Holds at hm
  unfold documentOf
  split at hm
  · rename_i hlookup
    rw [hlookup]
    exact .inr ⟨rfl, rfl, hm⟩
  · rename_i items hlookup
    rw [hlookup]
    exact .inl ⟨items, rfl, hm⟩
  · cases hm

theorem Holds.imp {R R' : Json → Prop} {type : String} (hm : Holds map type R)
    (himp : ∀ items, R items → R' items) : Holds map type R' := by
  unfold Holds at hm ⊢
  split at hm
  · exact himp _ hm
  · exact himp _ hm
  · exact hm

/-- The document that is edited; an absent one counts as empty. -/
def edited (map : KvMap String KvText) (type : String) : Json :=
  (documentOf map type).getD (.obj [])

theorem Holds.edited {R : Json → Prop} {type : String} (hm : Holds map type R) :
    Holds map type (· = edited map type) ∧ R (edited map type) := by
  unfold Holds at hm ⊢
  unfold SetKeyReleasePolicy.edited documentOf
  split at hm
  · rename_i hlookup
    rw [hlookup]
    exact ⟨rfl, hm⟩
  · rename_i hlookup
    rw [hlookup]
    exact ⟨rfl, hm⟩
  · cases hm

theorem mem_list_iff {fields : List (String × Json)} {L : Json → Bool} {c : String}
    (hlists : Lists (fields.lookup c) L) {v : Json} (hv : v.IsScalar) :
    (∃ xs, (Json.obj fields).get c = .ok (.json (.arr xs)) ∧ v ∈ xs) ↔ L v = true := by
  simp only [Json.get_json_iff]
  cases hlookup : fields.lookup c with
  | none =>
    rw [hlookup] at hlists
    simp [hlists v hv]
  | some item =>
    rw [hlookup] at hlists
    obtain ⟨ys, rfl, hys⟩ := hlists
    rw [← hys v hv, Json.includes_iff hv]
    simp

theorem listed_iff {l : PolicyLedger} (hm : Follows map l) {c : String} {v : Json}
    (hv : v.IsScalar) : Listed E map c v ↔ l.listed c v = true := by
  unfold Listed
  simp only [readBack_iff hm]
  rcases documentOf_eq hm.claims with
    ⟨items, hdocument, fields, rfl, hfields⟩ | ⟨hdocument, -, fields, he, hfields⟩
  · rw [← mem_list_iff (hfields c) hv]
    constructor
    · rintro ⟨policy, xs, ⟨claims, hclaims, rfl⟩, hget, hmem⟩
      rw [hdocument] at hclaims
      cases hclaims
      exact ⟨xs, hget, hmem⟩
    · rintro ⟨xs, hget, hmem⟩
      exact ⟨_, xs, ⟨_, hdocument, rfl⟩, hget, hmem⟩
  · cases he
    have hnone := hfields c v hv
    simp [hdocument, hnone]

theorem threshold_iff {l : PolicyLedger} (hm : Follows map l) {op : Operator} {c : String}
    (hc : c ≠ "__proto__") (v : Json) : Threshold E map op c v ↔ l.bound op c = some v := by
  unfold Threshold
  simp only [readBack_iff hm]
  have hbounds (claims : Json) :
      boundsOf ⟨"add", claims, documentOf map "gte", documentOf map "gt"⟩ op =
        documentOf map op.type := by cases op <;> rfl
  rcases documentOf_eq (hm.bounds op) with
    ⟨items, hdocument, fields, rfl, hfields⟩ | ⟨hdocument, -, fields, he, hfields⟩
  · obtain ⟨claims, hclaims⟩ : ∃ claims, documentOf map "claims" = some claims := by
      rcases documentOf_eq hm.claims with ⟨claims, hclaims, -⟩ | ⟨-, hnone, -⟩
      · exact ⟨claims, hclaims⟩
      · have habsent := hm.complete hnone op
        unfold documentOf at hdocument
        rw [habsent] at hdocument
        cases hdocument
    rw [← hfields c hc, ← Json.get_json_iff]
    constructor
    · rintro ⟨policy, bounds, ⟨_, -, rfl⟩, hget, hv⟩
      rw [hbounds, hdocument] at hget
      cases hget
      exact hv
    · intro hv
      exact ⟨_, _, ⟨claims, hclaims, rfl⟩, (hbounds claims).trans hdocument, hv⟩
  · cases he
    have hnone : l.bound op c = none := (hfields c hc).symm
    constructor
    · rintro ⟨policy, bounds, ⟨_, -, rfl⟩, hget, -⟩
      rw [hbounds, hdocument] at hget
      cases hget
    · intro hv
      rw [hnone] at hv
      cases hv

theorem listed_proposed_iff {kv : Kv} (hkv : kv.keyRelease = ∅) (proposals : List JsValue)
    {c : String} {v : Json} (hv : v.IsScalar) :
    Listed E (proposed E kv proposals).keyRelease c v ↔
      ∃ p, lastOf (namesValue c v) (successful E kv proposals) = some p ∧ isAdd p = true := by
  have hfollows := follows_proposed (E := E) (hkv ▸ follows_empty) proposals
  rw [listed_iff hfollows hv, PolicyLedger.listed_run]
  cases lastOf (namesValue c v) (successful E kv proposals) <;> simp

theorem threshold_proposed_iff {kv : Kv} (hkv : kv.keyRelease = ∅) (proposals : List JsValue)
    (op : Operator) {c : String} (hc : c ≠ "__proto__") (v : Json) :
    Threshold E (proposed E kv proposals).keyRelease op c v ↔
      ∃ p, lastOf (namesBound op c) (successful E kv proposals) = some p ∧ isAdd p = true ∧
        boundGiven op c p = some v := by
  have hfollows := follows_proposed (E := E) (hkv ▸ follows_empty) proposals
  rw [threshold_iff hfollows hc, PolicyLedger.bound_run]
  cases lastOf (namesBound op c) (successful E kv proposals) with
  | none => simp
  | some p => cases hadd : isAdd p <;> simp [hadd]

theorem successful_snoc (kv : Kv) (proposals : List JsValue) (p : JsValue) :
    successful E kv (proposals ++ [p]) = successful E kv proposals ∨
      successful E kv (proposals ++ [p]) = successful E kv proposals ++ [p] := by
  unfold successful
  rw [accepted_snoc]
  cases (set_key_release_policy E).enact _ p with
  | none => exact .inl (List.append_nil _)
  | some kv' => exact .inr rfl

theorem lastOf_successful_snoc {relevant : JsValue → Bool} (kv : Kv) (proposals : List JsValue)
    {p : JsValue} (hp : relevant p = false) :
    lastOf relevant (successful E kv (proposals ++ [p])) =
      lastOf relevant (successful E kv proposals) := by
  rcases successful_snoc (E := E) kv proposals p with h | h
  · rw [h]
  · rw [h, lastOf_snoc, hp]
    rfl

def sampleProposal (type : String) (fields : List (String × Json)) : JsValue :=
  .json (.obj (("type", .str type) :: fields))

def sampleAdd : JsValue :=
  sampleProposal "add" [("claims", .obj [("x-ms-sevsnpvm-vmpl", .arr [.num 0, .num 1])]),
    ("gte", .obj [("x-ms-sevsnpvm-vmpl", .num 0)])]

def sampleRemove : JsValue :=
  sampleProposal "remove" [("claims", .obj [("x-ms-sevsnpvm-vmpl", .num 1)])]

theorem sample_successful :
    successful sampleEngine Kv.empty [sampleAdd, sampleRemove] = [sampleAdd, sampleRemove] := by
  rfl

end SetKeyReleasePolicy
end DepaKms
