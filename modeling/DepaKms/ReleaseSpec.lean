import DepaKms.ReleaseDecision
import DepaKms.SampleHost

set_option autoImplicit false

/-!
# The meaning of a release policy

A policy grants a release to a record when every claim has a listed value and every
bound of every operator is met. The evaluator is compared with this meaning.
-/
namespace DepaKms

abbrev Plain : Type := {v : Json // IsPlain v}

abbrev Bound (E : Engine) : Type :=
  {v : Json // ∃ q, KeyReleasePolicy.policyNumber E v = some q}

abbrev AttestationRecord : Type := List (String × Plain)

structure ReleasePolicy (E : Engine) where
  claims : List (String × List Plain)
  gte : Option (List (String × Bound E))
  gt : Option (List (String × Bound E))

namespace ReleasePolicy

open KeyReleasePolicy

variable {E : Engine}

def WithinBound (rel : ℚ → ℚ → Prop) (record : AttestationRecord) (b : String × Bound E) : Prop :=
  ∃ v, record.lookup b.1 = some v ∧ ∃ q bound, plainNumber E v.val = some q ∧
    policyNumber E b.2.val = some bound ∧ rel q bound

def HasListed (record : AttestationRecord) (c : String × List Plain) : Prop :=
  ∃ v, record.lookup c.1 = some v ∧ ∃ p ∈ c.2, plainText E p.val = plainText E v.val

structure Grants (policy : ReleasePolicy E) (record : AttestationRecord) : Prop where
  nonempty : policy.claims ≠ []
  claims : ∀ c ∈ policy.claims, HasListed (E := E) record c
  gte : ∀ bounds, policy.gte = some bounds → ∀ b ∈ bounds, WithinBound (· ≥ ·) record b
  gt : ∀ bounds, policy.gt = some bounds → ∀ b ∈ bounds, WithinBound (· > ·) record b

def claimsJson (claims : List (String × List Plain)) : List (String × Json) :=
  claims.map fun c => (c.1, .arr (c.2.map Subtype.val))

def boundsJson (bounds : List (String × Bound E)) : List (String × Json) :=
  bounds.map fun b => (b.1, b.2.val)

def recordJson (record : AttestationRecord) : List (String × Json) :=
  record.map fun f => (f.1, f.2.val)

def toPolicy (policy : ReleasePolicy E) : IKeyReleasePolicy :=
  ⟨"add", .obj (claimsJson policy.claims), policy.gte.map fun b => .obj (boundsJson b),
    policy.gt.map fun b => .obj (boundsJson b)⟩

def attestationValue (record : AttestationRecord) : JsValue := .json (.obj (recordJson record))

theorem lookup_record (record : AttestationRecord) (key : String) :
    (recordJson record).lookup key = (record.lookup key).map Subtype.val := by
  induction record with
  | nil => rfl
  | cons f record ih =>
    obtain ⟨name, v⟩ := f
    simp only [recordJson, List.map_cons, List.lookup_cons] at ih ⊢
    cases key == name
    · exact ih
    · rfl

theorem record_plain (record : AttestationRecord) : ∀ f ∈ recordJson record, IsPlain f.2 := by
  intro f hf
  obtain ⟨g, -, rfl⟩ := List.mem_map.mp hf
  exact g.2.property

theorem claims_plain (claims : List (String × List Plain)) :
    ∀ e ∈ enumerate (claimsJson claims), PlainList e.2 := by
  intro e he
  obtain ⟨c, -, rfl⟩ := List.mem_map.mp ((mem_enumerate _ _).mp he)
  refine ⟨c.2.map Subtype.val, rfl, fun x hx => ?_⟩
  obtain ⟨p, -, rfl⟩ := List.mem_map.mp hx
  exact p.property

theorem bounds_numeric (bounds : List (String × Bound E)) :
    ∀ e ∈ enumerate (boundsJson bounds), ∃ q, policyNumber E e.2 = some q := by
  intro e he
  obtain ⟨b, -, rfl⟩ := List.mem_map.mp ((mem_enumerate _ _).mp he)
  exact b.2.property

/-- A claim as the evaluator reads it: the record is an object, and an object has the
    inherited members too. -/
def HasVisible (E : Engine) (record : AttestationRecord) (c : String × List Plain) : Prop :=
  HasListed (E := E) record c ∨
    (record.lookup c.1 = none ∧ c.1 ∈ objectPrototype ∧
      ∃ p ∈ c.2, plainText E p.val = builtinText E c.1)

theorem exists_listed (ps : List Plain) (text : String) :
    (∃ xs, Json.arr (ps.map Subtype.val) = .arr xs ∧ ∃ p ∈ xs, plainText E p = text) ↔
      ∃ p ∈ ps, plainText E p.val = text := by
  constructor
  · rintro ⟨xs, hxs, p, hp, ht⟩
    cases hxs
    obtain ⟨q, hq, rfl⟩ := List.mem_map.mp hp
    exact ⟨q, hq, ht⟩
  · rintro ⟨p, hp, ht⟩
    exact ⟨_, rfl, p.val, List.mem_map_of_mem hp, ht⟩

theorem listed_iff (record : AttestationRecord) (c : String × List Plain) :
    Listed E (recordJson record) (c.1, .arr (c.2.map Subtype.val)) ↔ HasVisible E record c := by
  unfold Listed attestedText HasVisible HasListed
  simp only [exists_listed, lookup_record]
  cases hl : record.lookup c.1 with
  | some v => simp only [Option.map_some, Option.some.injEq, exists_eq_left', reduceCtorEq,
      false_and, or_false]
  | none =>
    by_cases hk : c.1 ∈ objectPrototype
    · simp only [Option.map_none, hk, if_true, Option.some.injEq, exists_eq_left', reduceCtorEq,
        false_and, exists_false, true_and, false_or]
    · simp only [Option.map_none, hk, if_false, reduceCtorEq, false_and, exists_false, and_false,
        or_self]

theorem bounded_iff (op : Operator) (rel : ℚ → ℚ → Prop)
    (hrel : ∀ q b, op.holds (some q) (some b) = true ↔ rel q b) (record : AttestationRecord)
    (b : String × Bound E) :
    Bounded E op (recordJson record) (b.1, b.2.val) ↔ WithinBound rel record b := by
  unfold Bounded WithinBound
  rw [lookup_record]
  cases hl : record.lookup b.1 with
  | none => simp
  | some v =>
    simp only [Option.map_some, Option.some.injEq, exists_eq_left']
    constructor
    · rintro ⟨bound, hb, hh⟩
      cases hn : plainNumber E v.val with
      | none =>
        rw [hn, holds_none] at hh
        cases hh
      | some q =>
        rw [hn] at hh
        exact ⟨q, bound, rfl, hb, (hrel q bound).mp hh⟩
    · rintro ⟨q, bound, hq, hb, hh⟩
      exact ⟨bound, hb, by rw [hq]; exact (hrel q bound).mpr hh⟩

theorem forall_claims {record : AttestationRecord} {claims : List (String × List Plain)} :
    (∀ e ∈ enumerate (claimsJson claims), Listed E (recordJson record) e) ↔
      ∀ c ∈ claims, HasVisible E record c := by
  simp only [mem_enumerate, claimsJson, List.forall_mem_map, listed_iff]

theorem forall_bounds {op : Operator} {rel : ℚ → ℚ → Prop}
    (hrel : ∀ q b, op.holds (some q) (some b) = true ↔ rel q b) {record : AttestationRecord}
    {bounds : List (String × Bound E)} :
    (∀ e ∈ enumerate (boundsJson bounds), Bounded E op (recordJson record) e) ↔
      ∀ b ∈ bounds, WithinBound rel record b := by
  simp only [mem_enumerate, boundsJson, List.forall_mem_map, bounded_iff op rel hrel]

theorem gte_holds (q b : ℚ) : Operator.gte.holds (some q) (some b) = true ↔ q ≥ b := by
  simp [Operator.holds, numGe]

theorem gt_holds (q b : ℚ) : Operator.gt.holds (some q) (some b) = true ↔ q > b := by
  simp [Operator.holds, numGt]

variable (logContext : LogContext)

theorem succeeds_claims (policy : ReleasePolicy E) (record : AttestationRecord) :
    Succeeds (validateKeyReleasePolicyClaims E logContext policy.toPolicy.claims
      (attestationValue record)) ↔ ∀ c ∈ policy.claims, HasVisible E record c := by
  rw [← forall_claims, ← claimsLoop_none_iff E logContext (record_plain record) _
    (claims_plain policy.claims)]
  exact succeeds_claims_iff E logContext

theorem applyOperator_decides (op : Operator) {rel : ℚ → ℚ → Prop}
    (hrel : ∀ q b, op.holds (some q) (some b) = true ↔ rel q b)
    (bounds : Option (List (String × Bound E))) (record : AttestationRecord)
    (before : ServiceResult JsValue) :
    ∃ r, (applyOperator E logContext op (bounds.map fun b => .obj (boundsJson b))
        (attestationValue record) before).result = .ok r ∧
      (r.isFailure = false ↔
        match bounds with
        | none => before.isFailure = false
        | some bs => ∀ b ∈ bs, WithinBound rel record b) := by
  cases bounds with
  | none => exact ⟨before, rfl, Iff.rfl⟩
  | some bs =>
    obtain ⟨o, ho, hiff⟩ := operatorsLoop_decides E logContext op (record_plain record) _
      (bounds_numeric bs)
    have hfail := operatorsLoop_failure E logContext op _ _ o ho
    simp only [Option.map_some, applyOperator, validateKeyReleasePolicyOperators, Json.isNull,
      isNullish, attestationValue, Bool.false_eq_true, if_false, Json.ownEntries]
    rw [Logged.result_bind, Logger.result_debug, Logged.ok_bind, Logged.result_bind,
      Logged.result_monadLift, Logged.ok_bind, Logged.result_bind, ho, Logged.ok_bind]
    rw [← forall_bounds hrel, ← hiff]
    cases o with
    | none => exact ⟨_, rfl, by simp [ServiceResult.isFailure]⟩
    | some r => exact ⟨r, rfl, by simp [(hfail r rfl).1]⟩

/-- The operator whose result is returned: `gt` where the policy has it, else `gte`. -/
def LastOperatorHolds (policy : ReleasePolicy E) (record : AttestationRecord) : Prop :=
  match policy.gt, policy.gte with
  | some bs, _ => ∀ b ∈ bs, WithinBound (· > ·) record b
  | none, some bs => ∀ b ∈ bs, WithinBound (· ≥ ·) record b
  | none, none => True

theorem succeeds_evaluator (policy : ReleasePolicy E) (record : AttestationRecord)
    (logContextIn : Option LogContext) :
    Succeeds (validateKeyReleasePolicy E policy.toPolicy (attestationValue record) logContextIn) ↔
      policy.claims ≠ [] ∧ (∀ c ∈ policy.claims, HasVisible E record c) ∧
        policy.LastOperatorHolds record := by
  have hempty : (enumerate (claimsJson policy.claims)).length = 0 ↔ policy.claims = [] := by
    simp [enumerate_length, claimsJson]
  have hclaims := succeeds_claims (LogContext.within logContextIn "validateKeyReleasePolicy")
    policy record
  unfold Succeeds at hclaims ⊢
  simp only [validateKeyReleasePolicy, Logged.result_bind, Logged.result_monadLift, toPolicy,
    Json.ownEntries, Logged.ok_bind, Logged.result_ite, hempty] at hclaims ⊢
  by_cases hnil : policy.claims = []
  · simp [hnil, ServiceResult.isFailure]
  rw [if_neg hnil, ← hclaims]
  cases hc : (validateKeyReleasePolicyClaims E
      (LogContext.within logContextIn "validateKeyReleasePolicy")
      (.obj (claimsJson policy.claims)) (attestationValue record)).result with
  | error e => simp
  | ok claimsResult =>
    cases hf : claimsResult.isFailure with
    | true => simp [hf]
    | false =>
      obtain ⟨r₁, h₁, hiff₁⟩ := applyOperator_decides
        (LogContext.within logContextIn "validateKeyReleasePolicy") .gte gte_holds policy.gte record
        claimsResult
      obtain ⟨r₂, h₂, hiff₂⟩ := applyOperator_decides
        (LogContext.within logContextIn "validateKeyReleasePolicy") .gt gt_holds policy.gt record r₁
      rw [Logged.ok_bind, if_neg (by simp [hf]), h₁, Logged.ok_bind, h₂]
      simp only [Except.ok.injEq, exists_eq_left', hf, ne_eq, hnil, not_false_eq_true, true_and,
        hiff₂, hiff₁, LastOperatorHolds]
      cases policy.gt <;> cases policy.gte <;> rfl

/-- Every claim is the record's own, and `gte` is met also where `gt` follows it. -/
structure NothingOverlooked (policy : ReleasePolicy E) (record : AttestationRecord) : Prop where
  own : ∀ c ∈ policy.claims, record.lookup c.1 ≠ none
  gte : policy.gt ≠ none → ∀ bounds, policy.gte = some bounds →
    ∀ b ∈ bounds, WithinBound (· ≥ ·) record b

theorem grants_visible {policy : ReleasePolicy E} {record : AttestationRecord}
    (h : policy.Grants record) : ∀ c ∈ policy.claims, HasVisible E record c :=
  fun c hc => .inl (h.claims c hc)

theorem grants_lastOperator {policy : ReleasePolicy E} {record : AttestationRecord}
    (h : policy.Grants record) : policy.LastOperatorHolds record := by
  unfold LastOperatorHolds
  cases hgt : policy.gt with
  | some bs => exact h.gt bs hgt
  | none =>
    cases hgte : policy.gte with
    | some bs => exact h.gte bs hgte
    | none => trivial

/-- What the evaluator checks falls short of the meaning by exactly what it overlooks. -/
theorem grants_iff {policy : ReleasePolicy E} {record : AttestationRecord}
    (hnil : policy.claims ≠ []) (hvisible : ∀ c ∈ policy.claims, HasVisible E record c)
    (hlast : policy.LastOperatorHolds record) :
    policy.Grants record ↔ policy.NothingOverlooked record := by
  constructor
  · intro h
    refine ⟨fun c hc => ?_, fun _ => h.gte⟩
    obtain ⟨v, hv, -⟩ := h.claims c hc
    rw [hv]
    simp
  · intro h
    refine ⟨hnil, fun c hc => ?_, fun bounds hb => ?_, fun bounds hb => ?_⟩
    · rcases hvisible c hc with hlisted | ⟨hnone, -⟩
      · exact hlisted
      · exact absurd hnone (h.own c hc)
    · cases hgt : policy.gt with
      | some _ => exact h.gte (by simp [hgt]) bounds hb
      | none => simpa only [LastOperatorHolds, hgt, hb] using hlast
    · simpa only [LastOperatorHolds, hb] using hlast

/-- The evaluator agrees with the meaning of the policy unless it overlooks something on an
    input that passes what it looks at. -/
theorem evaluator_agrees_iff (E : Engine) (policy : ReleasePolicy E) (record : AttestationRecord)
    (logContextIn : Option LogContext) :
    (Succeeds (validateKeyReleasePolicy E policy.toPolicy (attestationValue record) logContextIn) ↔
        policy.Grants record) ↔
      (policy.claims ≠ [] → (∀ c ∈ policy.claims, HasVisible E record c) →
        policy.LastOperatorHolds record → policy.NothingOverlooked record) := by
  rw [succeeds_evaluator]
  constructor
  · intro h hnil hvisible hlast
    exact (grants_iff hnil hvisible hlast).mp (h.mp ⟨hnil, hvisible, hlast⟩)
  · intro h
    constructor
    · rintro ⟨hnil, hvisible, hlast⟩
      exact (grants_iff hnil hvisible hlast).mpr (h hnil hvisible hlast)
    · exact fun hg => ⟨hg.nonempty, grants_visible hg, grants_lastOperator hg⟩

def samplePolicy : ReleasePolicy sampleEngine where
  claims := [("x-ms-ver", [⟨.str "2", .str _⟩])]
  gte := some [("x-ms-sevsnpvm-guestsvn", ⟨.num 5, 5, rfl⟩)]
  gt := some [("x-ms-sevsnpvm-vmpl", ⟨.num 0, 0, rfl⟩)]

def sampleRecord : AttestationRecord :=
  [("x-ms-ver", ⟨.str "2", .str _⟩), ("x-ms-sevsnpvm-guestsvn", ⟨.num 1, .num _⟩),
    ("x-ms-sevsnpvm-vmpl", ⟨.num 1, .num _⟩)]

theorem evaluator_overlooks_gte :
    ¬ (Succeeds (validateKeyReleasePolicy sampleEngine samplePolicy.toPolicy
        (attestationValue sampleRecord) none) ↔ samplePolicy.Grants sampleRecord) := by
  rw [succeeds_evaluator]
  intro h
  have hgrants : samplePolicy.Grants sampleRecord := by
    refine h.mp ⟨by simp [samplePolicy], ?_, ?_⟩
    · intro c hc
      cases List.mem_singleton.mp hc
      exact .inl ⟨_, rfl, _, List.mem_cons_self, rfl⟩
    · intro b hb
      cases List.mem_singleton.mp hb
      exact ⟨_, rfl, 1, 0, rfl, rfl, by norm_num⟩
  obtain ⟨v, hv, q, bound, hq, hbound, hle⟩ := hgrants.gte _ rfl _ List.mem_cons_self
  cases hv
  cases hq
  cases hbound
  norm_num at hle

end ReleasePolicy

end DepaKms
