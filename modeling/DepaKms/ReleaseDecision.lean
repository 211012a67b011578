import DepaKms.KeyReleasePolicy

set_option autoImplicit false

/-!
# What the evaluator decides

On policies and attestations of plain values the loops are conjunctions over their
entries. On any input the claims pass just when each of them has a listed match.
-/
namespace DepaKms

def Succeeds {α : Type} (x : Handler (ServiceResult α)) : Prop :=
  ∃ r, x.result = .ok r ∧ r.isFailure = false

instance {α : Type} (x : Handler (ServiceResult α)) : Decidable (Succeeds x) :=
  decidable_of_iff ((match x.result with
      | .ok r => r.isFailure
      | .error _ => true) = false) (by
    unfold Succeeds
    cases x.result <;> simp)

inductive IsPlain : Json → Prop
  | bool (b : Bool) : IsPlain (.bool b)
  | num (q : ℚ) : IsPlain (.num q)
  | str (s : String) : IsPlain (.str s)

def plainText (E : Engine) : Json → String
  | .bool b => if b then "true" else "false"
  | .num q => E.numberToString q
  | .str s => s
  | _ => ""

theorem render_plain (E : Engine) {v : Json} (h : IsPlain v) :
    v.render E = .ok (plainText E v) := by
  cases h <;> simp only [Json.render, plainText]

theorem toStringCall_plain (E : Engine) {v : Json} (h : IsPlain v) :
    v.toStringCall E = .ok (plainText E v) := by
  cases h <;> simp only [Json.toStringCall, Json.render, plainText]

namespace KeyReleasePolicy

variable (E : Engine) (logContext : LogContext)

def attested (fields : List (String × Json)) (key : String) : JsValue :=
  match fields.lookup key with
  | some v => .json v
  | none => inherited key

def attestedText (fields : List (String × Json)) (key : String) : Option String :=
  match fields.lookup key with
  | some v => some (plainText E v)
  | none => if key ∈ objectPrototype then some (builtinText E key) else none

variable {fields : List (String × Json)}

theorem get_record (key : String) :
    JsValue.get (.json (.obj fields)) key = .ok (attested fields key) := by
  simp only [JsValue.get, Json.get, attested]
  cases fields.lookup key <;> rfl

theorem typeOf_attested_undefined (key : String) :
    (attested fields key).typeOf = "undefined" ↔ attestedText E fields key = none := by
  unfold attested attestedText inherited
  cases h : fields.lookup key with
  | some v => cases v <;> simp [JsValue.typeOf]
  | none =>
    by_cases hk : key ∈ objectPrototype
    · simp only [if_pos hk, JsValue.typeOf]
      split_ifs <;> simp
    · simp [if_neg hk, JsValue.typeOf]

theorem plain_of_lookup (hatt : ∀ f ∈ fields, IsPlain f.2) {key : String} {v : Json}
    (h : fields.lookup key = some v) : IsPlain v := by
  obtain ⟨l₁, l₂, hl, -⟩ := List.lookup_eq_some_iff.mp h
  exact hatt (key, v) (by rw [hl]; exact List.mem_append_right _ List.mem_cons_self)

theorem render_attested (hatt : ∀ f ∈ fields, IsPlain f.2) (key : String) :
    (attested fields key).render E = .ok ((attestedText E fields key).getD "undefined") := by
  unfold attested attestedText inherited
  cases h : fields.lookup key with
  | some v => exact render_plain E (plain_of_lookup hatt h)
  | none => by_cases hk : key ∈ objectPrototype <;> simp [hk, JsValue.render]

theorem toStringCall_attested (hatt : ∀ f ∈ fields, IsPlain f.2) {key text : String}
    (h : attestedText E fields key = some text) :
    (attested fields key).toStringCall E = .ok text := by
  unfold attested
  unfold attestedText at h
  cases hl : fields.lookup key with
  | some v =>
    rw [hl] at h
    cases h
    exact toStringCall_plain E (plain_of_lookup hatt hl)
  | none =>
    rw [hl] at h
    dsimp only at h
    split_ifs at h with hk
    cases h
    simp [inherited, hk, JsValue.toStringCall]

theorem result_matching (hatt : ∀ f ∈ fields, IsPlain f.2) {key text : String}
    (ht : attestedText E fields key = some text) (ps : List Json) (hps : ∀ p ∈ ps, IsPlain p) :
    (matching E logContext (attested fields key) ps).result =
      .ok (ps.filter fun p => plainText E p = text) := by
  induction ps with
  | nil => rfl
  | cons p ps ih =>
    have hp : IsPlain p := hps p List.mem_cons_self
    have hr : (attested fields key).render E = .ok text := by
      rw [render_attested E hatt, ht, Option.getD_some]
    have hs := toStringCall_attested E hatt ht
    have ih := ih fun q hq => hps q (List.mem_cons_of_mem _ hq)
    simp only [matching, Logged.result_bind, Logged.result_monadLift, render_plain E hp, hr,
      toStringCall_plain E hp, hs, Logger.result_debug, ih, Logged.result_pure, List.filter_cons,
      decide_eq_true_eq, Logged.ok_bind]

theorem renderElements_plain {xs : List Json} (h : ∀ x ∈ xs, IsPlain x) :
    ∃ texts, Json.renderElements E xs = .ok texts := by
  induction xs with
  | nil => exact ⟨[], by simp only [Json.renderElements]⟩
  | cons x xs ih =>
    obtain ⟨texts, ht⟩ := ih fun y hy => h y (List.mem_cons_of_mem _ hy)
    have hx := render_plain E (h x List.mem_cons_self)
    exact ⟨_, by simp only [Json.renderElements, hx, ht, Logged.ok_bind]; rfl⟩

theorem render_plainList {xs : List Json} (h : ∀ x ∈ xs, IsPlain x) :
    ∃ text, (Json.arr xs).render E = .ok text := by
  obtain ⟨texts, ht⟩ := renderElements_plain E h
  exact ⟨_, by simp only [Json.render, ht, Logged.ok_bind]; rfl⟩

def PlainList (v : Json) : Prop := ∃ xs, v = .arr xs ∧ ∀ x ∈ xs, IsPlain x

def Listed (fields : List (String × Json)) (entry : String × Json) : Prop :=
  ∃ text, attestedText E fields entry.1 = some text ∧
    ∃ xs, entry.2 = .arr xs ∧ ∃ p ∈ xs, plainText E p = text

theorem claimsLoop_decides (hatt : ∀ f ∈ fields, IsPlain f.2) (entries : List (String × Json))
    (hplain : ∀ e ∈ entries, PlainList e.2) :
    ∃ o, (claimsLoop E logContext (.json (.obj fields)) entries).result = .ok o ∧
      (o = none ↔ ∀ e ∈ entries, Listed E fields e) := by
  induction entries with
  | nil => exact ⟨none, rfl, by simp⟩
  | cons e entries ih =>
    obtain ⟨key, policyValue⟩ := e
    obtain ⟨xs, hxs, hps⟩ := hplain _ List.mem_cons_self
    obtain ⟨policyText, hpt⟩ := render_plainList E hps
    dsimp only at hxs
    subst hxs
    obtain ⟨o, ho, hiff⟩ := ih fun e he => hplain e (List.mem_cons_of_mem _ he)
    have hr := render_attested E hatt key
    rw [List.forall_mem_cons, ← hiff]
    simp only [claimsLoop, Logged.result_bind, Logged.result_monadLift, get_record, hr, hpt,
      Logged.ok_bind, logChecking, Logger.result_debug, Logged.result_ite]
    by_cases hu : (attested fields key).typeOf = "undefined"
    · have hnone := (typeOf_attested_undefined E key).mp hu
      rw [if_pos hu]
      simp [Listed, hnone]
    · rw [if_neg hu]
      obtain ⟨text, htext⟩ :=
        Option.ne_none_iff_exists'.mp (mt (typeOf_attested_undefined E key).mpr hu)
      have hm := result_matching E logContext hatt htext xs hps
      simp only [filterable, hm, Logged.ok_bind]
      have hlisted : Listed E fields (key, .arr xs) ↔
          (xs.filter fun p => plainText E p = text).length ≠ 0 := by
        rw [← Nat.pos_iff_ne_zero, List.length_pos_iff_exists_mem]
        simp only [Listed, htext, Option.some.injEq, Json.arr.injEq, exists_eq_left',
          List.mem_filter, decide_eq_true_eq]
      by_cases hz : (xs.filter fun p => plainText E p = text).length = 0
      · rw [if_pos hz]
        have hnot : ¬ Listed E fields (key, .arr xs) := fun h => hlisted.mp h hz
        simp [hnot]
      · rw [if_neg hz]
        exact ⟨o, ho, by simp [hlisted.mpr hz]⟩

theorem claimsLoop_none_iff (hatt : ∀ f ∈ fields, IsPlain f.2) (entries : List (String × Json))
    (hplain : ∀ e ∈ entries, PlainList e.2) :
    (claimsLoop E logContext (.json (.obj fields)) entries).result = .ok none ↔
      ∀ e ∈ entries, Listed E fields e := by
  obtain ⟨o, ho, hiff⟩ := claimsLoop_decides E logContext hatt entries hplain
  rw [ho, ← hiff, Except.ok.injEq]

section Passing

variable {E logContext}

/-- The list holds nothing without a text, and a value with the text of the claim. -/
def Matches (E : Engine) (w : JsValue) (xs : List Json) : Prop :=
  ∃ text, w.toStringCall E = .ok text ∧ (∀ p ∈ xs, ∃ t, p.toStringCall E = .ok t) ∧
    ∃ p ∈ xs, p.toStringCall E = .ok text

theorem matching_sound {attestationValue : JsValue} {ps found : List Json}
    (h : (matching E logContext attestationValue ps).result = .ok found) :
    ∀ p ∈ found, p ∈ ps ∧ ∃ text, p.toStringCall E = .ok text ∧
      attestationValue.toStringCall E = .ok text := by
  induction ps generalizing found with
  | nil =>
    cases h
    intro p hp
    cases hp
  | cons q qs ih =>
    simp only [matching, Logged.result_bind, Logged.result_monadLift, Logger.result_debug,
      Logged.result_pure, Logged.bind_ok_iff] at h
    obtain ⟨_, -, _, -, _, -, policyString, hq, attestationString, ha, rest, hrest, hf⟩ := h
    simp only [Except.ok.injEq] at hf
    subst hf
    have ih := ih hrest
    intro p hp
    split_ifs at hp with heq
    · rcases List.mem_cons.mp hp with rfl | hp
      · exact ⟨List.mem_cons_self, policyString, hq, heq ▸ ha⟩
      · exact ⟨List.mem_cons_of_mem _ (ih p hp).1, (ih p hp).2⟩
    · exact ⟨List.mem_cons_of_mem _ (ih p hp).1, (ih p hp).2⟩

theorem matching_texts {w : JsValue} {ps found : List Json}
    (h : (matching E logContext w ps).result = .ok found) :
    ∀ p ∈ ps, ∃ t, p.toStringCall E = .ok t := by
  induction ps generalizing found with
  | nil => simp
  | cons q qs ih =>
    simp only [matching, Logged.result_bind, Logged.result_monadLift, Logger.result_debug,
      Logged.result_pure, Logged.bind_ok_iff] at h
    obtain ⟨_, -, _, -, _, -, policyString, hq, _, -, rest, hrest, -⟩ := h
    rw [List.forall_mem_cons]
    exact ⟨⟨policyString, hq⟩, ih hrest⟩

variable (logContext) in
theorem matching_complete {w : JsValue} {text : String} (hw : w.toStringCall E = .ok text)
    {ps : List Json} (hps : ∀ p ∈ ps, ∃ t, p.toStringCall E = .ok t) :
    ∃ found, (matching E logContext w ps).result = .ok found ∧
      ∀ p ∈ ps, p.toStringCall E = .ok text → p ∈ found := by
  induction ps with
  | nil => exact ⟨[], rfl, by simp⟩
  | cons q qs ih =>
    obtain ⟨⟨t, ht⟩, hqs⟩ := List.forall_mem_cons.mp hps
    obtain ⟨found, hfound, hall⟩ := ih hqs
    have hqr : q.render E = .ok t := Json.render_of_toStringCall ht
    have hwr : w.render E = .ok text := JsValue.render_of_toStringCall hw
    refine ⟨if t = text then q :: found else found, ?_, ?_⟩
    · simp only [matching, Logged.result_bind, Logged.result_monadLift, Logger.result_debug,
        Logged.result_pure, hqr, hwr, ht, hw, hfound, Logged.ok_bind]
    · rw [List.forall_mem_cons]
      constructor
      · intro hq
        cases ht.symm.trans hq
        simp
      · intro p hp hpt
        split_ifs
        · exact List.mem_cons_of_mem _ (hall p hp hpt)
        · exact hall p hp hpt

theorem filterable_ok {v : Json} {xs : List Json} (h : filterable v = .ok xs) : v = .arr xs := by
  cases v <;> simp_all [filterable]

theorem typeOf_builtin (name : String) : (JsValue.builtin name).typeOf ≠ "undefined" := by
  simp only [JsValue.typeOf]
  split_ifs <;> simp

theorem renderElements_of_texts {xs : List Json} (h : ∀ x ∈ xs, ∃ t, x.toStringCall E = .ok t) :
    ∃ texts, Json.renderElements E xs = .ok texts := by
  induction xs with
  | nil => exact ⟨[], by simp only [Json.renderElements]⟩
  | cons x xs ih =>
    obtain ⟨⟨t, ht⟩, hxs⟩ := List.forall_mem_cons.mp h
    obtain ⟨texts, hts⟩ := ih hxs
    exact ⟨_, by simp only [Json.renderElements, Json.render_of_toStringCall ht, hts, Logged.ok_bind]; rfl⟩

/-- What the loop asks of one entry of the policy. -/
def Passes (E : Engine) (attestationClaims : JsValue) (entry : String × Json) : Prop :=
  ∃ w xs, attestationClaims.get entry.1 = .ok w ∧ entry.2 = .arr xs ∧ Matches E w xs

theorem typeOf_of_toStringCall {w : JsValue} {text : String} (hw : w.toStringCall E = .ok text) :
    w.typeOf ≠ "undefined" := by
  cases w with
  | undefined => cases hw
  | builtin name => exact typeOf_builtin name
  | json v => cases v <;> simp [JsValue.typeOf]

theorem claimsLoop_passes_iff (attestationClaims : JsValue) (entries : List (String × Json)) :
    (claimsLoop E logContext attestationClaims entries).result = .ok none ↔
      ∀ e ∈ entries, Passes E attestationClaims e := by
  induction entries with
  | nil => exact ⟨fun _ => by simp, fun _ => rfl⟩
  | cons e entries ih =>
    obtain ⟨key, policyValue⟩ := e
    rw [List.forall_mem_cons, ← ih]
    constructor
    · intro h
      simp only [claimsLoop, Logged.result_bind, Logged.result_monadLift, logChecking,
        Logger.result_debug, Logged.result_ite, Logged.bind_ok_iff] at h
      obtain ⟨w, hw, _, -, _, -, _, -, h⟩ := h
      split_ifs at h with hu
      · simp at h
      · simp only [Logged.bind_ok_iff] at h
        obtain ⟨xs, hxs, found, hfound, h⟩ := h
        split_ifs at h with hz
        · simp at h
        · have hnonempty : found ≠ [] := fun hn => hz (by rw [hn]; rfl)
          obtain ⟨p, hp⟩ := List.exists_mem_of_ne_nil found hnonempty
          obtain ⟨hmem, text, hpt, hwt⟩ := matching_sound hfound p hp
          exact ⟨⟨w, xs, hw, filterable_ok hxs, text, hwt, matching_texts hfound, p, hmem, hpt⟩, h⟩
    · rintro ⟨⟨w, xs, hw, hxs, text, hwt, htexts, p, hmem, hpt⟩, hrest⟩
      dsimp only at hw hxs
      subst hxs
      obtain ⟨found, hfound, hall⟩ := matching_complete logContext hwt htexts
      have hnonzero : found.length ≠ 0 := by
        intro hz
        have hp := hall p hmem hpt
        rw [List.length_eq_zero_iff.mp hz] at hp
        cases hp
      obtain ⟨texts, hts⟩ := renderElements_of_texts htexts
      have harr : ∃ text, (Json.arr xs).render E = .ok text :=
        ⟨_, by simp only [Json.render, hts, Logged.ok_bind]; rfl⟩
      obtain ⟨listText, hlist⟩ := harr
      simp only [claimsLoop, Logged.result_bind, Logged.result_monadLift, hw,
        JsValue.render_of_toStringCall hwt, hlist, Logged.ok_bind, logChecking,
        Logger.result_debug, Logged.result_ite, if_neg (typeOf_of_toStringCall hwt), filterable,
        hfound, if_neg hnonzero, hrest]

def HasMatch (E : Engine) (attestationClaims : JsValue) (entry : String × Json) : Prop :=
  ∃ xs, entry.2 = .arr xs ∧ ∃ p ∈ xs, ∃ text, p.toStringCall E = .ok text ∧
    ∃ w, attestationClaims.get entry.1 = .ok w ∧ w.toStringCall E = .ok text

theorem Passes.hasMatch {attestationClaims : JsValue} {entry : String × Json}
    (hp : Passes E attestationClaims entry) : HasMatch E attestationClaims entry := by
  obtain ⟨w, xs, hw, hxs, text, hwt, -, p, hp, hpt⟩ := hp
  exact ⟨xs, hxs, p, hp, text, hpt, w, hw, hwt⟩

end Passing

def plainNumber : Json → Option ℚ
  | .num q => some q
  | v => E.parseFloat (plainText E v)

theorem attestationNumber_plain {v : Json} (h : IsPlain v) :
    attestationNumber E (.json v) = .ok (plainNumber E v) := by
  cases h <;> rfl

def Bounded (op : Operator) (fields : List (String × Json)) (entry : String × Json) : Prop :=
  ∃ v, fields.lookup entry.1 = some v ∧
    ∃ bound, policyNumber E entry.2 = some bound ∧ op.holds (plainNumber E v) (some bound) = true

theorem holds_none (op : Operator) (b : Option ℚ) : op.holds none b = false := by
  cases op <;> rfl

theorem render_bound {v : Json} {b : ℚ} (h : policyNumber E v = some b) :
    ∃ text, v.render E = .ok text := by
  cases v <;> simp_all [policyNumber, Json.render]

theorem operatorsLoop_decides (op : Operator) (hatt : ∀ f ∈ fields, IsPlain f.2)
    (entries : List (String × Json)) (hbound : ∀ e ∈ entries, ∃ b, policyNumber E e.2 = some b) :
    ∃ o, (operatorsLoop E logContext op (.json (.obj fields)) entries).result = .ok o ∧
      (o = none ↔ ∀ e ∈ entries, Bounded E op fields e) := by
  induction entries with
  | nil => exact ⟨none, rfl, by simp⟩
  | cons e entries ih =>
    obtain ⟨key, policyValue⟩ := e
    obtain ⟨bound, hb⟩ := hbound _ List.mem_cons_self
    dsimp only at hb
    obtain ⟨policyText, hpt⟩ := render_bound E hb
    obtain ⟨o, ho, hiff⟩ := ih fun e he => hbound e (List.mem_cons_of_mem _ he)
    have hr := render_attested E hatt key
    have hnull : policyValue.isNull = false := by
      cases policyValue <;> simp_all [policyNumber, Json.isNull]
    rw [List.forall_mem_cons, ← hiff]
    simp only [operatorsLoop, Logged.result_bind, Logged.result_monadLift, get_record, hr, hpt,
      Logged.ok_bind, logChecking, Logger.result_debug, Logged.result_ite, hnull, hb]
    cases hl : fields.lookup key with
    | none =>
      have hnot : ¬ Bounded E op fields (key, policyValue) := by
        rintro ⟨v, hv, -⟩
        rw [hl] at hv
        cases hv
      rw [show attested fields key = inherited key by rw [attested, hl]]
      unfold inherited
      by_cases hk : key ∈ objectPrototype
      · rw [if_pos hk, if_neg (typeOf_builtin key)]
        simp [attestationNumber, JsValue.parseFloat, holds_none, hnot]
      · rw [if_neg hk]
        simp [JsValue.typeOf, hnot]
    | some v =>
      have hv := plain_of_lookup hatt hl
      rw [show attested fields key = .json v by rw [attested, hl]]
      have htype : (JsValue.json v).typeOf ≠ "undefined" := by cases hv <;> simp [JsValue.typeOf]
      rw [if_neg htype]
      have hbounded : Bounded E op fields (key, policyValue) ↔
          op.holds (plainNumber E v) (some bound) = true := by
        simp [Bounded, hl, hb]
      simp only [attestationNumber_plain E hv, Logged.ok_bind, hbounded, Bool.false_eq_true,
        if_false]
      by_cases hholds : op.holds (plainNumber E v) (some bound) = true
      · simp only [hholds, if_true, true_and]
        exact ⟨o, ho, Iff.rfl⟩
      · simp [hholds]

theorem succeeds_of_loop {loop : Handler (Option (ServiceResult JsValue))}
    {attestationClaims : JsValue}
    (hfail : ∀ r, loop.result = .ok (some r) → r.isFailure = true) :
    Succeeds (do
      match ← loop with
      | some failure => pure failure
      | none => ServiceResult.succeeded E attestationClaims logContext none) ↔
      loop.result = .ok none := by
  unfold Succeeds
  rw [Logged.result_bind]
  cases hl : loop.result with
  | error e => simp
  | ok o =>
    cases o with
    | none => simp [ServiceResult.isFailure]
    | some r => simp [hfail r hl]

def Refusal (r : ServiceResult JsValue) : Prop := r.isFailure = true ∧ r.statusCode ≠ 410

theorem refusal_failed {code : ℕ} (hc : code ≠ 410) (error : ErrorResponse)
    (logContext : LogContext) :
    Logged.Ensures
      (do
        let failure ← ServiceResult.failed E error code logContext []
        pure (some failure) : Handler (Option (ServiceResult JsValue)))
      (fun o => ∀ r, o = some r → Refusal r) := by
  intro o ho r hr
  cases ho
  cases hr
  exact ⟨rfl, hc⟩

theorem claimsLoop_failure (attestationClaims : JsValue) (entries : List (String × Json)) :
    Logged.Ensures (claimsLoop E logContext attestationClaims entries)
      (fun o => ∀ r, o = some r → Refusal r) := by
  induction entries with
  | nil => exact .pure (by simp)
  | cons e entries ih =>
    refine .skip fun _ => .skip fun _ => .skip fun _ => .skip fun _ => .ite (fun _ => ?_) fun _ => ?_
    · exact refusal_failed E (by decide) _ _
    · refine .skip fun _ => .skip fun _ => .ite (fun _ => ?_) fun _ => ih
      exact refusal_failed E (by decide) _ _

theorem operatorsLoop_failure (op : Operator) (attestationClaims : JsValue)
    (entries : List (String × Json)) :
    Logged.Ensures (operatorsLoop E logContext op attestationClaims entries)
      (fun o => ∀ r, o = some r → Refusal r) := by
  induction entries with
  | nil => exact .pure (by simp)
  | cons e entries ih =>
    refine .skip fun _ => .skip fun _ => .skip fun _ => .skip fun _ =>
      .ite (fun _ => refusal_failed E (by decide) _ _)
        fun _ => .ite (fun _ => refusal_failed E (by decide) _ _) fun _ => ?_
    cases policyNumber E e.2 with
    | none => exact refusal_failed E (by decide) _ _
    | some bound =>
      exact .skip fun _ => .skip fun _ => .ite (fun _ => ih)
        fun _ => refusal_failed E (by decide) _ _

theorem succeeds_claims_iff {claims attestation : List (String × Json)} :
    Succeeds (validateKeyReleasePolicyClaims E logContext (.obj claims)
      (.json (.obj attestation))) ↔
      (claimsLoop E logContext (.json (.obj attestation)) (enumerate claims)).result =
        .ok none :=
  succeeds_of_loop E logContext fun r h => (claimsLoop_failure E logContext _ _ _ h r rfl).1

/-- A result that is no failure hands the claims on; a failure is never for something gone. -/
def HandsOn (attestationClaims : JsValue) (r : ServiceResult JsValue) : Prop :=
  r.statusCode ≠ 410 ∧
    (r.isFailure = false → ∃ headers, r = .success attestationClaims headers)

theorem handsOn_failed {code : ℕ} (hc : code ≠ 410) (attestationClaims : JsValue)
    (error : ErrorResponse) :
    Logged.Ensures (ServiceResult.failed E error code logContext [])
      (HandsOn attestationClaims) := by
  intro r hr
  cases hr
  exact ⟨hc, by simp [ServiceResult.isFailure]⟩

theorem handsOn_succeeded (attestationClaims : JsValue) :
    Logged.Ensures (ServiceResult.succeeded E attestationClaims logContext none)
      (HandsOn attestationClaims) := by
  intro r hr
  cases hr
  exact ⟨by simp [ServiceResult.statusCode], fun _ => ⟨_, rfl⟩⟩

theorem handsOn_loop {loop : Handler (Option (ServiceResult JsValue))} {attestationClaims : JsValue}
    (hfail : Logged.Ensures loop fun o => ∀ r, o = some r → Refusal r) :
    Logged.Ensures (do
      match ← loop with
      | some failure => pure failure
      | none => ServiceResult.succeeded E attestationClaims logContext none)
      (HandsOn attestationClaims) := by
  refine .bind hfail fun o ho => ?_
  cases o with
  | some r =>
    obtain ⟨hf, hc⟩ := ho r rfl
    exact .pure ⟨hc, by simp [hf]⟩
  | none => exact handsOn_succeeded E logContext attestationClaims

theorem handsOn_claims (claims : Json) (attestationClaims : JsValue) :
    Logged.Ensures (validateKeyReleasePolicyClaims E logContext claims attestationClaims)
      (HandsOn attestationClaims) :=
  .ite (fun _ => handsOn_failed E logContext (by decide) _ _) fun _ =>
    .ite (fun _ => handsOn_failed E logContext (by decide) _ _) fun _ =>
      .skip fun _ => handsOn_loop E logContext (claimsLoop_failure E logContext _ _)

theorem handsOn_operator (op : Operator) (bounds : Option Json) (attestationClaims : JsValue)
    (before : ServiceResult JsValue) (hb : HandsOn attestationClaims before) :
    Logged.Ensures (applyOperator E logContext op bounds attestationClaims before)
      (HandsOn attestationClaims) := by
  have hops (v : Json) : Logged.Ensures
      (validateKeyReleasePolicyOperators E logContext op v attestationClaims)
      (HandsOn attestationClaims) :=
    .ite (fun _ => handsOn_failed E logContext (by decide) _ _) fun _ =>
      .ite (fun _ => handsOn_failed E logContext (by decide) _ _) fun _ =>
        .skip fun _ => handsOn_loop E logContext (operatorsLoop_failure E logContext op _ _)
  unfold applyOperator
  split
  · exact .pure hb
  · exact .pure hb
  · exact .skip fun _ => hops _

theorem handsOn_evaluator (policy : IKeyReleasePolicy) (attestationClaims : JsValue)
    (logContextIn : Option LogContext) :
    Logged.Ensures (validateKeyReleasePolicy E policy attestationClaims logContextIn)
      (HandsOn attestationClaims) := by
  refine .skip fun _ => .ite (fun _ => handsOn_failed E _ (by decide) _ _) fun _ => ?_
  refine .bind (handsOn_claims E _ policy.claims attestationClaims) fun claimsResult hc => ?_
  refine .ite (fun _ => .pure hc) fun _ => ?_
  exact .bind (handsOn_operator E _ .gte policy.gte attestationClaims claimsResult hc)
    fun gteResult hg => handsOn_operator E _ .gt policy.gt attestationClaims gteResult hg

section Accepted

variable {E logContext}

section Entries

variable {claims : Json} {entries : List (String × Json)}
  (hentries : claims.ownEntries = .ok entries) {attestationClaims : JsValue}
include hentries

theorem claims_answer {r : ServiceResult JsValue}
    (hr : (validateKeyReleasePolicyClaims E logContext claims attestationClaims).result = .ok r)
    (hsucceeds : r.isFailure = false) :
    (∀ e ∈ entries, Passes E attestationClaims e) ∧
      r = .success attestationClaims (ServiceResult.withRequestId logContext []) := by
  unfold validateKeyReleasePolicyClaims at hr
  split_ifs at hr
  · cases hr
    cases hsucceeds
  · cases hr
    cases hsucceeds
  · rw [Logged.result_bind, Logged.result_monadLift, hentries, Logged.ok_bind, Logged.result_bind] at hr
    obtain ⟨o, ho, hr⟩ := Logged.bind_ok_iff.mp hr
    cases o with
    | some failure =>
      cases hr
      rw [(claimsLoop_failure E logContext _ _ _ ho r rfl).1] at hsucceeds
      cases hsucceeds
    | none =>
      cases hr
      exact ⟨(claimsLoop_passes_iff attestationClaims entries).mp ho, rfl⟩

theorem claims_passed (hnonempty : entries ≠ [])
    (hall : ∀ e ∈ entries, Passes E attestationClaims e) :
    (validateKeyReleasePolicyClaims E logContext claims attestationClaims).result =
      .ok (.success attestationClaims (ServiceResult.withRequestId logContext [])) := by
  have hnull : claims.isNull = false := by
    cases claims with
    | null => cases hentries
    | _ => rfl
  have hnullish : isNullish attestationClaims = false := by
    obtain ⟨e, he⟩ := List.exists_mem_of_ne_nil entries hnonempty
    obtain ⟨w, xs, hw, -⟩ := hall e he
    cases attestationClaims with
    | undefined => cases hw
    | builtin name => rfl
    | json v =>
      cases v with
      | null => cases hw
      | _ => rfl
  have hloop : (claimsLoop E logContext attestationClaims entries).result = .ok none :=
    (claimsLoop_passes_iff attestationClaims entries).mpr hall
  unfold validateKeyReleasePolicyClaims
  simp only [hnull, hnullish, Bool.false_eq_true, if_false, Logged.result_bind,
    Logged.result_monadLift, hentries, Logged.ok_bind, hloop, ServiceResult.result_succeeded]
  rfl

end Entries

/-- The operators of a policy whose claims have passed. -/
def checkBounds (E : Engine) (logContext : LogContext) (gte gt : Option Json)
    (attestationClaims : JsValue) : Handler (ServiceResult JsValue) := do
  let gteResult ← applyOperator E logContext .gte gte attestationClaims
    (.success attestationClaims (ServiceResult.withRequestId logContext []))
  applyOperator E logContext .gt gt attestationClaims gteResult

theorem evaluator_accepts_iff {policy : IKeyReleasePolicy} {entries : List (String × Json)}
    (hentries : policy.claims.ownEntries = .ok entries) (attestationClaims : JsValue)
    (logContextIn : Option LogContext) :
    Succeeds (validateKeyReleasePolicy E policy attestationClaims logContextIn) ↔
      entries ≠ [] ∧ (∀ e ∈ entries, Passes E attestationClaims e) ∧
        Succeeds (checkBounds E (LogContext.within logContextIn "validateKeyReleasePolicy")
          policy.gte policy.gt attestationClaims) := by
  unfold Succeeds validateKeyReleasePolicy
  simp only [Logged.result_bind, Logged.result_monadLift, hentries, Logged.ok_bind]
  by_cases hempty : entries.length = 0
  · have hnil := List.length_eq_zero_iff.mp hempty
    rw [if_pos hempty]
    simp [hnil, ServiceResult.isFailure]
  · have hnonempty : entries ≠ [] := fun hnil => hempty (by rw [hnil]; rfl)
    rw [if_neg hempty]
    constructor
    · rintro ⟨r, hr, hsucceeds⟩
      rw [Logged.result_bind] at hr
      obtain ⟨claimsResult, hclaims, hr⟩ := Logged.bind_ok_iff.mp hr
      split_ifs at hr with hfailure
      · cases hr
        rw [hfailure] at hsucceeds
        cases hsucceeds
      · obtain ⟨hall, rfl⟩ := claims_answer hentries hclaims (by simpa using hfailure)
        exact ⟨hnonempty, hall, r, hr, hsucceeds⟩
    · rintro ⟨-, hall, r, hr, hsucceeds⟩
      refine ⟨r, ?_, hsucceeds⟩
      rw [Logged.result_bind, claims_passed hentries hnonempty hall, Logged.ok_bind]
      exact hr

end Accepted

/-- No policy without claims grants anything, and each claim of the policy must match. -/
theorem evaluator_sound (policy : IKeyReleasePolicy) (attestationClaims : JsValue)
    (logContextIn : Option LogContext)
    (h : Succeeds (validateKeyReleasePolicy E policy attestationClaims logContextIn)) :
    ∃ entries, policy.claims.ownEntries = .ok entries ∧ entries ≠ [] ∧
      ∀ e ∈ entries, HasMatch E attestationClaims e := by
  obtain ⟨entries, hentries⟩ : ∃ entries, policy.claims.ownEntries = .ok entries := by
    obtain ⟨r, hr, -⟩ := h
    unfold validateKeyReleasePolicy at hr
    rw [Logged.result_bind, Logged.result_monadLift] at hr
    obtain ⟨entries, hentries, -⟩ := Logged.bind_ok_iff.mp hr
    exact ⟨entries, hentries⟩
  obtain ⟨hnonempty, hall, -⟩ := (evaluator_accepts_iff hentries attestationClaims logContextIn).mp h
  exact ⟨entries, hentries, hnonempty, fun e he => (hall e he).hasMatch⟩

end KeyReleasePolicy

end DepaKms
