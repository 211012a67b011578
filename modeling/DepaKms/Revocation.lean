import DepaKms.PolicyHistory

set_option autoImplicit false

/-!
# What a removal means for the evaluator

The action removes by `===` and deletes a claim that runs out of values; the evaluator
matches by rendering and looks at listed claims only.
-/
namespace DepaKms
namespace SetKeyReleasePolicy

open KeyReleasePolicy (evaluator_sound validateKeyReleasePolicy getKeyReleasePolicyFromMap)

variable {E : Engine}

/-- Only scalars can be named: `===` never holds of a parsed list or object. -/
theorem scalar_of_namesValue {c : String} {v : Json} {args : JsValue}
    (h : namesValue c v args = true) : v.IsScalar := by
  obtain ⟨e, -, he⟩ := List.any_eq_true.mp h
  rw [Bool.and_eq_true] at he
  obtain ⟨x, -, hx⟩ := List.any_eq_true.mp he.2
  rw [Json.strictEq_comm] at hx
  exact Json.scalar_of_strictEq hx

theorem not_listed_run {l : PolicyLedger} {c : String} {v : Json} (hl : l.listed c v = false)
    {proposals : List JsValue}
    (hadds : ∀ q ∈ proposals, isAdd q = true → namesValue c v q = false) :
    (run PolicyLedger.edit l proposals).listed c v = false := by
  induction proposals generalizing l with
  | nil => exact hl
  | cons q proposals ih =>
    refine ih ?_ fun q' hq' => hadds q' (List.mem_cons_of_mem _ hq')
    change (if namesValue c v q then isAdd q else l.listed c v) = false
    split_ifs with hnames
    · by_contra hadd
      rw [hadds q List.mem_cons_self (by simpa using hadd)] at hnames
      cases hnames
    · exact hl

/-- The value has been removed from the claim, and no successful proposal has added it since. -/
def Revoked (E : Engine) (c : String) (v : Json) (kv : Kv) : Prop :=
  ∃ (initial removed : Kv) (before : List JsValue) (p : JsValue) (after : List JsValue),
    initial.keyRelease = ∅ ∧
      (set_key_release_policy E).enact (proposed E initial before) p = some removed ∧
      isAdd p = false ∧ namesValue c v p = true ∧
      (∀ q ∈ successful E removed after, isAdd q = true → namesValue c v q = false) ∧
      kv = proposed E removed after

theorem follows_revoked {c : String} {v : Json} {kv : Kv} (h : Revoked E c v kv) :
    v.IsScalar ∧ ∃ l : PolicyLedger, Follows kv.keyRelease l ∧ l.listed c v = false := by
  obtain ⟨initial, removed, before, p, after, hinitial, hremove, htype, hnames, hadds, rfl⟩ := h
  have hbefore := follows_proposed (E := E) (hinitial ▸ follows_empty) before
  have hremoved := follows_enact hbefore hremove
  refine ⟨scalar_of_namesValue hnames, _, follows_proposed hremoved after, ?_⟩
  refine not_listed_run ?_ hadds
  simp only [PolicyLedger.edit, hnames, if_true, htype]

/-- The policy lists nothing at all, or lists the claim and no other value of that rendering. -/
def Guards (E : Engine) (claims : Json) (c : String) (v : Json) : Prop :=
  claims.ownEntries = .ok [] ∨ ∃ xs, claims.get c = .ok (.json (.arr xs)) ∧
    ∀ u ∈ xs, u.render E = v.render E → u = v

theorem mem_of_lookup {fields : List (String × Json)} {c : String} {w : Json}
    (h : fields.lookup c = some w) : (c, w) ∈ fields := by
  obtain ⟨before, after, rfl, -⟩ := List.lookup_eq_some_iff.mp h
  exact List.mem_append_right _ List.mem_cons_self

/-- The evaluator rejects a revoked value wherever the policy still guards the claim. -/
theorem revoked_value_rejected (E : Engine) {kv : Kv} {c : String} {v : Json}
    (hrevoked : Revoked E c v kv) {policy : IKeyReleasePolicy} {logContextIn : Option LogContext}
    (hpolicy : (getKeyReleasePolicyFromMap E kv.keyRelease logContextIn).result = .ok policy)
    (hguards : Guards E policy.claims c v) {attestation w : JsValue}
    (hw : attestation.get c = .ok w) (hrender : w.render E = v.render E)
    (logContext : Option LogContext) :
    ¬ Succeeds (validateKeyReleasePolicy E policy attestation logContext) := by
  intro hsucceeds
  obtain ⟨hscalar, l, hfollows, hlisted⟩ := follows_revoked hrevoked
  obtain ⟨claims, hdocument, rfl⟩ := (readBack_iff hfollows policy logContextIn).mp hpolicy
  obtain ⟨entries, hentries, hnonempty, hmatch⟩ := evaluator_sound E _ attestation _ hsucceeds
  dsimp only at hguards hentries
  rcases hguards with hnone | ⟨xs, hget, hothers⟩
  · exact hnonempty (Except.ok.inj (hentries.symm.trans hnone))
  · have hholds := hfollows.claims
    rcases documentOf_eq hholds with ⟨items, hitems, fields, rfl, hfields⟩ | ⟨hitems, -⟩
    · rw [hdocument] at hitems
      cases hitems
      cases hentries
      have hlookup := Json.get_json_iff.mp hget
      obtain ⟨ys, hys, u, hu, text, hutext, w', hw', hwtext⟩ :=
        hmatch (c, .arr xs) ((mem_enumerate _ _).mpr (mem_of_lookup hlookup))
      cases hys
      cases hw.symm.trans hw'
      have hsame : u.render E = v.render E := by
        rw [Json.render_of_toStringCall hutext, ← hrender, JsValue.render_of_toStringCall hwtext]
      have huv := hothers u hu hsame
      subst huv
      -- The one value that matches is the removed one, and that is not listed.
      have hlists := hfields c
      rw [hlookup] at hlists
      obtain ⟨zs, hzs, hincludes⟩ := hlists
      cases hzs
      rw [← hincludes u hscalar, (Json.includes_iff hscalar).mpr hu] at hlisted
      cases hlisted
    · rw [hdocument] at hitems
      cases hitems

theorem revoked_sample {c : String} {v : Json} (add remove : JsValue) (removed : Kv)
    (h : (set_key_release_policy sampleEngine).enact
      (proposed sampleEngine Kv.empty [add]) remove = some removed)
    (htype : isAdd remove = false) (hnames : namesValue c v remove = true) :
    Revoked sampleEngine c v removed :=
  ⟨Kv.empty, removed, [add], remove, [], rfl, h, htype, hnames,
    fun _ hq => absurd hq List.not_mem_nil, rfl⟩

theorem revoked_value_rejected_sample :
    ¬ Succeeds (validateKeyReleasePolicy sampleEngine
      ⟨"add", .obj [("x-ms-sevsnpvm-vmpl", .arr [.num 0])],
        some (.obj [("x-ms-sevsnpvm-vmpl", .num 0)]), none⟩
      (.json (.obj [("x-ms-sevsnpvm-vmpl", .str "1")])) none) := by
  have hrevoked : Revoked sampleEngine "x-ms-sevsnpvm-vmpl" (.num 1)
      (proposed sampleEngine Kv.empty [sampleAdd, sampleRemove]) :=
    revoked_sample sampleAdd sampleRemove _ rfl rfl rfl
  have hpolicy : (getKeyReleasePolicyFromMap sampleEngine
      (proposed sampleEngine Kv.empty [sampleAdd, sampleRemove]).keyRelease none).result =
        .ok ⟨"add", .obj [("x-ms-sevsnpvm-vmpl", .arr [.num 0])],
          some (.obj [("x-ms-sevsnpvm-vmpl", .num 0)]), none⟩ := rfl
  refine revoked_value_rejected sampleEngine hrevoked (w := .json (.str "1")) hpolicy
    (.inr ⟨[.num 0], rfl, fun u hu hrender => ?_⟩) rfl (by decide +kernel) none
  cases List.mem_singleton.mp hu
  exact absurd hrender (by decide +kernel)

/-- A claim whose last value is removed, and a number listed beside its text. -/
theorem revoked_value_accepted :
    (∃ kv policy, Revoked sampleEngine "x-ms-sevsnpvm-hostdata" (.str "73973b78") kv ∧
      (getKeyReleasePolicyFromMap sampleEngine kv.keyRelease none).result = .ok policy ∧
      Succeeds (validateKeyReleasePolicy sampleEngine policy
        (.json (.obj [("x-ms-sevsnpvm-hostdata", .str "73973b78"), ("x-ms-ver", .str "2")])) none)) ∧
    ∃ kv policy, Revoked sampleEngine "x-ms-sevsnpvm-vmpl" (.num 1) kv ∧
      (getKeyReleasePolicyFromMap sampleEngine kv.keyRelease none).result = .ok policy ∧
      Succeeds (validateKeyReleasePolicy sampleEngine policy
        (.json (.obj [("x-ms-sevsnpvm-vmpl", .num 1)])) none) := by
  constructor
  · refine ⟨_, _, revoked_sample
      (sampleProposal "add"
        [("claims", .obj [("x-ms-sevsnpvm-hostdata", .str "73973b78"), ("x-ms-ver", .str "2")])])
      (sampleProposal "remove" [("claims", .obj [("x-ms-sevsnpvm-hostdata", .str "73973b78")])])
      _ rfl rfl rfl, rfl, ?_⟩
    decide +kernel
  · refine ⟨_, _, revoked_sample
      (sampleProposal "add" [("claims", .obj [("x-ms-sevsnpvm-vmpl", .arr [.num 1, .str "1"])])])
      (sampleProposal "remove" [("claims", .obj [("x-ms-sevsnpvm-vmpl", .num 1)])])
      _ rfl rfl rfl, rfl, ?_⟩
    decide +kernel

end SetKeyReleasePolicy
end DepaKms
