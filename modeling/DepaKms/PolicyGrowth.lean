import DepaKms.Revocation

set_option autoImplicit false

/-!
# What an addition means for the evaluator

An added value lengthens the list of its claim and touches nothing else. The evaluator
therefore accepts what it accepted, and whatever it accepts besides has an added value.
-/
namespace DepaKms

namespace SetKeyReleasePolicy

open KeyReleasePolicy (Passes Matches checkBounds evaluator_accepts_iff validateKeyReleasePolicy
  getKeyReleasePolicyFromMap)

variable {E : Engine} {texts : ReleaseTexts}

def Distinct (fields : List (String × Json)) : Prop := (fields.map Prod.fst).Nodup

theorem Distinct.lookup_of_mem {fields : List (String × Json)} (hd : Distinct fields) {c : String}
    {v : Json} (hmem : (c, v) ∈ fields) : fields.lookup c = some v := by
  induction fields with
  | nil => cases hmem
  | cons f fields ih =>
    obtain ⟨name, w⟩ := f
    obtain ⟨hfresh, hd⟩ := List.nodup_cons.mp hd
    rcases List.mem_cons.mp hmem with he | hmem
    · cases he
      exact List.lookup_cons_self
    · have hne : (c == name) = false := by
        exact beq_false_of_ne fun he => hfresh (List.mem_map.mpr ⟨(c, v), hmem, he⟩)
      rw [List.lookup_cons, hne]
      exact ih hd hmem

theorem assign_distinct {fields : List (String × Json)} (hd : Distinct fields) (key : String)
    (v : Json) : Distinct (assign fields key v) := by
  unfold assign
  split_ifs with hany
  · have hnames : (fields.map fun f => if f.1 == key then (key, v) else f).map Prod.fst =
        fields.map Prod.fst := by
      rw [List.map_map]
      refine List.map_congr_left fun f _ => ?_
      by_cases he : f.1 = key
      · simp [he]
      · simp [he]
    unfold Distinct
    rw [hnames]
    exact hd
  · unfold Distinct
    rw [List.map_append, List.nodup_append]
    refine ⟨hd, List.nodup_singleton _, ?_⟩
    intro a ha b hb he
    obtain ⟨f, hf, rfl⟩ := List.mem_map.mp ha
    rw [List.map_singleton, List.mem_singleton] at hb
    refine hany (List.any_eq_true.mpr ⟨f, hf, ?_⟩)
    rw [beq_iff_eq, he, hb]

theorem filter_distinct {fields : List (String × Json)} (hd : Distinct fields)
    (p : String × Json → Bool) : Distinct (fields.filter p) :=
  List.Nodup.sublist (List.Sublist.map _ List.filter_sublist) hd

def Tidy (items : Json) : Prop := ∃ fields, items = .obj fields ∧ Distinct fields

theorem addClaim_tidy {items items' item : Json} {key : String} (ht : Tidy items)
    (h : addClaim E items key item = .ok items') : Tidy items' := by
  obtain ⟨fields, rfl, hd⟩ := ht
  obtain ⟨current, -, h⟩ := Logged.bind_ok_iff.mp h
  split_ifs at h
  · unfold setProperty at h
    cases h
    refine ⟨_, rfl, ?_⟩
    split_ifs
    · exact hd
    · exact assign_distinct hd _ _
  · obtain ⟨grown, -, h⟩ := Logged.bind_ok_iff.mp h
    split at h
    · cases h
      exact ⟨_, rfl, assign_distinct hd _ _⟩
    · cases h
      exact ⟨fields, rfl, hd⟩

theorem removeValue_tidy {items items' i : Json} {key : String} (ht : Tidy items)
    (h : removeValue E texts key items i = .ok items') : Tidy items' := by
  obtain ⟨fields, rfl, hd⟩ := ht
  obtain ⟨xs, -, ⟨-, rfl⟩ | ⟨-, rfl⟩⟩ := removeValue_cases h
  · exact ⟨_, rfl, filter_distinct hd _⟩
  · exact ⟨_, rfl, assign_distinct hd _ _⟩

theorem removeClaim_tidy {items items' item : Json} {key : String} (ht : Tidy items)
    (h : removeClaim E texts items key item = .ok items') : Tidy items' :=
  removeClaim_keeps (fun _ _ _ => removeValue_tidy) ht h

section Frames

variable {map map' : KvMap String KvText} {args : JsValue}

theorem edit_inserts {verb label type : String} {absent : Except JsError Json}
    {change : Json → String → Json → Except JsError Json} {claims : JsValue}
    (h : edit texts verb label type absent change map claims = .ok map') :
    ∃ items, map' = map.insert type (.json items) := by
  obtain ⟨items, -, h⟩ := Logged.bind_ok_iff.mp h
  obtain ⟨entries, -, h⟩ := Logged.bind_ok_iff.mp h
  obtain ⟨items', -, h⟩ := Logged.bind_ok_iff.mp h
  cases h
  exact ⟨items', rfl⟩

theorem operatorEdit_frame {type : String}
    {change : String → KvMap String KvText → JsValue → Except JsError (KvMap String KvText)}
    (hchange : ∀ bounds, change type map bounds = .ok map' → ∃ items,
      map' = map.insert type (.json items))
    (h : operatorEdit args type change map = .ok map') {other : String} (hother : other ≠ type) :
    map'.lookup other = map.lookup other := by
  obtain ⟨bounds, -, h⟩ := Logged.bind_ok_iff.mp h
  split_ifs at h
  · cases h
    rfl
  · obtain ⟨items, rfl⟩ := hchange bounds h
    exact AList.lookup_insert_ne hother

/-- The claims come out of the first edit; the operators that follow leave them alone. -/
theorem apply_claims (h : apply E texts map args = .ok map') :
    ∃ claims map₁, (add E texts "claims" map claims = .ok map₁ ∨
      remove E texts "claims" map claims = .ok map₁) ∧
      map'.lookup "claims" = map₁.lookup "claims" := by
  obtain ⟨claims, map₁, map₂, -, ⟨-, hadd, hgte, hgt⟩ | ⟨-, hremove, hgte, hgt⟩⟩ := apply_cases h
  · refine ⟨claims, map₁, .inl hadd, ?_⟩
    rw [operatorEdit_frame (fun bounds hb => edit_inserts hb) hgt (by decide),
      operatorEdit_frame (fun bounds hb => edit_inserts hb) hgte (by decide)]
  · refine ⟨claims, map₁, .inr hremove, ?_⟩
    rw [operatorEdit_frame (fun bounds hb => edit_inserts hb) hgt (by decide),
      operatorEdit_frame (fun bounds hb => edit_inserts hb) hgte (by decide)]

theorem apply_tidy (hm : Holds map "claims" Tidy) (h : apply E texts map args = .ok map') :
    Holds map' "claims" Tidy := by
  obtain ⟨claims, map₁, hedit, hlookup⟩ := apply_claims h
  refine Holds.congr ?_ hlookup
  rcases hedit with hadd | hremove
  · exact edit_keeps noItems_ok (fun _ _ _ => addClaim_tidy) hm hadd
  · exact edit_keeps absentKey_ok (fun _ _ _ => removeClaim_tidy) hm hremove

end Frames

theorem tidy_proposed {kv : Kv} (hkv : kv.keyRelease = ∅) (proposals : List JsValue) :
    Holds (proposed E kv proposals).keyRelease "claims" Tidy := by
  refine run_keeps (P := fun _ _ => True) (R := fun kv : Kv => Holds kv.keyRelease "claims" Tidy)
    ?_ ?_ (throughout_of_forall (fun _ _ _ => trivial) kv)
  · intro kv args kv' _ hm he
    obtain ⟨keyRelease, happly, rfl⟩ := apply_of_enact he
    exact apply_tidy hm happly
  · rw [hkv]
    exact ⟨[], rfl, List.nodup_nil⟩

/-- The value stands under the claim, alone or in a list. -/
def Named (named : List (String × Json)) (c : String) (v : Json) : Prop :=
  ∃ e ∈ named, e.1 = c ∧ v ∈ asList e.2

/-- Each list is longer by named values, and nothing else is new. -/
structure Grown (named old new : List (String × Json)) : Prop where
  absent : ∀ c, old.lookup c = none → new.lookup c = none
  longer : ∀ c xs, old.lookup c = some (.arr xs) →
    ∃ zs, new.lookup c = some (.arr (xs ++ zs)) ∧ ∀ z ∈ zs, Named named c z

theorem Named.snoc {named : List (String × Json)} {c : String} {v : Json} (hn : Named named c v)
    (e : String × Json) : Named (named ++ [e]) c v := by
  obtain ⟨e', he', hv⟩ := hn
  exact ⟨e', List.mem_append_left _ he', hv⟩

theorem grown_refl (old : List (String × Json)) : Grown [] old old where
  absent _ hc := hc
  longer _ xs hc := ⟨[], by rw [List.append_nil]; exact hc, by simp⟩

theorem Grown.step {named old new : List (String × Json)} (hg : Grown named old new)
    {key : String} {item items' : Json} {xs : List Json} (hkey : old.lookup key = some (.arr xs))
    (h : addClaim E (.obj new) key item = .ok items') :
    ∃ new', items' = .obj new' ∧ Grown (named ++ [(key, item)]) old new' := by
  obtain ⟨zs, hnew, hzs⟩ := hg.longer key xs hkey
  have hlists (j : Json) (hj : new.lookup key = some j) : ∃ xs, j = .arr xs :=
    ⟨_, Option.some.inj (hj.symm.trans hnew)⟩
  rcases addClaim_cases hlists h with ⟨ws, hws, rfl⟩ | ⟨hnone, -⟩ | ⟨hnone, -⟩
  · cases hnew.symm.trans hws
    obtain ⟨ys, hmerge, hys⟩ := merge_appends (xs ++ zs) (asList item)
    refine ⟨_, rfl, fun c hc => ?_, fun c xs' hc => ?_⟩
    · have hne : c ≠ key := by
        rintro rfl
        rw [hkey] at hc
        cases hc
      rw [lookup_assign, if_neg hne]
      exact hg.absent c hc
    · rw [lookup_assign]
      by_cases he : c = key
      · subst he
        cases hkey.symm.trans hc
        rw [if_pos rfl, hmerge]
        refine ⟨zs ++ ys, by rw [List.append_assoc], fun z hz => ?_⟩
        rcases List.mem_append.mp hz with hz | hz
        · exact (hzs z hz).snoc _
        · exact ⟨(c, item), by simp, rfl, hys z hz⟩
      · rw [if_neg he]
        obtain ⟨zs', hnew', hzs'⟩ := hg.longer c xs' hc
        exact ⟨zs', hnew', fun z hz => (hzs' z hz).snoc _⟩
  · cases hnone.symm.trans hnew
  · cases hnone.symm.trans hnew

theorem add_grows {map map' : KvMap String KvText} {old : List (String × Json)}
    (hstored : Holds map "claims" (· = .obj old)) {claims : JsValue} {named : List (String × Json)}
    (hnamed : ownEntriesOf claims = .ok named)
    (hpresent : ∀ e ∈ named, ∃ xs, old.lookup e.1 = some (.arr xs))
    (h : add E texts "claims" map claims = .ok map') :
    ∃ new, map' = map.insert "claims" (.json (.obj new)) ∧ Grown named old new := by
  let R (items : Json) (done : List (String × Json)) : Prop :=
    (∀ e ∈ done, ∃ xs, old.lookup e.1 = some (.arr xs)) → ∃ new, items = .obj new ∧ Grown done old new
  have hinit : Holds map "claims" (R · []) :=
    hstored.imp fun items hitems _ => ⟨old, hitems, grown_refl old⟩
  obtain ⟨entries, items, hentries, hmap, hitems⟩ := edit_history (R := R) noItems_ok
    (fun items done e items' hR hi hall => by
      obtain ⟨new, rfl, hg⟩ := hR fun e' he' => hall e' (List.mem_append_left _ he')
      obtain ⟨xs, hxs⟩ := hall e (by simp)
      exact hg.step hxs hi) hinit h
  cases hnamed.symm.trans hentries
  obtain ⟨new, rfl, hg⟩ := hitems hpresent
  exact ⟨new, hmap, hg⟩

theorem add_alone {map map' : KvMap String KvText} {args : JsValue} (hadd : isAdd args = true)
    (hgte : args.get "gte" = .ok .undefined) (hgt : args.get "gt" = .ok .undefined)
    (h : apply E texts map args = .ok map') :
    ∃ claims, args.get "claims" = .ok claims ∧ add E texts "claims" map claims = .ok map' := by
  obtain ⟨claims, map₁, map₂, hclaims, ⟨-, hmap₁, hmap₂, h⟩ | ⟨hremove, -⟩⟩ := apply_cases h
  · simp only [operatorEdit, hgte, hgt, Logged.ok_bind, isUndefined, if_true] at hmap₂ h
    cases hmap₂
    cases h
    exact ⟨claims, hclaims, hmap₁⟩
  · rw [hadd] at hremove
    cases hremove

theorem matches_append {w : JsValue} {xs zs : List Json} (hm : Matches E w xs)
    (hzs : ∀ z ∈ zs, IsPlain z) : Matches E w (xs ++ zs) := by
  obtain ⟨text, hw, htexts, p, hp, hpt⟩ := hm
  refine ⟨text, hw, fun q hq => ?_, p, List.mem_append_left _ hp, hpt⟩
  rcases List.mem_append.mp hq with hq | hq
  · exact htexts q hq
  · exact ⟨_, toStringCall_plain E (hzs q hq)⟩

theorem matches_of_append {w : JsValue} {xs zs : List Json} (hm : Matches E w (xs ++ zs)) :
    Matches E w xs ∨ ∃ text, w.toStringCall E = .ok text ∧ ∃ z ∈ zs, z.toStringCall E = .ok text := by
  obtain ⟨text, hw, htexts, p, hp, hpt⟩ := hm
  rcases List.mem_append.mp hp with hp | hp
  · exact .inl ⟨text, hw, fun q hq => htexts q (List.mem_append_left _ hq), p, hp, hpt⟩
  · exact .inr ⟨text, hw, p, hp, hpt⟩

/-- There are claims, and each of them passes. -/
structure AllPass (E : Engine) (attestation : JsValue) (fields : List (String × Json)) : Prop where
  nonempty : ∃ c item, fields.lookup c = some item
  all : ∀ c item, fields.lookup c = some item → Passes E attestation (c, item)

theorem allPass_iff {attestation : JsValue} {fields : List (String × Json)} (hd : Distinct fields) :
    (enumerate fields ≠ [] ∧ ∀ e ∈ enumerate fields, Passes E attestation e) ↔
      AllPass E attestation fields := by
  constructor
  · rintro ⟨hnonempty, hall⟩
    obtain ⟨⟨c, item⟩, he⟩ := List.exists_mem_of_ne_nil _ hnonempty
    refine ⟨⟨c, item, hd.lookup_of_mem ((mem_enumerate _ _).mp he)⟩, fun c item hitem => ?_⟩
    exact hall (c, item) ((mem_enumerate _ _).mpr (mem_of_lookup hitem))
  · rintro ⟨⟨c, item, hitem⟩, hall⟩
    refine ⟨List.ne_nil_of_mem ((mem_enumerate _ _).mpr (mem_of_lookup hitem)), fun e he => ?_⟩
    exact hall e.1 e.2 (hd.lookup_of_mem ((mem_enumerate _ _).mp he))

/-- The attestation has a value of this name with the text of one of the named values. -/
def HasNamed (E : Engine) (named : List (String × Json)) (attestation : JsValue) : Prop :=
  ∃ c v w text, Named named c v ∧ attestation.get c = .ok w ∧ w.toStringCall E = .ok text ∧
    v.toStringCall E = .ok text

section Decision

variable {named old new : List (String × Json)} (hg : Grown named old new)
  (hlists : ∀ c item, old.lookup c = some item → ∃ xs, item = .arr xs) {attestation : JsValue}
include hg hlists

theorem Grown.old_of_new {c : String} {item : Json} (hitem : new.lookup c = some item) :
    ∃ xs zs, old.lookup c = some (.arr xs) ∧ item = .arr (xs ++ zs) ∧
      ∀ z ∈ zs, Named named c z := by
  cases hold : old.lookup c with
  | none =>
    rw [hg.absent c hold] at hitem
    cases hitem
  | some item₀ =>
    obtain ⟨xs, rfl⟩ := hlists c item₀ hold
    obtain ⟨zs, hnew, hzs⟩ := hg.longer c xs hold
    cases hitem.symm.trans hnew
    exact ⟨xs, zs, rfl, rfl, hzs⟩

theorem Grown.still_passes (hplain : ∀ e ∈ named, ∀ v ∈ asList e.2, IsPlain v)
    (hpass : AllPass E attestation old) : AllPass E attestation new := by
  obtain ⟨⟨c, item, hitem⟩, hall⟩ := hpass
  refine ⟨?_, fun c item hitem => ?_⟩
  · obtain ⟨xs, rfl⟩ := hlists c item hitem
    obtain ⟨zs, hnew, -⟩ := hg.longer c xs hitem
    exact ⟨c, _, hnew⟩
  · obtain ⟨xs, zs, hold, rfl, hzs⟩ := hg.old_of_new hlists hitem
    obtain ⟨w, ys, hw, hys, hmatches⟩ := hall c _ hold
    cases hys
    refine ⟨w, _, hw, rfl, matches_append hmatches fun z hz => ?_⟩
    obtain ⟨e, he, -, hv⟩ := hzs z hz
    exact hplain e he z hv

theorem Grown.passes_newly (hpass : AllPass E attestation new) :
    AllPass E attestation old ∨ HasNamed E named attestation := by
  by_contra hneither
  rw [not_or] at hneither
  obtain ⟨hold, hnamed⟩ := hneither
  obtain ⟨⟨c, item, hitem⟩, hall⟩ := hpass
  refine hold ⟨?_, fun c item hitem => ?_⟩
  · obtain ⟨xs, zs, hold, -⟩ := hg.old_of_new hlists hitem
    exact ⟨c, _, hold⟩
  · obtain ⟨xs, rfl⟩ := hlists c item hitem
    obtain ⟨zs, hnew, hzs⟩ := hg.longer c xs hitem
    obtain ⟨w, ys, hw, hys, hmatches⟩ := hall c _ hnew
    cases hys
    rcases matches_of_append hmatches with hmatches | ⟨text, hwt, z, hz, hzt⟩
    · exact ⟨w, xs, hw, rfl, hmatches⟩
    · exact absurd ⟨c, z, w, text, hzs z hz, hw, hwt, hzt⟩ hnamed

end Decision

/-- The policy in the store is read back, and accepts the attestation. -/
def Accepts (E : Engine) (kv : Kv) (logContextIn : Option LogContext) (attestation : JsValue) :
    Prop :=
  Succeeds (do
    let policy ← getKeyReleasePolicyFromMap E kv.keyRelease logContextIn
    validateKeyReleasePolicy E policy attestation logContextIn)

theorem succeeds_bind {α β : Type} {x : Handler β} {f : β → Handler (ServiceResult α)} :
    Succeeds (x >>= f) ↔ ∃ b, x.result = .ok b ∧ Succeeds (f b) := by
  unfold Succeeds
  rw [Logged.result_bind]
  constructor
  · rintro ⟨r, hr, hsucceeds⟩
    obtain ⟨b, hb, hr⟩ := Logged.bind_ok_iff.mp hr
    exact ⟨b, hb, r, hr, hsucceeds⟩
  · rintro ⟨b, hb, r, hr, hsucceeds⟩
    exact ⟨r, by rw [hb, Logged.ok_bind, hr], hsucceeds⟩

theorem accepts_iff {kv : Kv} {l : PolicyLedger} (hm : Follows kv.keyRelease l)
    (ht : Holds kv.keyRelease "claims" Tidy) (logContextIn : Option LogContext)
    (attestation : JsValue) :
    Accepts E kv logContextIn attestation ↔
      ∃ fields, documentOf kv.keyRelease "claims" = some (.obj fields) ∧
        AllPass E attestation fields ∧
        Succeeds (checkBounds E (LogContext.within logContextIn "validateKeyReleasePolicy")
          (documentOf kv.keyRelease "gte") (documentOf kv.keyRelease "gt") attestation) := by
  unfold Accepts
  rw [succeeds_bind]
  constructor
  · rintro ⟨policy, hpolicy, hsucceeds⟩
    obtain ⟨claims, hdocument, rfl⟩ := (readBack_iff hm policy logContextIn).mp hpolicy
    rcases documentOf_eq ht with ⟨_, hitems, fields, rfl, hd⟩ | ⟨hnone, -⟩
    · cases hdocument.symm.trans hitems
      have hentries : (Json.obj fields).ownEntries = .ok (enumerate fields) := rfl
      obtain ⟨hnonempty, hall, hbounds⟩ := (evaluator_accepts_iff hentries attestation _).mp hsucceeds
      exact ⟨fields, hitems, (allPass_iff hd).mp ⟨hnonempty, hall⟩, hbounds⟩
    · cases hdocument.symm.trans hnone
  · rintro ⟨fields, hdocument, hpass, hbounds⟩
    refine ⟨_, (readBack_iff hm _ logContextIn).mpr ⟨_, hdocument, rfl⟩, ?_⟩
    rcases documentOf_eq ht with ⟨_, hitems, fields', rfl, hd⟩ | ⟨hnone, -⟩
    · cases hdocument.symm.trans hitems
      have hentries : (Json.obj fields).ownEntries = .ok (enumerate fields) := rfl
      obtain ⟨hnonempty, hall⟩ := (allPass_iff hd).mpr hpass
      exact (evaluator_accepts_iff hentries attestation _).mpr ⟨hnonempty, hall, hbounds⟩
    · cases hdocument.symm.trans hnone

/-- The claims in the store are lists; there are none where nothing is stored yet. -/
theorem stored_claims {map : KvMap String KvText} {l : PolicyLedger} (hm : Follows map l) :
    ∃ old, edited map "claims" = .obj old ∧
      (∀ c item, old.lookup c = some item → ∃ xs, item = .arr xs) ∧
      (documentOf map "claims" = some (.obj old) ∨ documentOf map "claims" = none ∧ old = []) := by
  obtain ⟨old, hold, hfields⟩ := hm.claims.edited.2
  refine ⟨old, hold, fun c item hitem => ?_, ?_⟩
  · have hc := hfields c
    rw [hitem] at hc
    obtain ⟨xs, hxs, -⟩ := hc
    exact ⟨xs, hxs⟩
  · unfold edited at hold
    cases hdocument : documentOf map "claims" with
    | none =>
      rw [hdocument] at hold
      cases hold
      exact .inr ⟨rfl, rfl⟩
    | some items =>
      rw [hdocument] at hold
      cases hold
      exact .inl rfl

/-- The proposal adds plain values to claims that the stored policy has, and no bounds. -/
structure AddsToClaims (kv : Kv) (args : JsValue) : Prop where
  add : isAdd args = true
  gte : args.get "gte" = .ok .undefined
  gt : args.get "gt" = .ok .undefined
  present : ∀ e ∈ entriesOf args "claims", ∃ claims item,
    documentOf kv.keyRelease "claims" = some claims ∧ claims.get e.1 = .ok (.json item)
  plain : ∀ e ∈ entriesOf args "claims", ∀ v ∈ asList e.2, IsPlain v

theorem documentOf_insert (map : KvMap String KvText) (type : String) (v : Json) :
    documentOf (map.insert type (.json v)) type = some v := by
  unfold documentOf
  rw [AList.lookup_insert]

theorem documentOf_insert_ne (map : KvMap String KvText) {type other : String} (v : KvText)
    (htype : type ≠ other) : documentOf (map.insert other v) type = documentOf map type := by
  unfold documentOf
  rw [AList.lookup_insert_ne htype]

/-- Nothing but the lists of the stored claims changes, and these grow by the named values. -/
theorem AddsToClaims.grows {kv : Kv} {args : JsValue} {l : PolicyLedger}
    {keyRelease : KvMap String KvText} (hadds : AddsToClaims kv args)
    (hm : Follows kv.keyRelease l) (happly : apply E texts kv.keyRelease args = .ok keyRelease) :
    ∃ old new, keyRelease = kv.keyRelease.insert "claims" (.json (.obj new)) ∧
      Grown (entriesOf args "claims") old new ∧
      (∀ c item, old.lookup c = some item → ∃ xs, item = .arr xs) ∧
      (documentOf kv.keyRelease "claims" = some (.obj old) ∨
        documentOf kv.keyRelease "claims" = none ∧ old = []) := by
  obtain ⟨claims, hclaims, hadd⟩ := add_alone hadds.add hadds.gte hadds.gt happly
  obtain ⟨old, hstored, hlists, hold⟩ := stored_claims hm
  obtain ⟨named, hnamed⟩ : ∃ named, ownEntriesOf claims = .ok named := by
    obtain ⟨items, -, hadd⟩ := Logged.bind_ok_iff.mp hadd
    obtain ⟨entries, hentries, -⟩ := Logged.bind_ok_iff.mp hadd
    exact ⟨entries, hentries⟩
  have hentries := entriesOf_eq hclaims hnamed
  have hpresent : ∀ e ∈ named, ∃ xs, old.lookup e.1 = some (.arr xs) := by
    intro e he
    obtain ⟨document, item, hdocument, hget⟩ := hadds.present e (hentries ▸ he)
    rcases hold with hold | ⟨hnone, -⟩
    · cases hdocument.symm.trans hold
      have hitem := Json.get_json_iff.mp hget
      obtain ⟨xs, rfl⟩ := hlists _ item hitem
      exact ⟨xs, hitem⟩
    · cases hdocument.symm.trans hnone
  have hholds := hm.claims.edited.1
  rw [hstored] at hholds
  obtain ⟨new, hmap, hg⟩ := add_grows hholds hnamed hpresent hadd
  rw [hentries]
  exact ⟨old, new, hmap, hg, hlists, hold⟩

def sampleWidening : JsValue := sampleProposal "add" [("claims", .obj [("x-ms-sevsnpvm-vmpl", .num 2)])]

def sampleWide : Kv := proposed sampleEngine Kv.empty [sampleAdd, sampleWidening]

theorem sample_adds : AddsToClaims (proposed sampleEngine Kv.empty [sampleAdd]) sampleWidening := by
  have hentries : entriesOf sampleWidening "claims" = [("x-ms-sevsnpvm-vmpl", .num 2)] := rfl
  refine ⟨rfl, rfl, rfl, fun e he => ?_, fun e he v hv => ?_⟩
  · rw [hentries, List.mem_singleton] at he
    subst he
    exact ⟨.obj [("x-ms-sevsnpvm-vmpl", .arr [.num 0, .num 1])], .arr [.num 0, .num 1], rfl, rfl⟩
  · rw [hentries, List.mem_singleton] at he
    subst he
    rw [List.mem_singleton.mp hv]
    exact .num 2

def sampleVmpl (n : ℚ) : JsValue := .json (.obj [("x-ms-sevsnpvm-vmpl", .num n)])

end SetKeyReleasePolicy

end DepaKms
