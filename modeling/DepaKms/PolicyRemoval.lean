import DepaKms.PolicyShape

set_option autoImplicit false

/-!
# What a removal leaves

A removal is meant as a set difference, in which order does not matter. The code takes the
values out one after the other, and a claim that runs out of values is gone when the next
one is named.
-/
namespace DepaKms
namespace SetKeyReleasePolicy

variable {E : Engine} {texts : ReleaseTexts}

/-- The list without the named values. -/
def without (xs named : List Json) : List Json := xs.filter fun v => !Json.includes named v

theorem without_nil (xs : List Json) : without xs [] = xs := by
  simp [without, Json.includes]

theorem without_cons (xs named : List Json) (i : Json) :
    without xs (i :: named) = without (xs.filter fun v => !v.strictEq i) named := by
  unfold without
  rw [List.filter_filter]
  refine List.filter_congr fun v _ => ?_
  have hcons : Json.includes (i :: named) v = (i.strictEq v || Json.includes named v) := rfl
  rw [hcons, Json.strictEq_comm i v, Bool.not_or, Bool.and_comm]

theorem without_singleton (xs : List Json) (i : Json) :
    without xs [i] = xs.filter fun v => !v.strictEq i := by
  rw [without_cons, without_nil]

theorem without_step (xs named : List Json) (i : Json) :
    without xs (i :: named) = without (without xs [i]) named := by
  rw [without_singleton, without_cons]

/-- A claim's entry without the named values; `none` where nothing is left. -/
def difference (named : List Json) : Option Json → Option Json
  | some (.arr xs) => if without xs named = [] then none else some (.arr (without xs named))
  | entry => entry

theorem difference_arr (xs named : List Json) :
    difference named (some (.arr xs)) =
      if without xs named = [] then none else some (.arr (without xs named)) := rfl

theorem difference_step {xs named : List Json} {i : Json} (hne : without xs [i] ≠ []) :
    difference named (difference [i] (some (.arr xs))) =
      difference (i :: named) (some (.arr xs)) := by
  rw [difference_arr xs [i], if_neg hne, difference_arr, difference_arr, without_step xs named]

/-- The entry under `key` has become `entry`, and the others are as before. -/
def Replaced (fields : List (String × Json)) (key : String) (entry : Option Json)
    (fields' : List (String × Json)) : Prop :=
  ∀ c, fields'.lookup c = if c = key then entry else fields.lookup c

theorem Replaced.self {fields fields' : List (String × Json)} {key : String} {entry : Option Json}
    (hr : Replaced fields key entry fields') : fields'.lookup key = entry := by
  rw [hr key, if_pos rfl]

theorem Replaced.other {fields fields' : List (String × Json)} {key : String} {entry : Option Json}
    (hr : Replaced fields key entry fields') {c : String} (hc : c ≠ key) :
    fields'.lookup c = fields.lookup c := by
  rw [hr c, if_neg hc]

theorem Replaced.trans {fields fields' fields'' : List (String × Json)} {key : String}
    {entry entry' : Option Json} (hr : Replaced fields key entry fields')
    (hr' : Replaced fields' key entry' fields'') : Replaced fields key entry' fields'' := by
  intro c
  rw [hr' c]
  split_ifs with hc
  · rfl
  · exact hr.other hc

theorem Replaced.refl {fields : List (String × Json)} {key : String} :
    Replaced fields key (fields.lookup key) fields := by
  intro c
  split_ifs with hc
  · rw [hc]
  · rfl

/-- The value can be shown where the action shows what it removes. -/
def Shown (E : Engine) (texts : ReleaseTexts) (i : Json) : Prop :=
  texts.removalShown = true → ∃ text, i.render E = .ok text

theorem showRemoved_ok_iff {i : Json} : showRemoved E texts i = .ok () ↔ Shown E texts i := by
  unfold showRemoved Shown
  cases texts.removalShown with
  | true =>
    simp only [if_true, forall_const]
    cases i.render E with
    | ok text => exact ⟨fun _ => ⟨text, rfl⟩, fun _ => rfl⟩
    | error e =>
      constructor
      · intro he
        cases he
      · rintro ⟨text, ht⟩
        cases ht
  | false => exact ⟨fun _ h => absurd h Bool.false_ne_true, fun _ => rfl⟩

section OneClaim

variable {fields : List (String × Json)} {key : String} {xs : List Json}

theorem removeValue_complete (hxs : fields.lookup key = some (.arr xs)) {i : Json}
    (hi : Shown E texts i) :
    ∃ fields', removeValue E texts key (.obj fields) i = .ok (.obj fields') ∧
      Replaced fields key (difference [i] (some (.arr xs))) fields' := by
  unfold removeValue
  simp only [showRemoved_ok_iff.mpr hi, Json.get_own hxs, Logged.ok_bind]
  rw [← without_singleton, difference_arr]
  by_cases hnil : without xs [i] = []
  · rw [if_pos (List.length_eq_zero_iff.mpr hnil), if_pos hnil]
    exact ⟨_, rfl, fun c => lookup_filter_ne fields key c⟩
  · rw [if_neg (mt List.length_eq_zero_iff.mp hnil), if_neg hnil]
    exact ⟨_, rfl, fun c => lookup_assign fields key _ c⟩

theorem removeValue_sound (hxs : fields.lookup key = some (.arr xs)) {i items' : Json}
    (h : removeValue E texts key (.obj fields) i = .ok items') :
    Shown E texts i ∧ ∃ fields', items' = .obj fields' ∧
      Replaced fields key (difference [i] (some (.arr xs))) fields' := by
  obtain ⟨_, hshown, -⟩ := Logged.bind_ok_iff.mp h
  have hi : Shown E texts i := showRemoved_ok_iff.mp hshown
  obtain ⟨fields', hfields', hr⟩ := removeValue_complete hxs hi
  rw [hfields'] at h
  cases h
  exact ⟨hi, fields', rfl, hr⟩

/-- A claim that has run out of values is not there for the next one. -/
theorem removeValue_gone (hnone : fields.lookup key = none) {i items' : Json} :
    removeValue E texts key (.obj fields) i ≠ .ok items' := by
  intro h
  obtain ⟨ys, hys, -⟩ := removeValue_cases h
  rw [hnone] at hys
  cases hys

/-- What one claim needs for its values to be taken out in the order in which they are named:
    all of them can be shown, and the list lasts until the last one. -/
structure Removable (E : Engine) (texts : ReleaseTexts) (xs named : List Json) : Prop where
  shown : ∀ i ∈ named, Shown E texts i
  lasts : named.length = 1 ∨ without xs named.dropLast ≠ []

/-- Where something is left in the end the order of the named values does not matter. -/
theorem removable_of_left {named : List Json} (hshown : ∀ i ∈ named, Shown E texts i)
    (hleft : without xs named ≠ []) : Removable E texts xs named := by
  refine ⟨hshown, .inr ?_⟩
  obtain ⟨v, hv⟩ := List.exists_mem_of_ne_nil _ hleft
  obtain ⟨hmem, hnot⟩ := List.mem_filter.mp hv
  refine List.ne_nil_of_mem (List.mem_filter.mpr ⟨hmem, ?_⟩)
  simp only [Bool.not_eq_true', Json.includes, List.any_eq_false] at hnot ⊢
  exact fun i hi => hnot i (List.mem_of_mem_dropLast hi)

theorem removeValues_complete (hxs : fields.lookup key = some (.arr xs)) {named : List Json}
    (hr : Removable E texts xs named) :
    ∃ fields', named.foldlM (removeValue E texts key) (.obj fields) = .ok (.obj fields') ∧
      Replaced fields key (difference named (some (.arr xs))) fields' := by
  induction named generalizing fields xs with
  | nil =>
    have hne : xs ≠ [] := by
      have hlasts := hr.lasts.resolve_left (by simp)
      rwa [List.dropLast_nil, without_nil] at hlasts
    refine ⟨fields, rfl, ?_⟩
    rw [difference_arr, without_nil, if_neg hne, ← hxs]
    exact .refl
  | cons i named ih =>
    obtain ⟨hi, hnamed⟩ := List.forall_mem_cons.mp hr.shown
    obtain ⟨fields₁, hfields₁, hr₁⟩ := removeValue_complete hxs hi
    rw [List.foldlM_cons, hfields₁, Logged.ok_bind]
    cases named with
    | nil => exact ⟨fields₁, rfl, hr₁⟩
    | cons j named =>
      have hlasts := hr.lasts.resolve_left (by simp)
      rw [List.dropLast_cons_cons, without_step] at hlasts
      have hne : without xs [i] ≠ [] := by
        intro hnil
        rw [hnil] at hlasts
        exact hlasts rfl
      have hxs₁ : fields₁.lookup key = some (.arr (without xs [i])) := by
        rw [hr₁.self, difference_arr, if_neg hne]
      obtain ⟨fields₂, hfields₂, hr₂⟩ := ih hxs₁ ⟨hnamed, .inr hlasts⟩
      refine ⟨fields₂, hfields₂, ?_⟩
      rw [← hxs₁, hr₁.self, difference_step hne] at hr₂
      exact hr₁.trans hr₂

theorem removeValues_sound (hxs : fields.lookup key = some (.arr xs)) {named : List Json}
    {items' : Json} (h : named.foldlM (removeValue E texts key) (.obj fields) = .ok items') :
    ∃ fields', items' = .obj fields' ∧ (∀ c, c ≠ key → fields'.lookup c = fields.lookup c) ∧
      (fields'.lookup key = difference named (some (.arr xs)) → Removable E texts xs named) := by
  induction named generalizing fields xs with
  | nil =>
    cases h
    refine ⟨fields, rfl, fun _ _ => rfl, fun hkey => ⟨by simp, .inr ?_⟩⟩
    rw [List.dropLast_nil, without_nil]
    rintro rfl
    rw [hxs, difference_arr, without_nil, if_pos rfl] at hkey
    cases hkey
  | cons i named ih =>
    rw [List.foldlM_cons, Logged.bind_ok_iff] at h
    obtain ⟨items₁, hitems₁, h⟩ := h
    obtain ⟨hi, fields₁, rfl, hr₁⟩ := removeValue_sound hxs hitems₁
    cases named with
    | nil =>
      cases h
      exact ⟨fields₁, rfl, fun c hc => hr₁.other hc, fun _ => ⟨by simpa using hi, .inl rfl⟩⟩
    | cons j named =>
      by_cases hnil : without xs [i] = []
      · -- The list has run out, and there is a value to come.
        have hgone : fields₁.lookup key = none := by rw [hr₁.self, difference_arr, if_pos hnil]
        rw [List.foldlM_cons, Logged.bind_ok_iff] at h
        obtain ⟨items₂, hitems₂, -⟩ := h
        exact absurd hitems₂ (removeValue_gone hgone)
      · have hxs₁ : fields₁.lookup key = some (.arr (without xs [i])) := by
          rw [hr₁.self, difference_arr, if_neg hnil]
        obtain ⟨fields', rfl, hother, hremovable⟩ := ih hxs₁ h
        refine ⟨fields', rfl, fun c hc => (hother c hc).trans (hr₁.other hc), fun hkey => ?_⟩
        rw [← difference_step hnil, ← hr₁.self, hxs₁] at hkey
        have hrest := hremovable hkey
        refine ⟨List.forall_mem_cons.mpr ⟨hi, hrest.shown⟩, .inr ?_⟩
        rw [List.dropLast_cons_cons, without_step]
        rcases hrest.lasts with hone | hlasts
        · have hnone : named = [] := by simpa using hone
          subst hnone
          rw [List.dropLast_singleton, without_nil]
          exact hnil
        · exact hlasts

theorem removeClaim_eq (hxs : fields.lookup key = some (.arr xs)) (item : Json) :
    removeClaim E texts (.obj fields) key item =
      (asList item).foldlM (removeValue E texts key) (.obj fields) := by
  unfold removeClaim
  rw [Json.get_own hxs]
  rfl

end OneClaim

theorem claimName_declared {c : String} (hc : c ∈ claimNames) :
    ∃ type, CLAIMS.get c = .ok (.json type) := by
  have hall : ∀ c ∈ claimNames,
      ((claimTypes.map fun f => (f.1, Json.str f.2)).lookup c).isSome = true := by decide
  obtain ⟨type, htype⟩ := Option.isSome_iff_exists.mp (hall c hc)
  exact ⟨type, Json.get_own htype⟩

theorem editLoop_cons {verb label type : String}
    {change : Json → String → Json → Except JsError Json} {key : String} (hkey : key ∈ claimNames)
    (items item : Json) (entries : List (String × Json)) :
    editLoop texts verb label type change items ((key, item) :: entries) =
      change items key item >>= fun items =>
        editLoop texts verb label type change items entries := by
  obtain ⟨declared, hdeclared⟩ := claimName_declared hkey
  rw [editLoop, hdeclared]
  rfl

/-- Each named claim holds the stored list without the values named for it, and is gone where
    nothing is left; the other claims are as before. -/
def IsDifference (fields named fields' : List (String × Json)) : Prop :=
  ∀ c, fields'.lookup c =
    (named.lookup c).elim (fields.lookup c) fun item => difference (asList item) (fields.lookup c)

/-- Each claim that is named is an allowed one and has a list in the document. -/
def Stored (fields named : List (String × Json)) : Prop :=
  ∀ e ∈ named, e.1 ∈ claimNames ∧ ∃ xs, fields.lookup e.1 = some (.arr xs)

/-- The values named for each claim can be taken out one after the other. -/
def AllRemovable (E : Engine) (texts : ReleaseTexts) (fields named : List (String × Json)) : Prop :=
  ∀ e ∈ named, ∀ xs, fields.lookup e.1 = some (.arr xs) → Removable E texts xs (asList e.2)

section Loop

variable {fields fields₁ : List (String × Json)} {key : String} {item : Json}
  {named : List (String × Json)}

theorem ne_of_distinct (hd : Distinct ((key, item) :: named)) {e : String × Json}
    (he : e ∈ named) : e.1 ≠ key := by
  intro hkey
  exact (List.nodup_cons.mp hd).1 (List.mem_map.mpr ⟨e, he, hkey⟩)

theorem lookup_of_distinct (hd : Distinct ((key, item) :: named)) : named.lookup key = none := by
  rw [List.lookup_eq_none_iff]
  intro e he
  rw [bne_iff_ne]
  exact (ne_of_distinct hd he).symm

theorem lookup_cons_ne {c : String} (hc : c ≠ key) :
    ((key, item) :: named).lookup c = named.lookup c := by
  rw [List.lookup_cons, beq_false_of_ne hc]

/-- What is said of the remaining claims before and after one of them is dealt with. -/
theorem Stored.tail (hd : Distinct ((key, item) :: named)) (hs : Stored fields ((key, item) :: named))
    (hother : ∀ c, c ≠ key → fields₁.lookup c = fields.lookup c) : Stored fields₁ named := by
  intro e he
  obtain ⟨hname, xs, hxs⟩ := hs e (List.mem_cons_of_mem _ he)
  exact ⟨hname, xs, (hother _ (ne_of_distinct hd he)).trans hxs⟩

theorem allRemovable_cons (hd : Distinct ((key, item) :: named)) {xs : List Json}
    (hxs : fields.lookup key = some (.arr xs))
    (hother : ∀ c, c ≠ key → fields₁.lookup c = fields.lookup c) :
    AllRemovable E texts fields ((key, item) :: named) ↔
      Removable E texts xs (asList item) ∧ AllRemovable E texts fields₁ named := by
  unfold AllRemovable
  rw [List.forall_mem_cons]
  refine and_congr ⟨fun h => h xs hxs, fun h ys hys => ?_⟩
    (forall₂_congr fun e he => by rw [hother _ (ne_of_distinct hd he)])
  cases hxs.symm.trans hys
  exact h

theorem removeLoop_frame {type : String} (hd : Distinct named) (hs : Stored fields named)
    {items' : Json}
    (h : editLoop texts "remove" "remove" type (removeClaim E texts) (.obj fields) named =
      .ok items') :
    ∃ fields', items' = .obj fields' ∧
      ∀ c, named.lookup c = none → fields'.lookup c = fields.lookup c := by
  induction named generalizing fields with
  | nil =>
    cases h
    exact ⟨fields, rfl, fun _ _ => rfl⟩
  | cons e named ih =>
    obtain ⟨key, item⟩ := e
    obtain ⟨hname, xs, hxs⟩ : key ∈ claimNames ∧ ∃ xs, fields.lookup key = some (.arr xs) :=
      hs _ List.mem_cons_self
    rw [editLoop_cons hname, Logged.bind_ok_iff] at h
    obtain ⟨items₁, hitems₁, h⟩ := h
    rw [removeClaim_eq hxs] at hitems₁
    obtain ⟨fields₁, rfl, hother, -⟩ := removeValues_sound hxs hitems₁
    obtain ⟨fields', rfl, hframe⟩ := ih (List.nodup_cons.mp hd).2 (hs.tail hd hother) h
    refine ⟨fields', rfl, fun c hc => ?_⟩
    have hne : c ≠ key := by
      rintro rfl
      rw [List.lookup_cons_self] at hc
      cases hc
    rw [lookup_cons_ne hne] at hc
    exact (hframe c hc).trans (hother c hne)

theorem removeLoop_iff (type : String) (hd : Distinct named) (hs : Stored fields named) :
    (∃ fields', editLoop texts "remove" "remove" type (removeClaim E texts) (.obj fields) named =
        .ok (.obj fields') ∧ IsDifference fields named fields') ↔
      AllRemovable E texts fields named := by
  induction named generalizing fields with
  | nil =>
    refine ⟨fun _ e he => absurd he List.not_mem_nil, fun _ => ⟨fields, rfl, fun _ => rfl⟩⟩
  | cons e named ih =>
    obtain ⟨key, item⟩ := e
    obtain ⟨hname, xs, hxs⟩ : key ∈ claimNames ∧ ∃ xs, fields.lookup key = some (.arr xs) :=
      hs _ List.mem_cons_self
    have htail : Distinct named := (List.nodup_cons.mp hd).2
    have hkey : named.lookup key = none := lookup_of_distinct hd
    rw [editLoop_cons hname, removeClaim_eq hxs]
    constructor
    · rintro ⟨fields', h, hdifference⟩
      obtain ⟨items₁, hitems₁, h⟩ := Logged.bind_ok_iff.mp h
      obtain ⟨fields₁, rfl, hother, hremovable⟩ := removeValues_sound hxs hitems₁
      obtain ⟨_, hsame, hframe⟩ := removeLoop_frame htail (hs.tail hd hother) h
      cases hsame
      have hself : fields₁.lookup key = difference (asList item) (some (.arr xs)) := by
        rw [← hframe key hkey, hdifference key, List.lookup_cons_self, hxs]
        rfl
      refine (allRemovable_cons hd hxs hother).mpr ⟨hremovable hself, ?_⟩
      refine (ih htail (hs.tail hd hother)).mp ⟨_, h, fun c => ?_⟩
      by_cases hc : c = key
      · rw [hc, hkey]
        exact hframe key hkey
      · rw [hdifference c, lookup_cons_ne hc, hother c hc]
    · intro hall
      obtain ⟨hr, -⟩ := (allRemovable_cons hd hxs fun _ _ => rfl).mp hall
      obtain ⟨fields₁, hfields₁, hreplaced⟩ := removeValues_complete hxs hr
      have hother (c : String) (hc : c ≠ key) := hreplaced.other hc
      obtain ⟨-, hrest⟩ := (allRemovable_cons hd hxs hother).mp hall
      obtain ⟨fields', hfields', hdifference⟩ := (ih htail (hs.tail hd hother)).mpr hrest
      refine ⟨fields', by rw [hfields₁, Logged.ok_bind, hfields'], fun c => ?_⟩
      rw [hdifference c]
      by_cases hc : c = key
      · subst hc
        rw [hkey, List.lookup_cons_self, hxs]
        exact hreplaced.self
      · rw [lookup_cons_ne hc, hother c hc]

end Loop

theorem enumerate_perm {α : Type} (fields : List (String × α)) : (enumerate fields).Perm fields := by
  have hsorted := (fields.filter fun f => isArrayIndex f.1).perm_insertionSort
    fun f g => decimalValue f.1.toList ≤ decimalValue g.1.toList
  exact (hsorted.append_right _).trans (List.filter_append_perm _ fields)

theorem Distinct.enumerate {fields : List (String × Json)} (hd : Distinct fields) :
    Distinct (enumerate fields) :=
  ((enumerate_perm fields).map Prod.fst).nodup_iff.mpr hd

theorem Distinct.lookup_enumerate {fields : List (String × Json)} (hd : Distinct fields)
    (c : String) : (DepaKms.enumerate fields).lookup c = fields.lookup c := by
  cases hc : fields.lookup c with
  | some v => exact hd.enumerate.lookup_of_mem ((mem_enumerate fields _).mpr (mem_of_lookup hc))
  | none =>
    rw [List.lookup_eq_none_iff] at hc ⊢
    exact fun e he => hc e ((mem_enumerate fields e).mp he)

/-- Only allowed claims, each with a list. -/
def ClaimsDocument : Json → Prop := AllEntries fun e => e.1 ∈ claimNames ∧ ∃ xs, e.2 = .arr xs

theorem allowed_name {key : String} {declared : JsValue} (hd : CLAIMS.get key = .ok declared)
    (hu : isUndefined declared = false) (hown : inherited key = .undefined) : key ∈ claimNames := by
  cases hlookup : (claimTypes.map fun f => (f.1, Json.str f.2)).lookup key with
  | some type =>
    obtain ⟨f, hf, he⟩ := List.mem_map.mp (mem_of_lookup hlookup)
    exact List.mem_map.mpr ⟨f, hf, congrArg Prod.fst he⟩
  | none =>
    rw [CLAIMS, Json.get_inherited hlookup, hown] at hd
    cases hd
    cases hu

def Allowed (key : String) : Prop :=
  ∃ declared, CLAIMS.get key = .ok declared ∧ isUndefined declared = false

theorem editLoop_allowed {verb label type : String}
    {change : Json → String → Json → Except JsError Json} {items items' : Json}
    {entries : List (String × Json)}
    (h : editLoop texts verb label type change items entries = .ok items') :
    ∀ e ∈ entries, Allowed e.1 := by
  induction entries generalizing items with
  | nil => simp
  | cons e entries ih =>
    obtain ⟨key, item⟩ := e
    obtain ⟨declared, hdeclared, h⟩ := Logged.bind_ok_iff.mp h
    dsimp only at h
    split_ifs at h with hu
    · cases h
    · obtain ⟨changed, -, h⟩ := Logged.bind_ok_iff.mp h
      exact List.forall_mem_cons.mpr ⟨⟨declared, hdeclared, by simpa using hu⟩, ih h⟩

theorem addClaim_document {items items' item : Json} {key : String} (hkey : Allowed key)
    (hdoc : ClaimsDocument items) (h : addClaim E items key item = .ok items') :
    ClaimsDocument items' := by
  obtain ⟨fields, rfl, hall⟩ := hdoc
  obtain ⟨declared, hdeclared, hu⟩ := hkey
  have hlists (j : Json) (hj : fields.lookup key = some j) : ∃ xs, j = .arr xs :=
    (hall (key, j) (mem_of_lookup hj)).2
  rcases addClaim_cases hlists h with ⟨xs, hxs, rfl⟩ | ⟨hnone, hown, -, rfl⟩ | ⟨-, -, rfl⟩
  · have hname : key ∈ claimNames := (hall _ (mem_of_lookup hxs)).1
    exact ⟨_, rfl, forall_assign hall ⟨hname, _, rfl⟩⟩
  · rw [Json.get_inherited hnone, Except.ok.injEq] at hown
    exact ⟨_, rfl, forall_assign hall ⟨allowed_name hdeclared hu hown, _, rfl⟩⟩
  · exact ⟨fields, rfl, hall⟩

theorem removeValue_document {items items' i : Json} {key : String} (hdoc : ClaimsDocument items)
    (h : removeValue E texts key items i = .ok items') : ClaimsDocument items' := by
  obtain ⟨fields, rfl, hall⟩ := hdoc
  obtain ⟨xs, hxs, ⟨-, rfl⟩ | ⟨-, rfl⟩⟩ := removeValue_cases h
  · exact allEntries_delete ⟨fields, rfl, hall⟩ key
  · exact ⟨_, rfl, forall_assign hall ⟨(hall _ (mem_of_lookup hxs)).1, _, rfl⟩⟩

section Reached

variable {map map' : KvMap String KvText} {args : JsValue}

theorem add_document {claims : JsValue} (hm : Holds map "claims" ClaimsDocument)
    (h : add E texts "claims" map claims = .ok map') : Holds map' "claims" ClaimsDocument := by
  obtain ⟨items, -, hloop⟩ := Logged.bind_ok_iff.mp h
  obtain ⟨entries, hentries, hloop⟩ := Logged.bind_ok_iff.mp hloop
  obtain ⟨items', hitems', -⟩ := Logged.bind_ok_iff.mp hloop
  let R (items : Json) (done : List (String × Json)) : Prop :=
    (∀ e ∈ done, Allowed e.1) → ClaimsDocument items
  obtain ⟨entries', items'', hentries', rfl, hdoc⟩ := edit_history (R := R) noItems_ok
    (fun items done e items' hR hi hall =>
      addClaim_document (hall e (by simp)) (hR fun e' he' => hall e' (List.mem_append_left _ he')) hi)
    (hm.imp fun items hdoc _ => hdoc) h
  cases hentries.symm.trans hentries'
  exact holds_inserted (hdoc (editLoop_allowed hitems'))

theorem apply_document (hm : Holds map "claims" ClaimsDocument)
    (h : apply E texts map args = .ok map') : Holds map' "claims" ClaimsDocument := by
  obtain ⟨claims, map₁, hedit, hlookup⟩ := apply_claims h
  refine Holds.congr ?_ hlookup
  rcases hedit with hadd | hremove
  · exact add_document hm hadd
  · exact edit_keeps absentKey_ok
      (fun _ _ _ => removeClaim_keeps fun _ _ _ => removeValue_document) hm hremove

end Reached

/-- What the proposals of either action have stored, from the start on, has only allowed claims
    with lists. -/
theorem stored_claims_document (E : Engine) (texts : ReleaseTexts) (proposals : List JsValue) :
    Holds (run (commit fun map args => (apply E texts map args).toOption) ∅ proposals) "claims"
      ClaimsDocument := by
  have hempty : Holds ∅ "claims" ClaimsDocument := ⟨[], rfl, by simp⟩
  refine run_preserves (P := fun map => Holds map "claims" ClaimsDocument) (fun map args hm => ?_)
    hempty proposals
  change Holds ((apply E texts map args).toOption.getD map) "claims" ClaimsDocument
  cases happly : apply E texts map args with
  | error e => exact hm
  | ok map' => exact apply_document hm happly

theorem stored_of_present {fields named : List (String × Json)}
    (hdoc : ClaimsDocument (.obj fields)) (hpresent : ∀ e ∈ named, fields.lookup e.1 ≠ none) :
    Stored fields named := by
  intro e he
  obtain ⟨v, hv⟩ := Option.ne_none_iff_exists'.mp (hpresent e he)
  obtain ⟨_, hfields, hall⟩ := hdoc
  cases hfields
  obtain ⟨hname, xs, hxs⟩ := hall _ (mem_of_lookup hv)
  dsimp only at hname hxs
  subst hxs
  exact ⟨hname, xs, hv⟩

section Removal

variable {type : String} {map : KvMap String KvText} {fields named : List (String × Json)}

theorem remove_iff (hmap : map.lookup type = some (.json (.obj fields)))
    (hdoc : ClaimsDocument (.obj fields)) (hd : Distinct named)
    (hpresent : ∀ e ∈ named, fields.lookup e.1 ≠ none) :
    (∃ fields', remove E texts type map (.json (.obj named)) =
        .ok (map.insert type (.json (.obj fields'))) ∧ IsDifference fields named fields') ↔
      AllRemovable E texts fields named := by
  have hs : Stored fields (enumerate named) := fun e he =>
    stored_of_present hdoc hpresent e ((mem_enumerate named e).mp he)
  have hall : AllRemovable E texts fields (enumerate named) ↔ AllRemovable E texts fields named := by
    simp only [AllRemovable, mem_enumerate]
  have hremove : remove E texts type map (.json (.obj named)) =
      editLoop texts "remove" "remove" type (removeClaim E texts) (.obj fields)
        (enumerate named) >>= fun items => .ok (map.insert type (.json items)) := by
    unfold remove edit readItems
    rw [hmap]
    rfl
  rw [← hall, ← removeLoop_iff type hd.enumerate hs, hremove]
  simp only [IsDifference, hd.lookup_enumerate]
  constructor
  · rintro ⟨fields', h, hdifference⟩
    obtain ⟨items, hitems, h⟩ := Logged.bind_ok_iff.mp h
    have hsame : items = .obj fields' := by
      have hlookup := congrArg (fun m : KvMap String KvText => m.lookup type) (Except.ok.inj h)
      simpa only [AList.lookup_insert, Option.some.injEq, KvText.json.injEq] using hlookup
    exact ⟨fields', hsame ▸ hitems, hdifference⟩
  · rintro ⟨fields', h, hdifference⟩
    exact ⟨fields', by rw [h, Logged.ok_bind], hdifference⟩

/-- What the proposals of either action have stored needs no further condition. -/
theorem remove_of_reached_iff (proposals : List JsValue)
    (hmap : (run (commit fun map args => (apply E texts map args).toOption) ∅ proposals).lookup
      "claims" = some (.json (.obj fields)))
    (hd : Distinct named) (hpresent : ∀ e ∈ named, fields.lookup e.1 ≠ none) :
    (∃ fields', remove E texts "claims"
        (run (commit fun map args => (apply E texts map args).toOption) ∅ proposals)
        (.json (.obj named)) =
      .ok ((run (commit fun map args => (apply E texts map args).toOption) ∅ proposals).insert
        "claims" (.json (.obj fields'))) ∧ IsDifference fields named fields') ↔
      AllRemovable E texts fields named := by
  have hdoc := stored_claims_document E texts proposals
  unfold Holds at hdoc
  rw [hmap] at hdoc
  exact remove_iff hmap hdoc hd hpresent

end Removal

/-- A removal is the set difference just when no claim runs out of values before the last one
    named for it, and all of them can be shown. -/
theorem removal_is_difference_iff (E : Engine) (texts : ReleaseTexts) (type : String)
    {map : KvMap String KvText} {fields named : List (String × Json)}
    (hmap : map.lookup type = some (.json (.obj fields))) (hdoc : ClaimsDocument (.obj fields))
    (hd : Distinct named) (hpresent : ∀ e ∈ named, fields.lookup e.1 ≠ none) :
    (∃ fields', remove E texts type map (.json (.obj named)) =
        .ok (map.insert type (.json (.obj fields'))) ∧ IsDifference fields named fields') ↔
      AllRemovable E texts fields named :=
  remove_iff hmap hdoc hd hpresent

def sampleClaims (values : List Json) : List (String × Json) := [("x-ms-ver", .arr values)]

def sampleRemoval (texts : ReleaseTexts) (stored named : List Json) :
    Except JsError (KvMap String KvText) :=
  remove sampleEngine texts "claims"
    (AList.singleton "claims" (.json (.obj (sampleClaims stored)))) (.json (.obj (sampleClaims named)))

theorem sampleClaims_document (values : List Json) : ClaimsDocument (.obj (sampleClaims values)) := by
  have hname : "x-ms-ver" ∈ claimNames := by decide
  refine ⟨_, rfl, fun e he => ?_⟩
  rw [List.mem_singleton.mp he]
  exact ⟨hname, values, rfl⟩

/-- Of two values, one is removed, and named twice for good measure. -/
theorem sample_removal_is_difference :
    ∃ fields', sampleRemoval releaseTexts [.str "1", .str "2"] [.str "2", .str "2"] =
        .ok ((AList.singleton "claims" (.json (.obj (sampleClaims [.str "1", .str "2"])))).insert
          "claims" (.json (.obj fields'))) ∧
      IsDifference (sampleClaims [.str "1", .str "2"]) (sampleClaims [.str "2", .str "2"])
        fields' := by
  have hdistinct : Distinct (sampleClaims [.str "2", .str "2"]) := List.nodup_singleton _
  have hpresent : ∀ e ∈ sampleClaims [.str "2", .str "2"],
      (sampleClaims [.str "1", .str "2"]).lookup e.1 ≠ none := by
    intro e he
    rw [List.mem_singleton.mp he]
    simp [sampleClaims]
  refine (removal_is_difference_iff sampleEngine releaseTexts "claims" rfl
    (sampleClaims_document _) hdistinct hpresent).mpr ?_
  intro e he xs hxs
  rw [List.mem_singleton.mp he] at hxs ⊢
  cases hxs
  refine removable_of_left (fun i hi _ => ?_) (by decide)
  have hvalue : i = .str "2" := by simpa [asList] using hi
  subst hvalue
  exact ⟨"2", rfl⟩

def Removes (texts : ReleaseTexts) (named : List Json) : Prop :=
  ∃ map', sampleRemoval texts [.str "1"] named = .ok map'

/-- The last value of a claim can be named after one that is not listed, but neither before it
    nor twice; in this the two actions are alike. -/
theorem removal_depends_on_order :
    (Removes releaseTexts [.str "2", .str "1"] ∧ ¬ Removes releaseTexts [.str "1", .str "2"] ∧
      ¬ Removes releaseTexts [.str "1", .str "1"]) ∧
    Removes gcpReleaseTexts [.str "2", .str "1"] ∧ ¬ Removes gcpReleaseTexts [.str "1", .str "2"] ∧
      ¬ Removes gcpReleaseTexts [.str "1", .str "1"] := by
  refine ⟨⟨⟨_, rfl⟩, ?_, ?_⟩, ⟨_, rfl⟩, ?_, ?_⟩
  all_goals
    rintro ⟨map', hremoved⟩
    cases hremoved

end SetKeyReleasePolicy
end DepaKms
