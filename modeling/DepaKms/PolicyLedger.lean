import DepaKms.Actions
import DepaKms.Runs

set_option autoImplicit false

/-!
# The release policy as a ledger

What the stored release policy stands for: which values are listed for which claim,
and the bound of each operator for each claim. A proposal adds to the ledger or
removes from it, and the documents in the policy map follow it.
-/
namespace DepaKms
namespace SetKeyReleasePolicy

open KeyReleasePolicy (Operator)

def entriesOf (args : JsValue) (field : String) : List (String × Json) :=
  match args.get field >>= ownEntriesOf with
  | .ok entries => entries
  | .error _ => []

def isAdd (args : JsValue) : Bool :=
  match args.get "type" with
  | .ok (.json (.str type)) => type == "add"
  | _ => false

/-- The proposal names the value, alone or in a list, under the claim. -/
def namesValue (c : String) (v : Json) (args : JsValue) : Bool :=
  (entriesOf args "claims").any fun e => c == e.1 && Json.includes (asList e.2) v

def boundGiven (op : Operator) (c : String) (args : JsValue) : Option Json :=
  (entriesOf args op.type).reverse.lookup c

def namesBound (op : Operator) (c : String) (args : JsValue) : Bool :=
  (boundGiven op c args).isSome

structure PolicyLedger where
  listed : String → Json → Bool
  bound : Operator → String → Option Json

namespace PolicyLedger

def empty : PolicyLedger := ⟨fun _ _ => false, fun _ _ => none⟩

def edit (l : PolicyLedger) (args : JsValue) : PolicyLedger where
  listed c v := if namesValue c v args then isAdd args else l.listed c v
  bound op c :=
    if namesBound op c args then (if isAdd args then boundGiven op c args else none)
    else l.bound op c

theorem edit_added (l : PolicyLedger) {args : JsValue} (ha : isAdd args = true) :
    ((l.edit args).listed = fun c v => l.listed c v || namesValue c v args) ∧
      ∀ op, (l.edit args).bound op = fun c => (boundGiven op c args).or (l.bound op c) := by
  constructor
  · funext c v
    simp only [edit, ha]
    cases namesValue c v args <;> simp
  · intro op
    funext c
    simp only [edit, namesBound, ha, if_true]
    cases boundGiven op c args <;> rfl

theorem edit_removed (l : PolicyLedger) {args : JsValue} (hr : isAdd args = false) :
    ((l.edit args).listed = fun c v => l.listed c v && !namesValue c v args) ∧
      ∀ op, (l.edit args).bound op = fun c => if namesBound op c args then none else l.bound op c := by
  constructor
  · funext c v
    simp only [edit, hr]
    cases namesValue c v args <;> simp
  · intro op
    funext c
    simp only [edit, hr, Bool.false_eq_true, if_false]

theorem listed_run (proposals : List JsValue) (c : String) (v : Json) :
    (run edit empty proposals).listed c v =
      ((lastOf (namesValue c v) proposals).map isAdd).getD false := by
  rw [← run_overwrite]
  induction proposals using List.reverseRecOn with
  | nil => rfl
  | append_singleton proposals args ih => simp only [run_snoc, edit, ih]

theorem bound_run (proposals : List JsValue) (op : Operator) (c : String) :
    (run edit empty proposals).bound op c =
      ((lastOf (namesBound op c) proposals).map fun args =>
        if isAdd args then boundGiven op c args else none).getD none := by
  rw [← run_overwrite]
  induction proposals using List.reverseRecOn with
  | nil => rfl
  | append_singleton proposals args ih => simp only [run_snoc, edit, ih]

end PolicyLedger

theorem includes_append (xs ys : List Json) (v : Json) :
    Json.includes (xs ++ ys) v = (Json.includes xs v || Json.includes ys v) := by
  simp [Json.includes]

theorem includes_addNew (xs : List Json) (i v : Json) :
    Json.includes (if Json.includes xs i then xs else xs ++ [i]) v =
      (Json.includes xs v || i.strictEq v) := by
  split_ifs with hi
  · cases hv : i.strictEq v with
    | false => simp
    | true =>
      rw [← Json.eq_of_strictEq hv, hi]
      rfl
  · rw [includes_append]
    simp [Json.includes]

/-- The list with the items that it does not have yet; from the empty list these are `distinct`. -/
def merge (xs items : List Json) : List Json :=
  items.foldl (fun seen x => if Json.includes seen x then seen else seen ++ [x]) xs

theorem includes_merge (xs items : List Json) (v : Json) :
    Json.includes (merge xs items) v = (Json.includes xs v || Json.includes items v) := by
  induction items generalizing xs with
  | nil => simp [merge, Json.includes]
  | cons i items ih =>
    unfold merge at ih ⊢
    rw [List.foldl_cons, ih, includes_addNew, Bool.or_assoc]
    rfl

theorem merge_appends (xs items : List Json) :
    ∃ added, merge xs items = xs ++ added ∧ ∀ v ∈ added, v ∈ items := by
  induction items generalizing xs with
  | nil => exact ⟨[], (List.append_nil xs).symm, by simp⟩
  | cons i items ih =>
    unfold merge at ih ⊢
    rw [List.foldl_cons]
    split_ifs
    · obtain ⟨added, hadded, hmem⟩ := ih xs
      exact ⟨added, hadded, fun v hv => List.mem_cons_of_mem _ (hmem v hv)⟩
    · obtain ⟨added, hadded, hmem⟩ := ih (xs ++ [i])
      refine ⟨i :: added, ?_, List.forall_mem_cons.mpr ⟨List.mem_cons_self, ?_⟩⟩
      · rw [hadded, List.append_assoc, List.singleton_append]
      · exact fun v hv => List.mem_cons_of_mem _ (hmem v hv)

theorem includes_filter (xs : List Json) (i v : Json) (hv : v.IsScalar) :
    Json.includes (xs.filter fun w => !w.strictEq i) v =
      (Json.includes xs v && !i.strictEq v) := by
  induction xs with
  | nil => rfl
  | cons x xs ih =>
    have hcons (y : Json) (ys : List Json) :
        Json.includes (y :: ys) v = (y.strictEq v || Json.includes ys v) := rfl
    rw [List.filter_cons, hcons]
    cases hxv : x.strictEq v with
    | false =>
      split_ifs
      · rw [hcons, hxv, ih, Bool.false_or, Bool.false_or]
      · rw [ih, Bool.false_or]
    | true =>
      have hx : x = v := (Json.strictEq_iff hv).mp hxv
      subst hx
      rw [Json.strictEq_comm x i]
      cases hix : i.strictEq x with
      | true => simpa [hix] using ih
      | false => simp [hcons, hxv]

/-- A claim's entry in the document, or its absence, stands for the values that `L` has. -/
def Lists (item : Option Json) (L : Json → Bool) : Prop :=
  match item with
  | none => ∀ v, v.IsScalar → L v = false
  | some item => ∃ xs, item = .arr xs ∧ ∀ v, v.IsScalar → Json.includes xs v = L v

theorem Lists.congr {item : Option Json} {L L' : Json → Bool} (h : Lists item L)
    (he : ∀ v, v.IsScalar → L v = L' v) : Lists item L' := by
  cases item with
  | none => exact fun v hv => (he v hv).symm.trans (h v hv)
  | some item =>
    obtain ⟨xs, rfl, hxs⟩ := h
    exact ⟨xs, rfl, fun v hv => (hxs v hv).trans (he v hv)⟩

theorem pushNew_loop {E : Engine} {xs items : List Json} {grown : JsValue}
    (h : items.foldlM (pushNew E) (.json (.arr xs)) = .ok grown) :
    grown = .json (.arr (merge xs items)) := by
  induction items generalizing xs with
  | nil =>
    cases h
    rfl
  | cons i items ih =>
    rw [List.foldlM_cons, Logged.bind_ok_iff] at h
    obtain ⟨current, hcurrent, h⟩ := h
    unfold pushNew at hcurrent
    obtain ⟨text, -, hcurrent⟩ := Logged.bind_ok_iff.mp hcurrent
    cases hcurrent
    exact ih h

theorem lookup_filter_ne (fields : List (String × Json)) (key c : String) :
    (fields.filter fun f => f.1 != key).lookup c = if c = key then none else fields.lookup c := by
  induction fields with
  | nil => simp
  | cons f fields ih =>
    obtain ⟨name, v⟩ := f
    rw [List.filter_cons]
    by_cases hname : name = key
    · subst hname
      simp only [bne_self_eq_false, Bool.false_eq_true, if_false, ih, List.lookup_cons]
      by_cases hc : c = name
      · simp [hc]
      · have hb : (c == name) = false := by simpa using hc
        simp [hc, hb]
    · have hne : (name != key) = true := by simpa using hname
      simp only [hne, if_true, List.lookup_cons, ih]
      by_cases hc : c = key
      · subst hc
        have hb : (c == name) = false := by simpa using Ne.symm hname
        simp [hb]
      · simp [hc]

section OneClaim

variable {fields : List (String × Json)} {key : String} {L L' : String → Json → Bool}
  (hL : ∀ c, Lists (fields.lookup c) (L c)) (hother : ∀ c, c ≠ key → ∀ v, L c v = L' c v)
include hL hother

theorem lists_assign {ys : List Json}
    (hkey : ∀ v, v.IsScalar → Json.includes ys v = L' key v) (c : String) :
    Lists ((assign fields key (.arr ys)).lookup c) (L' c) := by
  rw [lookup_assign]
  split_ifs with hc
  · subst hc
    exact ⟨ys, rfl, hkey⟩
  · exact (hL c).congr fun v _ => hother c hc v

theorem lists_delete (hkey : ∀ v, v.IsScalar → L' key v = false) (c : String) :
    Lists ((fields.filter fun f => f.1 != key).lookup c) (L' c) := by
  rw [lookup_filter_ne]
  split_ifs with hc
  · subst hc
    exact hkey
  · exact (hL c).congr fun v _ => hother c hc v

end OneClaim

/-- What adding to a claim does to a document whose own claims are lists: the list grows, it is
    made, or, under an inherited name, there was nothing to add. -/
theorem addClaim_cases {E : Engine} {fields : List (String × Json)} {key : String}
    {item items' : Json} (hlists : ∀ j, fields.lookup key = some j → ∃ xs, j = .arr xs)
    (h : addClaim E (.obj fields) key item = .ok items') :
    (∃ xs, fields.lookup key = some (.arr xs) ∧
      items' = .obj (assign fields key (.arr (merge xs (asList item))))) ∨
    (fields.lookup key = none ∧ (Json.obj fields).get key = .ok .undefined ∧
      key ≠ "__proto__" ∧ items' = .obj (assign fields key (.arr (merge [] (asList item))))) ∨
    (fields.lookup key = none ∧ asList item = [] ∧ items' = .obj fields) := by
  obtain ⟨current, hcurrent, h⟩ := Logged.bind_ok_iff.mp h
  cases hlookup : fields.lookup key with
  | some j =>
    obtain ⟨xs, rfl⟩ := hlists j hlookup
    rw [Json.get_own hlookup] at hcurrent
    cases hcurrent
    simp only [isUndefined, Bool.false_eq_true, if_false] at h
    obtain ⟨grown, hgrown, h⟩ := Logged.bind_ok_iff.mp h
    rw [pushNew_loop hgrown] at h
    cases h
    exact .inl ⟨xs, rfl, rfl⟩
  | none =>
    have hget := Json.get_inherited hlookup
    rw [hget] at hcurrent ⊢
    cases hcurrent
    unfold inherited at h ⊢
    split_ifs at h ⊢ with hproto hundefined hundefined
    · cases hundefined
    · cases hlist : asList item with
      | nil =>
        rw [hlist] at h
        cases h
        exact .inr (.inr ⟨rfl, rfl, rfl⟩)
      | cons i is =>
        rw [hlist] at h
        cases h
    · have hne : key ≠ "__proto__" := fun he => hproto (he ▸ by decide)
      simp only [setProperty, if_neg hne] at h
      cases h
      exact .inr (.inl ⟨rfl, rfl, hne, rfl⟩)
    · exact absurd rfl hundefined

theorem addClaim_spec {E : Engine} {fields : List (String × Json)} {key : String}
    {item items' : Json} {L : String → Json → Bool} (hL : ∀ c, Lists (fields.lookup c) (L c))
    (h : addClaim E (.obj fields) key item = .ok items') :
    ∃ fields', items' = .obj fields' ∧ ∀ c, Lists (fields'.lookup c)
      (fun v => L c v || (c == key && Json.includes (asList item) v)) := by
  have hother (c : String) (hc : c ≠ key) (v : Json) :
      L c v = (L c v || (c == key && Json.includes (asList item) v)) := by simp [hc]
  have hkey := hL key
  have hlists (j : Json) (hj : fields.lookup key = some j) : ∃ xs, j = .arr xs := by
    rw [hj] at hkey
    obtain ⟨xs, rfl, -⟩ := hkey
    exact ⟨xs, rfl⟩
  rcases addClaim_cases hlists h with
    ⟨xs, hlookup, rfl⟩ | ⟨hlookup, -, -, rfl⟩ | ⟨-, hnil, rfl⟩
  · rw [hlookup] at hkey
    obtain ⟨ys, hys, hxs⟩ := hkey
    cases hys
    refine ⟨_, rfl, lists_assign hL hother fun v hv => ?_⟩
    rw [includes_merge, hxs v hv, beq_self_eq_true, Bool.true_and]
  · rw [hlookup] at hkey
    refine ⟨_, rfl, lists_assign hL hother fun v hv => ?_⟩
    rw [includes_merge, hkey v hv, beq_self_eq_true, Bool.true_and]
    rfl
  · exact ⟨fields, rfl, fun c => (hL c).congr fun v _ => by simp [hnil, Json.includes]⟩

/-- Taking a value out succeeds on an own list only, and deletes one that runs out of values. -/
theorem removeValue_cases {E : Engine} {texts : ReleaseTexts} {fields : List (String × Json)}
    {key : String} {i items' : Json} (h : removeValue E texts key (.obj fields) i = .ok items') :
    ∃ xs, fields.lookup key = some (.arr xs) ∧
      ((xs.filter fun v => !v.strictEq i) = [] ∧
          items' = .obj (fields.filter fun f => f.1 != key) ∨
        (xs.filter fun v => !v.strictEq i) ≠ [] ∧
          items' = .obj (assign fields key (.arr (xs.filter fun v => !v.strictEq i)))) := by
  obtain ⟨_, -, h⟩ := Logged.bind_ok_iff.mp h
  obtain ⟨current, hcurrent, h⟩ := Logged.bind_ok_iff.mp h
  split at h
  · rename_i xs
    cases h
    refine ⟨xs, Json.get_json_iff.mp hcurrent, ?_⟩
    split_ifs with hzero
    · exact .inl ⟨List.length_eq_zero_iff.mp hzero, rfl⟩
    · exact .inr ⟨fun hnil => hzero (List.length_eq_zero_iff.mpr hnil), rfl⟩
  · cases h
  · cases h
  · cases h

theorem removeValue_spec {E : Engine} {texts : ReleaseTexts} {fields : List (String × Json)}
    {key : String} {i items' : Json} {L : String → Json → Bool}
    (hL : ∀ c, Lists (fields.lookup c) (L c))
    (h : removeValue E texts key (.obj fields) i = .ok items') :
    ∃ fields', items' = .obj fields' ∧ ∀ c, Lists (fields'.lookup c)
      (fun v => L c v && !(c == key && i.strictEq v)) := by
  have hother (c : String) (hc : c ≠ key) (v : Json) :
      L c v = (L c v && !(c == key && i.strictEq v)) := by simp [hc]
  obtain ⟨xs, hlookup, hitems⟩ := removeValue_cases h
  have hkey := hL key
  rw [hlookup] at hkey
  obtain ⟨ys, hys, hxs⟩ := hkey
  cases hys
  have hkept (v : Json) (hv : v.IsScalar) :
      Json.includes (xs.filter fun w => !w.strictEq i) v =
        (L key v && !(key == key && i.strictEq v)) := by
    rw [includes_filter xs i v hv, hxs v hv, beq_self_eq_true, Bool.true_and]
  rcases hitems with ⟨hnil, rfl⟩ | ⟨-, rfl⟩
  · refine ⟨_, rfl, lists_delete hL hother fun v hv => ?_⟩
    rw [← hkept v hv, hnil]
    rfl
  · exact ⟨_, rfl, lists_assign hL hother hkept⟩

theorem removeValue_loop {E : Engine} {texts : ReleaseTexts} {fields : List (String × Json)}
    {key : String} {is : List Json} {items' : Json} {L : String → Json → Bool}
    (hL : ∀ c, Lists (fields.lookup c) (L c))
    (h : is.foldlM (removeValue E texts key) (.obj fields) = .ok items') :
    ∃ fields', items' = .obj fields' ∧ ∀ c, Lists (fields'.lookup c)
      (fun v => L c v && !(c == key && Json.includes is v)) := by
  induction is generalizing fields L with
  | nil =>
    cases h
    exact ⟨fields, rfl, fun c => (hL c).congr fun v _ => by simp [Json.includes]⟩
  | cons i is ih =>
    rw [List.foldlM_cons, Logged.bind_ok_iff] at h
    obtain ⟨items, hitems, h⟩ := h
    obtain ⟨fields', rfl, hL'⟩ := removeValue_spec hL hitems
    obtain ⟨fields'', rfl, hL''⟩ := ih hL' h
    refine ⟨fields'', rfl, fun c => (hL'' c).congr fun v _ => ?_⟩
    have hcons : Json.includes (i :: is) v = (i.strictEq v || Json.includes is v) := rfl
    rw [hcons]
    cases L c v <;> cases (c == key) <;> cases i.strictEq v <;> rfl

theorem removeClaim_spec {E : Engine} {texts : ReleaseTexts} {fields : List (String × Json)}
    {key : String} {item items' : Json} {L : String → Json → Bool}
    (hL : ∀ c, Lists (fields.lookup c) (L c))
    (h : removeClaim E texts (.obj fields) key item = .ok items') :
    ∃ fields', items' = .obj fields' ∧ ∀ c, Lists (fields'.lookup c)
      (fun v => L c v && !(c == key && Json.includes (asList item) v)) := by
  unfold removeClaim at h
  rw [Logged.bind_ok_iff] at h
  obtain ⟨current, -, h⟩ := h
  split_ifs at h
  · cases h
  · exact removeValue_loop hL h

theorem removeValues_keep {E : Engine} {texts : ReleaseTexts} {key : String} {Q : Json → Prop}
    (hstep : ∀ items i items', Q items → removeValue E texts key items i = .ok items' → Q items')
    {is : List Json} {items items' : Json} (hQ : Q items)
    (h : is.foldlM (removeValue E texts key) items = .ok items') : Q items' := by
  induction is generalizing items with
  | nil =>
    cases h
    exact hQ
  | cons i is ih =>
    rw [List.foldlM_cons, Logged.bind_ok_iff] at h
    obtain ⟨items₁, hitems₁, h⟩ := h
    exact ih (hstep items i items₁ hQ hitems₁) h

theorem removeClaim_keeps {E : Engine} {texts : ReleaseTexts} {key : String} {Q : Json → Prop}
    (hstep : ∀ items i items', Q items → removeValue E texts key items i = .ok items' → Q items')
    {item items items' : Json} (hQ : Q items)
    (h : removeClaim E texts items key item = .ok items') : Q items' := by
  obtain ⟨current, -, h⟩ := Logged.bind_ok_iff.mp h
  split_ifs at h
  · cases h
  · exact removeValues_keep hstep hQ h

/-- An operator's document holds these bounds. Nothing is ever stored under `__proto__`. -/
def HoldsBounds (items : Json) (B : String → Option Json) : Prop :=
  ∃ fields, items = .obj fields ∧ ∀ c, c ≠ "__proto__" → fields.lookup c = B c

theorem setOperator_spec {texts : ReleaseTexts} {items items' item : Json} {key : String}
    {B : String → Option Json} (hB : HoldsBounds items B)
    (h : setOperator texts items key item = .ok items') :
    HoldsBounds items' fun c => if c = key then some item else B c := by
  obtain ⟨fields, rfl, hfields⟩ := hB
  have hset : setProperty (.obj fields) key item = .ok items' := by
    cases item <;> first | exact h | cases h
  simp only [setProperty, Except.ok.injEq] at hset
  subst hset
  refine ⟨_, rfl, fun c hc => ?_⟩
  dsimp only
  by_cases hproto : key = "__proto__"
  · rw [if_pos hproto, if_neg fun hk => hc (hk.trans hproto), hfields c hc]
  · rw [if_neg hproto, lookup_assign]
    split_ifs
    · rfl
    · exact hfields c hc

theorem dropOperator_spec {E : Engine} {texts : ReleaseTexts} {items items' item : Json}
    {key : String} {B : String → Option Json} (hB : HoldsBounds items B)
    (h : dropOperator E texts items key item = .ok items') :
    HoldsBounds items' fun c => if c = key then none else B c := by
  obtain ⟨fields, rfl, hfields⟩ := hB
  have hdelete : items' = deleteProperty (.obj fields) key := by
    unfold dropOperator at h
    split at h
    · cases h
    · rw [Logged.bind_ok_iff] at h
      obtain ⟨current, -, h⟩ := h
      split_ifs at h
      · cases h
      · rw [Logged.bind_ok_iff] at h
        obtain ⟨_, -, h⟩ := h
        cases h
        rfl
  subst hdelete
  refine ⟨_, rfl, fun c hc => ?_⟩
  rw [lookup_filter_ne]
  dsimp only
  split_ifs
  · rfl
  · exact hfields c hc

theorem editLoop_spec {σ : Type} {texts : ReleaseTexts} {verb label type : String}
    {change : Json → String → Json → Except JsError Json} {R : Json → σ → Prop}
    {f : σ → String × Json → σ}
    (hstep : ∀ items s e items', R items s → change items e.1 e.2 = .ok items' → R items' (f s e))
    {items items' : Json} {s : σ} (hR : R items s) {entries : List (String × Json)}
    (h : editLoop texts verb label type change items entries = .ok items') :
    R items' (run f s entries) := by
  induction entries generalizing items s with
  | nil =>
    cases h
    exact hR
  | cons e entries ih =>
    obtain ⟨key, item⟩ := e
    unfold editLoop at h
    rw [Logged.bind_ok_iff] at h
    obtain ⟨declared, -, h⟩ := h
    dsimp only at h
    split_ifs at h
    · cases h
    · rw [Logged.bind_ok_iff] at h
      obtain ⟨changed, hchanged, h⟩ := h
      exact ih (hstep items s (key, item) changed hR hchanged) h

theorem run_or (L : Bool) (p : String × Json → Bool) (entries : List (String × Json)) :
    run (fun L e => L || p e) L entries = (L || entries.any p) := by
  induction entries generalizing L with
  | nil => simp
  | cons e entries ih => rw [run_cons, ih, List.any_cons, Bool.or_assoc]

theorem run_and_not (L : Bool) (p : String × Json → Bool) (entries : List (String × Json)) :
    run (fun L e => L && !p e) L entries = (L && !entries.any p) := by
  induction entries generalizing L with
  | nil => simp
  | cons e entries ih => rw [run_cons, ih, List.any_cons, Bool.not_or, Bool.and_assoc]

theorem lookup_reverse_snoc (entries : List (String × Json)) (e : String × Json) (c : String) :
    (entries ++ [e]).reverse.lookup c =
      if c = e.1 then some e.2 else entries.reverse.lookup c := by
  rw [List.reverse_append, List.reverse_singleton, List.singleton_append, List.lookup_cons]
  by_cases hc : c = e.1
  · simp [hc]
  · have hb : (c == e.1) = false := by simpa using hc
    simp [hc, hb]

theorem run_set (B : Option Json) (c : String) (entries : List (String × Json)) :
    run (fun B e => if c = e.1 then some e.2 else B) B entries =
      (entries.reverse.lookup c).or B := by
  induction entries using List.reverseRecOn with
  | nil => simp
  | append_singleton entries e ih =>
    rw [run_snoc, ih, lookup_reverse_snoc]
    split_ifs <;> rfl

theorem run_drop (B : Option Json) (c : String) (entries : List (String × Json)) :
    run (fun B e => if c = e.1 then none else B) B entries =
      if (entries.reverse.lookup c).isSome then none else B := by
  induction entries using List.reverseRecOn with
  | nil => simp
  | append_singleton entries e ih =>
    rw [run_snoc, ih, lookup_reverse_snoc]
    by_cases hc : c = e.1
    · simp [hc]
    · rw [if_neg hc, if_neg hc]

/-- `R` holds of the document stored under `type`; an absent one counts as empty. -/
def Holds (map : KvMap String KvText) (type : String) (R : Json → Prop) : Prop :=
  match map.lookup type with
  | none => R (.obj [])
  | some (.json items) => R items
  | some (.raw _) => False

theorem Holds.congr {map map' : KvMap String KvText} {type : String} {R : Json → Prop}
    (hm : Holds map type R) (he : map'.lookup type = map.lookup type) : Holds map' type R := by
  unfold Holds at hm ⊢
  rw [he]
  exact hm

theorem holds_inserted {map : KvMap String KvText} {R : Json → Prop} {type : String} {items : Json}
    (hi : R items) : Holds (map.insert type (.json items)) type R := by
  unfold Holds
  rw [AList.lookup_insert]
  exact hi

theorem edit_spec {σ : Type} {texts : ReleaseTexts} {verb label type : String}
    {absent : Except JsError Json} (habsent : ∀ items, absent = .ok items → items = .obj [])
    {change : Json → String → Json → Except JsError Json} {R : Json → σ → Prop}
    {f : σ → String × Json → σ}
    (hstep : ∀ items s e items', R items s → change items e.1 e.2 = .ok items' → R items' (f s e))
    {map map' : KvMap String KvText} {s : σ} (hm : Holds map type (R · s)) {claims : JsValue}
    (h : edit texts verb label type absent change map claims = .ok map') :
    ∃ entries items, ownEntriesOf claims = .ok entries ∧ map' = map.insert type (.json items) ∧
      R items (run f s entries) := by
  unfold edit at h
  rw [Logged.bind_ok_iff] at h
  obtain ⟨items, hitems, h⟩ := h
  rw [Logged.bind_ok_iff] at h
  obtain ⟨entries, hentries, h⟩ := h
  rw [Logged.bind_ok_iff] at h
  obtain ⟨items', hloop, h⟩ := h
  cases h
  refine ⟨entries, items', hentries, rfl, editLoop_spec hstep ?_ hloop⟩
  unfold readItems at hitems
  unfold Holds at hm
  cases hlookup : map.lookup type with
  | none =>
    rw [hlookup] at hitems hm
    rw [habsent items hitems]
    exact hm
  | some text =>
    rw [hlookup] at hitems hm
    cases text with
    | json stored =>
      cases hitems
      exact hm
    | raw text => cases hm

section EditRules

variable {texts : ReleaseTexts} {verb label type : String} {absent : Except JsError Json}
  (habsent : ∀ items, absent = .ok items → items = .obj [])
  {change : Json → String → Json → Except JsError Json} {map map' : KvMap String KvText}
  {claims : JsValue}
include habsent

/-- What an edit has made of the document is related to the entries it has gone through. -/
theorem edit_history {R : Json → List (String × Json) → Prop}
    (hstep : ∀ items done e items', R items done → change items e.1 e.2 = .ok items' →
      R items' (done ++ [e])) (hm : Holds map type (R · []))
    (h : edit texts verb label type absent change map claims = .ok map') :
    ∃ entries items, ownEntriesOf claims = .ok entries ∧ map' = map.insert type (.json items) ∧
      R items entries := by
  obtain ⟨entries, items, hentries, hmap, hitems⟩ := edit_spec (R := R)
    (f := fun done e => done ++ [id e]) habsent hstep hm h
  rw [run_collect, List.map_id, List.nil_append] at hitems
  exact ⟨entries, items, hentries, hmap, hitems⟩

theorem edit_keeps {Q : Json → Prop}
    (hstep : ∀ items (e : String × Json) items', Q items → change items e.1 e.2 = .ok items' → Q items')
    (hm : Holds map type Q) (h : edit texts verb label type absent change map claims = .ok map') :
    Holds map' type Q := by
  obtain ⟨entries, items, -, rfl, hitems⟩ := edit_history (R := fun items _ => Q items) habsent
    (fun items _ e items' => hstep items e items') hm h
  exact holds_inserted hitems

end EditRules

theorem entriesOf_eq {args claims : JsValue} {field : String}
    {entries : List (String × Json)} (hc : args.get field = .ok claims)
    (he : ownEntriesOf claims = .ok entries) : entriesOf args field = entries := by
  simp only [entriesOf, hc, Logged.ok_bind, he]

theorem noItems_ok (items : Json) (h : (.ok (.obj []) : Except JsError Json) = .ok items) :
    items = .obj [] := by
  cases h
  rfl

theorem absentKey_ok {texts : ReleaseTexts} {verb type : String} (items : Json)
    (h : absentKey texts verb type = .ok items) : items = .obj [] := by cases h

def HoldsClaims (items : Json) (L : String → Json → Bool) : Prop :=
  ∃ fields, items = .obj fields ∧ ∀ c, Lists (fields.lookup c) (L c)

section Edits

variable {E : Engine} {texts : ReleaseTexts} {map map' : KvMap String KvText} {args : JsValue}
  {claims : JsValue}

theorem add_spec {L : String → Json → Bool} (hm : Holds map "claims" (HoldsClaims · L))
    (hc : args.get "claims" = .ok claims) (h : add E texts "claims" map claims = .ok map') :
    ∃ items, map' = map.insert "claims" (.json items) ∧
      HoldsClaims items fun c v => L c v || namesValue c v args := by
  obtain ⟨entries, items, hentries, hmap, hitems⟩ := edit_spec
    noItems_ok
    (fun items L e items' hL hi => by
      obtain ⟨fields, rfl, hfields⟩ := hL
      exact addClaim_spec hfields hi) hm h
  refine ⟨items, hmap, ?_⟩
  obtain ⟨fields, rfl, hfields⟩ := hitems
  refine ⟨fields, rfl, fun c => (hfields c).congr fun v _ => ?_⟩
  rw [run_pointwise (fun c (L : Json → Bool) (e : String × Json) v =>
      L v || (c == e.1 && Json.includes (asList e.2) v)),
    run_pointwise (fun v (l : Bool) (e : String × Json) =>
      l || (c == e.1 && Json.includes (asList e.2) v)), run_or,
    ← entriesOf_eq hc hentries]
  rfl

theorem remove_spec {L : String → Json → Bool} (hm : Holds map "claims" (HoldsClaims · L))
    (hc : args.get "claims" = .ok claims) (h : remove E texts "claims" map claims = .ok map') :
    ∃ items, map' = map.insert "claims" (.json items) ∧
      HoldsClaims items fun c v => L c v && !namesValue c v args := by
  obtain ⟨entries, items, hentries, hmap, hitems⟩ := edit_spec absentKey_ok
    (fun items L e items' hL hi => by
      obtain ⟨fields, rfl, hfields⟩ := hL
      exact removeClaim_spec hfields hi) hm h
  refine ⟨items, hmap, ?_⟩
  obtain ⟨fields, rfl, hfields⟩ := hitems
  refine ⟨fields, rfl, fun c => (hfields c).congr fun v _ => ?_⟩
  rw [run_pointwise (fun c (L : Json → Bool) (e : String × Json) v =>
      L v && !(c == e.1 && Json.includes (asList e.2) v)),
    run_pointwise (fun v (l : Bool) (e : String × Json) =>
      l && !(c == e.1 && Json.includes (asList e.2) v)), run_and_not,
    ← entriesOf_eq hc hentries]
  rfl

theorem operatorEdit_spec {op : Operator} {B : String → Option Json}
    {change : String → KvMap String KvText → JsValue → Except JsError (KvMap String KvText)}
    {f : (String → Option Json) → String × Json → String → Option Json}
    (hm : Holds map op.type (HoldsBounds · B))
    (hchange : ∀ bounds, change op.type map bounds = .ok map' → ∃ entries items,
      ownEntriesOf bounds = .ok entries ∧ map' = map.insert op.type (.json items) ∧
        HoldsBounds items (run f B entries))
    (h : operatorEdit args op.type change map = .ok map') :
    (∀ type, type ≠ op.type → map'.lookup type = map.lookup type) ∧
      Holds map' op.type (HoldsBounds · (run f B (entriesOf args op.type))) := by
  unfold operatorEdit at h
  rw [Logged.bind_ok_iff] at h
  obtain ⟨bounds, hbounds, h⟩ := h
  split_ifs at h with hundefined
  · cases h
    have hentries : entriesOf args op.type = [] := by
      cases bounds with
      | undefined =>
        simp only [entriesOf, hbounds]
        rfl
      | _ => cases hundefined
    rw [hentries]
    exact ⟨fun _ _ => rfl, hm⟩
  · obtain ⟨entries, items, hentries, rfl, hitems⟩ := hchange bounds h
    refine ⟨fun type htype => AList.lookup_insert_ne htype, ?_⟩
    unfold Holds
    rw [AList.lookup_insert, entriesOf_eq hbounds hentries]
    exact hitems

theorem addOperator_spec (op : Operator) {B : String → Option Json}
    (hm : Holds map op.type (HoldsBounds · B))
    (h : operatorEdit args op.type (addOperator texts) map = .ok map') :
    (∀ type, type ≠ op.type → map'.lookup type = map.lookup type) ∧
      Holds map' op.type (HoldsBounds · fun c => (boundGiven op c args).or (B c)) := by
  have hspec := operatorEdit_spec (f := fun B e c => if c = e.1 then some e.2 else B c) hm
    (fun bounds hb => edit_spec noItems_ok
      (fun items B e items' hB hi => setOperator_spec hB hi) hm hb) h
  have hrun : run (fun B (e : String × Json) c => if c = e.1 then some e.2 else B c) B
      (entriesOf args op.type) = fun c => (boundGiven op c args).or (B c) := by
    funext c
    rw [run_pointwise (fun c B (e : String × Json) => if c = e.1 then some e.2 else B), run_set]
    rfl
  rw [hrun] at hspec
  exact hspec

theorem removeOperator_spec (op : Operator) {B : String → Option Json}
    (hm : Holds map op.type (HoldsBounds · B))
    (h : operatorEdit args op.type (removeOperator E texts) map = .ok map') :
    (∀ type, type ≠ op.type → map'.lookup type = map.lookup type) ∧
      Holds map' op.type (HoldsBounds · fun c => if namesBound op c args then none else B c) := by
  have hspec := operatorEdit_spec (f := fun B e c => if c = e.1 then none else B c) hm
    (fun bounds hb => edit_spec absentKey_ok
      (fun items B e items' hB hi => dropOperator_spec hB hi) hm hb) h
  have hrun : run (fun B (e : String × Json) c => if c = e.1 then none else B c) B
      (entriesOf args op.type) = fun c => if namesBound op c args then none else B c := by
    funext c
    rw [run_pointwise (fun c B (e : String × Json) => if c = e.1 then none else B), run_drop]
    rfl
  rw [hrun] at hspec
  exact hspec

end Edits

end SetKeyReleasePolicy
end DepaKms
