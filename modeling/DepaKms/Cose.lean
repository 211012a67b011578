import DepaKms.Tooling

set_option autoImplicit false

/-!
# Signed documents

The header of a COSE document, and the creation time in it. The signature itself is
checked by the platform before a request gets here.
-/
namespace DepaKms

namespace Cbor

/-- `v[key]`, for keys that no prototype has. -/
def get (v : Cbor) (key : String) : Except JsError Cbor :=
  match v with
  | null => .error (cannotRead key "null")
  | undefined => .error (cannotRead key "undefined")
  | record fields => .ok ((fields.lookup key).getD undefined)
  | tagged value => .ok (if key = "value" then value else undefined)
  | array xs => .ok (if key = "0" then xs.headD undefined else undefined)
  | bytes b => .ok (if key = "0" then (b.map fun x => int x.toNat).headD undefined else undefined)
  | text s =>
    .ok (if key = "0" then (s.toList.map fun c => text (String.singleton c)).headD undefined
      else undefined)
  | bool _ | int _ | float _ | bigint _ | other .. => .ok undefined

mutual

/-- The text of a value, in a template. -/
def render (E : Engine) : Cbor → Except JsError String
  | null => .ok "null"
  | undefined => .ok "undefined"
  | bool b => .ok (toString b)
  | int n => .ok (E.numberToString n)
  | float x => .ok (x.text E)
  | bigint n => .ok (toString n)
  | bytes b => .ok (String.intercalate "," (b.map fun x => toString x.toNat))
  | text s => .ok s
  | array xs => do
    let texts ← renderItems E xs
    pure (String.intercalate "," texts)
  | record fields =>
    if fields.any fun f => f.1 == "toString" then .error noPrimitive else .ok "[object Object]"
  | tagged _ => .ok "[object Object]"
  | other _ s => .ok s

def renderItems (E : Engine) : List Cbor → Except JsError (List String)
  | [] => .ok []
  | null :: vs | undefined :: vs => do
    let texts ← renderItems E vs
    pure ("" :: texts)
  | v :: vs => do
    let text ← render E v
    let texts ← renderItems E vs
    pure (text :: texts)

end

end Cbor

/-- White space and line ends, which `Number(s)` skips at both ends of a text. -/
def isStrWhiteSpace (c : Char) : Bool :=
  (9 ≤ c.toNat && c.toNat ≤ 13) || (8192 ≤ c.toNat && c.toNat ≤ 8202) ||
    [32, 160, 5760, 8232, 8233, 8239, 8287, 12288, 65279].contains c.toNat

def trimmed (s : String) : String :=
  String.ofList ((s.toList.dropWhile isStrWhiteSpace).rdropWhile isStrWhiteSpace)

/-- `Number(s)`. -/
def numberOfText (E : Engine) (s : String) : Number :=
  match trimmed s with
  | "Infinity" | "+Infinity" => .infinity
  | "-Infinity" => .negInfinity
  | _ =>
    match E.stringToNumber s with
    | some q => .finite q
    | none => .nan

/-- A creation time as the program compares it: it may be any value. An object comes with the
    number and the text it converts to, and with the id under which a map holds it: no two
    decoded objects are the same. -/
inductive CreatedAt where
  | number (x : Number)
  | bigint (n : ℤ)
  | undefined
  | null
  | bool (b : Bool)
  | text (s : String)
  | object (converted : Except JsError (Number × String)) (holder : Option Bytes)
  deriving DecidableEq

namespace CreatedAt

def ofCbor (E : Engine) (v : Cbor) : CreatedAt :=
  match v with
  | .null => null
  | .undefined => undefined
  | .bool b => bool b
  | .int n => number (.finite n)
  | .float x => number x
  | .bigint n => bigint n
  | .text s => text s
  | .other x s => object (.ok (x, s)) none
  | .bytes _ | .array _ | .record _ | .tagged _ =>
    object ((v.render E).map fun s => (numberOfText E s, s)) none

/-- The object among the keys of a map. -/
def heldBy (proposalId : Bytes) : CreatedAt → CreatedAt
  | object converted _ => object converted (some proposalId)
  | created => created

def isBigint : CreatedAt → Bool
  | bigint _ => true
  | _ => false

/-- The number that `<` compares. -/
def compared (E : Engine) : CreatedAt → Except JsError Number
  | number x => .ok x
  | bigint n => .ok (.finite n)
  | undefined => .ok .nan
  | null => .ok (.finite 0)
  | bool b => .ok (.finite (if b then 1 else 0))
  | text s => .ok (numberOfText E s)
  | object converted _ => converted.map Prod.fst

/-- The number that arithmetic takes. -/
def toNumber (E : Engine) (created : CreatedAt) : Except JsError Number :=
  if created.isBigint then .error ⟨"cannot convert bigint to number"⟩ else created.compared E

def render (E : Engine) : CreatedAt → Except JsError String
  | number x => .ok (x.text E)
  | bigint n => .ok (toString n)
  | undefined => .ok "undefined"
  | null => .ok "null"
  | bool b => .ok (toString b)
  | text s => .ok s
  | object converted _ => converted.map Prod.snd

/-- The time, where it is a number. -/
def time : CreatedAt → Option ℚ
  | number (.finite q) => some q
  | bigint n => some n
  | _ => none

end CreatedAt

variable (h : Host)

/-- `v && v.length > 0` -/
def nonempty (v : Cbor) : Except JsError Bool :=
  match v with
  | .bytes b => .ok !b.isEmpty
  | .text s => .ok (s != "")
  | .array xs => .ok !xs.isEmpty
  | .record fields =>
    match fields.lookup "length" with
    | some length => ((CreatedAt.ofCbor h.toEngine length).compared h.toEngine).map fun n =>
        Number.lt (.finite 0) n
    | none => .ok false
  | _ => .ok false

def decode (source : Cbor) : Except JsError Cbor :=
  match source with
  | .bytes b => h.cborDecode b
  | _ => .error ⟨"Source must be a Uint8Array or Buffer"⟩

def parseCoseDocument (coseArrayBuffer : Bytes) : Handler Cbor := do
  let decodedCose ← tryCatch (liftM (h.cborDecode coseArrayBuffer)) fun error => do
    Logger.error h.toEngine s!"Failed to decode COSE document: {error.render}"
      (some LogContext.new) []
    throw error
  decodedCose.get "value"

def getCoseProtectedHeader (coseArrayBuffer : Bytes) : Handler Cbor := do
  let decodedCose ← tryCatch (parseCoseDocument h coseArrayBuffer) fun error => do
    Logger.error h.toEngine s!"Failed to parse COSE document: {error.render}"
      (some LogContext.new) []
    throw error
  let protectedHeaderBytes ← decodedCose.get "0"
  if ← nonempty h protectedHeaderBytes then decode h protectedHeaderBytes
  else throw ⟨"No protected header provided or it is empty"⟩

/-- `getCoseProtectedHeader(document)["ccf.gov.msg.created_at"]`. -/
def createdAt (document : Bytes) : Handler CreatedAt := do
  let header ← getCoseProtectedHeader h document
  let created ← header.get "ccf.gov.msg.created_at"
  pure (.ofCbor h.toEngine created)

/-- `Math.max(...times)`, which is `-Infinity` for no times. -/
def mathMax : List CreatedAt → Except JsError Number
  | [] => .ok .negInfinity
  | created :: times => do
    let x ← created.toNumber h.toEngine
    let rest ← mathMax times
    pure (x.max rest)

def createdBefore (created : CreatedAt) (last : Number) : Except JsError Bool :=
  (created.compared h.toEngine).map fun x => x.lt last

/-- The place of a time among others; those without one are not sorted by it. -/
def sortKey (created : CreatedAt) : WithBot (WithTop ℚ) :=
  ((created.toNumber h.toEngine).toOption.bind Number.value).getD ⊥

/-- `xs.sort((a, b) => a - b)` for the times of the entries. Where one of them is no number, the
    differences with it are not either, and the order is the engine's. -/
def sortByTime {α : Type} (time : α → CreatedAt) (xs : List α) : Except JsError (List α) :=
  if xs.length < 2 then .ok xs
  else do
    let numbers ← xs.mapM fun x => (time x).toNumber h.toEngine
    if Number.nan ∈ numbers then pure ((h.sortOrder numbers).filterMap fun i => xs[i]?)
    else pure (xs.insertionSort fun a b => sortKey h (time a) ≤ sortKey h (time b))

/-- `times.sort((a, b) => a - b)`, which never compares `undefined` and puts it last. -/
def sortTimes (times : List CreatedAt) : Except JsError (List CreatedAt) := do
  let compared ← sortByTime h id (times.filter fun t => t ≠ .undefined)
  pure (compared ++ times.filter fun t => t = .undefined)

namespace CreatedAt

variable {E : Engine} {created : CreatedAt}

@[simp] theorem isBigint_heldBy (proposalId : Bytes) :
    (created.heldBy proposalId).isBigint = created.isBigint := by cases created <;> rfl

@[simp] theorem compared_heldBy (proposalId : Bytes) :
    (created.heldBy proposalId).compared E = created.compared E := by cases created <;> rfl

@[simp] theorem toNumber_heldBy (proposalId : Bytes) :
    (created.heldBy proposalId).toNumber E = created.toNumber E := by
  unfold toNumber
  rw [isBigint_heldBy, compared_heldBy]

@[simp] theorem time_heldBy (proposalId : Bytes) :
    (created.heldBy proposalId).time = created.time := by cases created <;> rfl

@[simp] theorem heldBy_eq_undefined_iff {proposalId : Bytes} :
    created.heldBy proposalId = undefined ↔ created = undefined := by
  cases created <;> simp [heldBy]

theorem heldBy_of_time {q : ℚ} (hq : created.time = some q) (proposalId : Bytes) :
    created.heldBy proposalId = created := by
  cases created with
  | object converted holder => cases hq
  | _ => rfl

theorem toNumber_ok_iff {x : Number} :
    created.toNumber E = .ok x ↔ created.isBigint = false ∧ created.compared E = .ok x := by
  unfold toNumber
  cases created.isBigint <;> simp

theorem compared_of_time {q : ℚ} (hq : created.time = some q) :
    created.compared E = .ok (.finite q) := by
  cases created with
  | number x =>
    cases x with
    | finite q' =>
      cases hq
      rfl
    | _ => cases hq
  | bigint n =>
    cases hq
    rfl
  | _ => cases hq

end CreatedAt

section Times

variable {h : Host} {times : List CreatedAt}

theorem createdBefore_eq_false_iff {created : CreatedAt} {last : Number} :
    createdBefore h created last = .ok false ↔
      ∃ x, created.compared h.toEngine = .ok x ∧ x.lt last = false := by
  unfold createdBefore
  cases created.compared h.toEngine <;> simp [Except.map]

theorem mathMax_ok_iff : (∃ last, mathMax h times = .ok last) ↔
    ∀ t ∈ times, ∃ x, t.toNumber h.toEngine = .ok x := by
  induction times with
  | nil => exact iff_of_true ⟨_, rfl⟩ (by simp)
  | cons created times ih =>
    rw [List.forall_mem_cons, ← ih]
    constructor
    · rintro ⟨last, hlast⟩
      obtain ⟨x, hx, hlast⟩ := Logged.bind_ok_iff.mp hlast
      obtain ⟨rest, hrest, -⟩ := Logged.bind_ok_iff.mp hlast
      exact ⟨⟨x, hx⟩, rest, hrest⟩
    · rintro ⟨⟨x, hx⟩, rest, hrest⟩
      refine ⟨x.max rest, ?_⟩
      unfold mathMax
      rw [hx, Logged.ok_bind, hrest]
      rfl

/-- The maximum is `NaN` as soon as one time is, and one of the times that are not below others
    otherwise. -/
structure Greatest (h : Host) (times : List CreatedAt) (last : Number) : Prop where
  nan : last = .nan ↔ ∃ t ∈ times, t.toNumber h.toEngine = .ok .nan
  bound : last ≠ .nan → ∀ t ∈ times, ∀ x, t.toNumber h.toEngine = .ok x → last.lt x = false
  attained : last ≠ .nan → times ≠ [] → ∃ t ∈ times, t.toNumber h.toEngine = .ok last

theorem mathMax_greatest {last : Number} (hm : mathMax h times = .ok last) :
    Greatest h times last ∧ (times = [] → last = .negInfinity) := by
  induction times generalizing last with
  | nil =>
    cases hm
    exact ⟨⟨by simp, by simp, by simp⟩, fun _ => rfl⟩
  | cons created times ih =>
    obtain ⟨x, hx, hm⟩ := Logged.bind_ok_iff.mp hm
    obtain ⟨rest, hrest, hm⟩ := Logged.bind_ok_iff.mp hm
    cases hm
    obtain ⟨hg, hempty⟩ := ih hrest
    refine ⟨?_, by simp⟩
    have hcreated (y : Number) (hy : created.toNumber h.toEngine = .ok y) : y = x :=
      Except.ok.inj (hy.symm.trans hx)
    rcases Number.max_cases x rest with ⟨hnan, hor⟩ | ⟨hxn, hrn, hcase⟩
    · rw [hnan]
      refine ⟨iff_of_true rfl ?_, by simp, by simp⟩
      rcases hor with rfl | hr
      · exact ⟨created, List.mem_cons_self, hx⟩
      · obtain ⟨t, ht, htn⟩ := hg.nan.mp hr
        exact ⟨t, List.mem_cons_of_mem _ ht, htn⟩
    · have hne : x.max rest ≠ .nan := by
        rcases hcase with ⟨he, -⟩ | ⟨he, -⟩
        · rwa [he]
        · rwa [he]
      refine ⟨iff_of_false hne ?_, fun _ => ?_, fun _ _ => ?_⟩
      · rintro ⟨t, ht, htn⟩
        rcases List.mem_cons.mp ht with rfl | ht
        · exact hxn (hcreated _ htn).symm
        · exact hrn (hg.nan.mpr ⟨t, ht, htn⟩)
      · rw [List.forall_mem_cons]
        rcases hcase with ⟨he, hlt⟩ | ⟨he, hlt⟩
        · rw [he]
          refine ⟨fun y hy => by rw [hcreated y hy, Number.not_lt_self], fun t ht y hy => ?_⟩
          exact Number.not_lt_trans hrn hlt (hg.bound hrn t ht y hy)
        · rw [he]
          exact ⟨fun y hy => by rw [hcreated y hy, Number.not_lt_of_lt hlt], hg.bound hrn⟩
      · rcases hcase with ⟨he, -⟩ | ⟨he, hlt⟩
        · rw [he]
          exact ⟨created, List.mem_cons_self, hx⟩
        · rw [he]
          have hfilled : times ≠ [] := by
            intro htimes
            rw [hempty htimes, Number.lt_negInfinity] at hlt
            cases hlt
          obtain ⟨t, ht, htr⟩ := hg.attained hrn hfilled
          exact ⟨t, List.mem_cons_of_mem _ ht, htr⟩

/-- What the bar lets through. -/
theorem not_lt_mathMax_iff {last : Number} (hm : mathMax h times = .ok last) (x : Number) :
    x.lt last = false ↔ (∃ t ∈ times, t.toNumber h.toEngine = .ok .nan) ∨
      ∀ t ∈ times, ∀ y, t.toNumber h.toEngine = .ok y → x.lt y = false := by
  obtain ⟨hg, hempty⟩ := mathMax_greatest hm
  by_cases hnan : last = .nan
  · rw [hnan]
    exact iff_of_true (Number.lt_nan x) (.inl (hg.nan.mp hnan))
  constructor
  · exact fun hx => .inr fun t ht y hy => Number.not_lt_trans hnan hx (hg.bound hnan t ht y hy)
  · rintro (hsome | hall)
    · exact absurd (hg.nan.mpr hsome) hnan
    · by_cases htimes : times = []
      · rw [hempty htimes, Number.lt_negInfinity]
      · obtain ⟨t, ht, htl⟩ := hg.attained hnan htimes
        exact hall t ht last htl

theorem mapM_toNumber_ok_iff {α : Type} {time : α → CreatedAt} {xs : List α} :
    (∃ numbers, xs.mapM (fun x => (time x).toNumber h.toEngine) = .ok numbers) ↔
      ∀ x ∈ xs, ∃ n, (time x).toNumber h.toEngine = .ok n := by
  induction xs with
  | nil => exact iff_of_true ⟨[], rfl⟩ (by simp)
  | cons x xs ih =>
    rw [List.forall_mem_cons, ← ih, List.mapM_cons]
    constructor
    · rintro ⟨numbers, hn⟩
      obtain ⟨n, hx, hn⟩ := Logged.bind_ok_iff.mp hn
      obtain ⟨rest, hrest, -⟩ := Logged.bind_ok_iff.mp hn
      exact ⟨⟨n, hx⟩, rest, hrest⟩
    · rintro ⟨⟨n, hx⟩, rest, hrest⟩
      refine ⟨n :: rest, ?_⟩
      rw [hx, Logged.ok_bind, hrest]
      rfl

theorem mapM_toNumber_forall₂ {α : Type} {time : α → CreatedAt} {xs : List α}
    {numbers : List Number}
    (hn : xs.mapM (fun x => (time x).toNumber h.toEngine) = .ok numbers) :
    List.Forall₂ (fun x n => (time x).toNumber h.toEngine = .ok n) xs numbers := by
  induction xs generalizing numbers with
  | nil =>
    cases hn
    exact .nil
  | cons x xs ih =>
    rw [List.mapM_cons] at hn
    obtain ⟨n, hx, hn⟩ := Logged.bind_ok_iff.mp hn
    obtain ⟨rest, hrest, hn⟩ := Logged.bind_ok_iff.mp hn
    cases hn
    exact .cons hx (ih hrest)

theorem picked_perm {α : Type} {xs : List α} {order : List ℕ}
    (ho : order.Perm (List.range xs.length)) : (order.filterMap fun i => xs[i]?).Perm xs := by
  refine (ho.filterMap _).trans ?_
  have hall : (List.range xs.length).filterMap (fun i => xs[i]?) = xs := by
    clear ho
    induction xs with
    | nil => rfl
    | cons x xs ih =>
      rw [List.length_cons, List.range_succ_eq_map, List.filterMap_cons, List.filterMap_map]
      exact congrArg (x :: ·) ih
  rw [hall]

section Sorting

variable {α : Type} {time : α → CreatedAt} {xs sorted : List α}

theorem sortByTime_ok_iff : (∃ sorted, sortByTime h time xs = .ok sorted) ↔
    (2 ≤ xs.length → ∀ x ∈ xs, ∃ n, (time x).toNumber h.toEngine = .ok n) := by
  unfold sortByTime
  split_ifs with hshort
  · exact iff_of_true ⟨xs, rfl⟩ (by omega)
  · rw [← mapM_toNumber_ok_iff]
    constructor
    · rintro ⟨sorted, hs⟩ -
      obtain ⟨numbers, hn, -⟩ := Logged.bind_ok_iff.mp hs
      exact ⟨numbers, hn⟩
    · intro hn
      obtain ⟨numbers, hn⟩ := hn (by omega)
      rw [hn, Logged.ok_bind]
      split_ifs
      · exact ⟨_, rfl⟩
      · exact ⟨_, rfl⟩

theorem sortByTime_perm (hs : sortByTime h time xs = .ok sorted) : sorted.Perm xs := by
  unfold sortByTime at hs
  split_ifs at hs
  · cases hs
    exact .refl _
  · obtain ⟨numbers, hn, hs⟩ := Logged.bind_ok_iff.mp hs
    split_ifs at hs
    · cases hs
      refine picked_perm ?_
      rw [(mapM_toNumber_forall₂ hn).length_eq]
      exact h.sortOrder_perm numbers
    · cases hs
      exact List.perm_insertionSort _ _

theorem sortByTime_ordered (hs : sortByTime h time xs = .ok sorted)
    (hall : ∀ x ∈ xs, ∃ q, (time x).time = some q) :
    sorted.Pairwise fun a b => (time a).time.getD 0 ≤ (time b).time.getD 0 := by
  have hperm := sortByTime_perm hs
  unfold sortByTime at hs
  split_ifs at hs with hshort
  · cases hs
    cases xs with
    | nil => exact .nil
    | cons x rest =>
      cases rest with
      | nil => exact List.pairwise_singleton _ x
      | cons y rest => exact absurd hshort (by simp)
  · obtain ⟨numbers, hn, hs⟩ := Logged.bind_ok_iff.mp hs
    have hpaired := mapM_toNumber_forall₂ hn
    have hnumber (x : α) (hx : x ∈ xs) :
        ∃ q, (time x).time = some q ∧ (time x).toNumber h.toEngine = .ok (.finite q) := by
      obtain ⟨q, hq⟩ := hall x hx
      obtain ⟨n, hxn⟩ := mapM_toNumber_ok_iff.mp ⟨numbers, hn⟩ x hx
      refine ⟨q, hq, ?_⟩
      rw [hxn, ← CreatedAt.compared_of_time hq, (CreatedAt.toNumber_ok_iff.mp hxn).2]
    have hnan : Number.nan ∉ numbers := by
      intro hmem
      obtain ⟨i, hi, hin⟩ := List.getElem_of_mem hmem
      have hix : i < xs.length := by rw [hpaired.length_eq]; exact hi
      obtain ⟨q, -, hxq⟩ := hnumber xs[i] (List.getElem_mem hix)
      have hxn := hpaired.get hix hi
      rw [List.get_eq_getElem, List.get_eq_getElem, hxq, hin] at hxn
      cases hxn
    rw [if_neg hnan] at hs
    cases hs
    have hkeys := List.pairwise_insertionSort
      (fun a b => sortKey h (time a) ≤ sortKey h (time b)) xs
    refine hkeys.imp_of_mem fun {a b} ha hb hab => ?_
    obtain ⟨p, hp, hpn⟩ := hnumber a (hperm.mem_iff.mp ha)
    obtain ⟨q, hq, hqn⟩ := hnumber b (hperm.mem_iff.mp hb)
    unfold sortKey at hab
    rw [hpn, hqn] at hab
    rw [hp, hq]
    exact WithTop.coe_le_coe.mp (WithBot.coe_le_coe.mp hab)

end Sorting

theorem sortTimes_ok_iff : (∃ sorted, sortTimes h times = .ok sorted) ↔
    (2 ≤ (times.filter fun t => t ≠ .undefined).length →
      ∀ t ∈ times, ∃ x, t.toNumber h.toEngine = .ok x) := by
  have hall : (∀ t ∈ times.filter fun t => t ≠ .undefined, ∃ x, t.toNumber h.toEngine = .ok x) ↔
      ∀ t ∈ times, ∃ x, t.toNumber h.toEngine = .ok x := by
    constructor
    · intro hdefined t ht
      by_cases hu : t = .undefined
      · rw [hu]
        exact ⟨.nan, rfl⟩
      · exact hdefined t (List.mem_filter.mpr ⟨ht, by simpa using hu⟩)
    · exact fun hall t ht => hall t (List.mem_of_mem_filter ht)
  have hsorted : (∃ sorted, sortTimes h times = .ok sorted) ↔
      ∃ compared, sortByTime h id (times.filter fun t => t ≠ .undefined) = .ok compared := by
    constructor
    · rintro ⟨sorted, hs⟩
      obtain ⟨compared, hc, -⟩ := Logged.bind_ok_iff.mp hs
      exact ⟨compared, hc⟩
    · rintro ⟨compared, hc⟩
      refine ⟨compared ++ times.filter fun t => t = .undefined, ?_⟩
      unfold sortTimes
      rw [hc]
      rfl
  rw [hsorted, sortByTime_ok_iff, ← hall]
  rfl

theorem sortTimes_perm {sorted : List CreatedAt} (hs : sortTimes h times = .ok sorted) :
    sorted.Perm times := by
  obtain ⟨compared, hc, hs⟩ := Logged.bind_ok_iff.mp hs
  cases hs
  have hpart := List.filter_append_perm (fun t => decide (t ≠ .undefined)) times
  refine ((sortByTime_perm hc).append_right _).trans ?_
  simpa using hpart

end Times

end DepaKms
