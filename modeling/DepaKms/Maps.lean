import DepaKms.ServiceResult

set_option autoImplicit false

/-!
# The stores

The key-value maps of the application. A value of a policy map is a text; `KvText`
keeps the document it parses to, or the text itself where it does not parse. Typed
maps hand out a fresh copy of what is stored.
-/
namespace DepaKms

abbrev KvMap (K V : Type) : Type := AList fun _ : K => V

namespace KvMap

variable {K V : Type} [DecidableEq K]

def update (map : KvMap K V) (k : K) (v : V) : KvMap K V where
  entries := map.entries.map fun e => ⟨e.1, if e.1 = k then v else e.2⟩
  nodupKeys := by
    have hkeys : (map.entries.map fun e => (⟨e.1, if e.1 = k then v else e.2⟩ :
        Sigma fun _ : K => V)).keys = map.entries.keys := by
      unfold List.keys
      rw [List.map_map]
      rfl
    unfold List.NodupKeys
    rw [hkeys]
    exact map.nodupKeys

/-- `map.set(k, v)` on a map of the language: a key that is there keeps its place, a new one
    comes last. -/
def set (map : KvMap K V) (k : K) (v : V) : KvMap K V :=
  if k ∈ map then map.update k v else map ∪ AList.singleton k v

theorem lookup_update (map : KvMap K V) (k : K) (v : V) (k' : K) :
    (map.update k v).lookup k' = (map.lookup k').map fun w => if k' = k then v else w := by
  change List.dlookup k' (map.entries.map _) = (List.dlookup k' map.entries).map _
  induction map.entries with
  | nil => rfl
  | cons e entries ih =>
    obtain ⟨g, w⟩ := e
    rw [List.map_cons]
    by_cases hg : k' = g
    · subst hg
      rw [List.dlookup_cons_eq, List.dlookup_cons_eq]
      rfl
    · rw [List.dlookup_cons_ne _ _ hg, List.dlookup_cons_ne _ _ hg, ih]

theorem lookup_set (map : KvMap K V) (k : K) (v : V) : (map.set k v).lookup k = some v := by
  unfold set
  split_ifs with hk
  · obtain ⟨w, hw⟩ := Option.isSome_iff_exists.mp (AList.lookup_isSome.mpr hk)
    rw [lookup_update, hw, Option.map_some, if_pos rfl]
  · rw [AList.lookup_union_right hk]
    exact List.dlookup_cons_eq _ _ _

theorem lookup_set_ne (map : KvMap K V) {k k' : K} (hne : k' ≠ k) (v : V) :
    (map.set k v).lookup k' = map.lookup k' := by
  unfold set
  split_ifs with hk
  · rw [lookup_update]
    simp only [if_neg hne, Option.map_id']
  · by_cases hk' : k' ∈ map
    · rw [AList.lookup_union_left hk']
    · rw [AList.lookup_union_right hk', AList.lookup_eq_none.mpr hk']
      exact AList.lookup_eq_none.mpr (by simpa [AList.mem_keys] using hne)

theorem mem_set {map : KvMap K V} {k k' : K} {v : V} : k' ∈ map.set k v ↔ k' = k ∨ k' ∈ map := by
  by_cases hk : k' = k
  · subst hk
    simp only [true_or, iff_true]
    rw [← AList.lookup_isSome, lookup_set]
    rfl
  · rw [← AList.lookup_isSome, lookup_set_ne map hk, AList.lookup_isSome]
    simp [hk]

theorem keys_set_perm {map : KvMap K V} {k : K} (hk : k ∉ map) (v : V) :
    (map.set k v).keys.Perm (k :: map.keys) := by
  have hnodup : (k :: map.keys).Nodup :=
    List.nodup_cons.mpr ⟨fun hmem => hk (AList.mem_keys.mpr hmem), map.keys_nodup⟩
  refine (List.perm_ext_iff_of_nodup (map.set k v).keys_nodup hnodup).mpr fun k' => ?_
  rw [← AList.mem_keys, mem_set, List.mem_cons, AList.mem_keys]

end KvMap

inductive KvText where
  | json (v : Json)
  | raw (text : String)

def KvText.bufToStr (E : Engine) : KvText → String
  | json v => v.stringify E
  | raw text => text

structure IKeyItem where
  crv : String
  d : Option String
  kid : Option String
  kty : String
  x : String
  timestamp : Option ℚ
  expiry : Option ℚ
  id : Option ℕ
  receipt : Option String

def IKeyItem.toJson (item : IKeyItem) : Json :=
  .obj ([("crv", .str item.crv)] ++ (item.d.toList.map fun d => ("d", .str d)) ++
    (item.kid.toList.map fun kid => ("kid", .str kid)) ++
    [("kty", .str item.kty), ("x", .str item.x)] ++
    (item.timestamp.toList.map fun t => ("timestamp", .num t)) ++
    (item.expiry.toList.map fun t => ("expiry", .num t)) ++
    (item.id.toList.map fun n => ("id", .num n)) ++
    (item.receipt.toList.map fun r => ("receipt", .str r)))

instance : Serializable IKeyItem := ⟨fun item => .json item.toJson⟩

structure StoredItem where
  item : IKeyItem
  version : ℕ

structure Kv where
  version : ℕ
  hpkeKeys : KvMap String StoredItem
  hpkeKeyIds : KvMap ℕ String
  keyRelease : KvMap String KvText
  gcpKeyRelease : KvMap String KvText
  settings : KvMap String KvText
  keyRotation : KvMap String KvText
  jwtValidation : KvMap String KvText
  proposals : KvMap Bytes Bytes
  jwtIssuers : KvMap String KvText
  usersCerts : KvMap String Bytes
  membersCerts : KvMap String Bytes
  membersInfo : KvMap String KvText
  userRoles : KvMap String KvText

def Kv.empty : Kv := ⟨1, ∅, ∅, ∅, ∅, ∅, ∅, ∅, ∅, ∅, ∅, ∅, ∅, ∅⟩

def stringKey : JsValue → Except JsError String
  | .json (.str s) => .ok s
  | _ => .error ⟨"Value is not a string"⟩

/-- The key of a typed map of 32-bit numbers; anything beyond them is refused. -/
def uint32Key (id : ℕ) : Except JsError ℕ :=
  if id < 2 ^ 32 then .ok id else .error ⟨"Value is not a uint32"⟩

namespace KeyStore

def get (kv : Kv) (id : JsValue) : Except JsError (Option IKeyItem) := do
  let id ← stringKey id
  pure ((kv.hpkeKeys.lookup id).map StoredItem.item)

/-- The claims digest is part of the transaction, not of the maps. -/
def storeItem (kv : Kv) (id : String) (item : IKeyItem) : Kv :=
  { kv with hpkeKeys := kv.hpkeKeys.insert id ⟨item, kv.version⟩ }

def toInt32 : Option ℤ → ℤ
  | none => 0
  | some n => n.bmod (2 ^ 32)

/-- One round of the loop; a byte beyond the end is `undefined`, and makes `NaN`. -/
def calcVersionStep (buf : Bytes) (identifier : Option ℤ) (inx : ℕ) : Option ℤ :=
  buf[inx]?.map fun b => toInt32 identifier / 2 ^ 8 + b.toNat

def calcVersion (id : String) : Option ℤ :=
  (List.range 8).foldl (calcVersionStep (strToBuf id)) (some 0)

def handleText : Option ℤ → String
  | none => "NaN"
  | some n => toString n

def receipt (E : Engine) (t : Moment) (kv : Kv) (id : String) : Handler (Option String) := do
  match kv.hpkeKeys.lookup id with
  | none =>
    Logger.debug E s!"version for id {id} is undefined: undefined" none []
    pure none
  | some stored => do
    Logger.debug E s!"version for id {id}: {stored.version}" none []
    Logger.debug E s!"Calculated version: {handleText (calcVersion id)}" none []
    match t.getStateRange (calcVersion id) stored.version with
    | some ret => do
      Logger.debug E s!"Receipt: {ret}" none []
      pure (some ret)
    | none => pure none

theorem result_receipt (E : Engine) (t : Moment) (kv : Kv) (id : String) :
    (receipt E t kv id).result =
      .ok ((kv.hpkeKeys.lookup id).bind fun s => t.getStateRange (calcVersion id) s.version) := by
  unfold receipt
  cases hs : kv.hpkeKeys.lookup id with
  | none => rfl
  | some stored =>
    dsimp only
    cases hr : t.getStateRange (calcVersion id) stored.version with
    | none => simp only [Logged.result_bind, Logger.result_debug, Option.bind_some, hr]; rfl
    | some ret => simp only [Logged.result_bind, Logger.result_debug, Option.bind_some, hr]; rfl

end KeyStore

namespace LastestItemStore

def size (kv : Kv) : ℕ := kv.hpkeKeyIds.keys.length

def get (kv : Kv) (id : ℕ) : Except JsError (Option String) := do
  let id ← uint32Key id
  pure (kv.hpkeKeyIds.lookup id)

def latestItem (kv : Kv) : Except JsError (ℕ × Option String) :=
  let id := size kv
  if id ≤ 0 then pure (id, none)
  else do
    let item ← get kv id
    pure (id, item)

def storeItem (kv : Kv) (id : ℕ) (item : String) : Except JsError Kv := do
  let id ← uint32Key id
  pure { kv with hpkeKeyIds := kv.hpkeKeyIds.insert id item }

end LastestItemStore

end DepaKms
