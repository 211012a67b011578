import Mathlib

set_option autoImplicit false

/-!
# Values of the language

`Json` is what `JSON.parse` can return; `JsValue` adds what a property read can
return besides: `undefined`, and the members that every object inherits. Numbers
are exact rationals; a computed number is an `Option ℚ`, where `none` is `NaN`.
-/
namespace DepaKms

/-- A JSON document. The fields of an object stand in the order of insertion. -/
inductive Json where
  | null
  | bool (b : Bool)
  | num (q : ℚ)
  | str (s : String)
  | arr (xs : List Json)
  | obj (fields : List (String × Json))

/-- `builtin name` is the member `name` inherited from `Object.prototype`. -/
inductive JsValue where
  | undefined
  | builtin (name : String)
  | json (v : Json)

structure JsError where
  message : String
  deriving DecidableEq, Repr

/-- What the language leaves to the engine, or defines on binary floating point. -/
structure Engine where
  numberToString : ℚ → String
  parseFloat : String → Option ℚ
  stringToNumber : String → Option ℚ
  functionText : String → String
  dateToString : Option ℚ → String
  dateToUTCString : ℚ → String

def notAFunction : JsError := ⟨"not a function"⟩
def noPrimitive : JsError := ⟨"toPrimitive"⟩
def noObject : JsError := ⟨"cannot convert to object"⟩
def cannotRead (key value : String) : JsError := ⟨s!"cannot read property '{key}' of {value}"⟩

def objectPrototype : List String :=
  ["constructor", "toString", "toLocaleString", "valueOf", "hasOwnProperty", "isPrototypeOf",
    "propertyIsEnumerable", "__proto__", "__defineGetter__", "__defineSetter__",
    "__lookupGetter__", "__lookupSetter__"]

def inherited (key : String) : JsValue :=
  if key ∈ objectPrototype then .builtin key else .undefined

def builtinText (E : Engine) (name : String) : String :=
  if name = "__proto__" then "[object Object]" else E.functionText name

def isDecimal (cs : List Char) : Bool :=
  !cs.isEmpty && cs.all fun c => 48 ≤ c.toNat && c.toNat ≤ 57

def decimalValue (cs : List Char) : ℕ := cs.foldl (fun n c => 10 * n + (c.toNat - 48)) 0

/-- Keys that enumerate in numeric order, before all others. -/
def isArrayIndex (key : String) : Bool :=
  isDecimal key.toList && (key == "0" || key.toList.head? != some (Char.ofNat 48)) &&
    decimalValue key.toList < 2 ^ 32 - 1

def enumerate {α : Type} (fields : List (String × α)) : List (String × α) :=
  (fields.filter fun f => isArrayIndex f.1).insertionSort
      (fun f g => decimalValue f.1.toList ≤ decimalValue g.1.toList) ++
    fields.filter fun f => !isArrayIndex f.1

theorem mem_enumerate {α : Type} (fields : List (String × α)) (f : String × α) :
    f ∈ enumerate fields ↔ f ∈ fields := by
  simp only [enumerate, List.mem_append, List.mem_insertionSort, List.mem_filter]
  cases isArrayIndex f.1 <;> simp

theorem enumerate_length {α : Type} (fields : List (String × α)) :
    (enumerate fields).length = fields.length := by
  simp only [enumerate, List.length_append, List.length_insertionSort]
  induction fields with
  | nil => rfl
  | cons f fields ih =>
    simp only [List.filter_cons]
    cases isArrayIndex f.1 <;> simp <;> omega

/-- `object[key] = v`: an existing property keeps its place. -/
def assign {α : Type} (fields : List (String × α)) (key : String) (v : α) : List (String × α) :=
  if fields.any fun f => f.1 == key then
    fields.map fun f => if f.1 == key then (key, v) else f
  else fields ++ [(key, v)]

theorem lookup_map_assign {α : Type} (fields : List (String × α)) (key : String) (v : α)
    (name : String) :
    (fields.map fun f => if f.1 == key then (key, v) else f).lookup name =
      if name = key then (fields.lookup key).map fun _ => v else fields.lookup name := by
  induction fields with
  | nil => simp
  | cons f fields ih =>
    obtain ⟨g, w⟩ := f
    rw [List.map_cons]
    by_cases hg : g = key
    · subst hg
      by_cases hn : name = g
      · subst hn
        simp
      · rw [if_neg hn] at ih ⊢
        have hb : (name == g) = false := by simpa using hn
        simpa only [beq_self_eq_true, if_true, List.lookup_cons, hb] using ih
    · have hb : (g == key) = false := by simpa using hg
      rw [if_neg (by simpa using hg), List.lookup_cons, ih]
      by_cases hn : name = key
      · subst hn
        have hn : (name == g) = false := beq_false_of_ne (Ne.symm hg)
        simp only [if_true, List.lookup_cons, hn]
      · simp only [if_neg hn, List.lookup_cons]

theorem lookup_assign {α : Type} (fields : List (String × α)) (key : String) (v : α)
    (name : String) :
    (assign fields key v).lookup name = if name = key then some v else fields.lookup name := by
  unfold assign
  by_cases h : (fields.any fun f => f.1 == key) = true
  · rw [if_pos h, lookup_map_assign]
    by_cases hn : name = key
    · rw [if_pos hn, if_pos hn]
      obtain ⟨f, hf, he⟩ := List.any_eq_true.mp h
      have hk : f.1 = key := by simpa using he
      cases hl : fields.lookup key with
      | some w => rfl
      | none =>
        have := List.lookup_eq_none_iff.mp hl f hf
        simp [hk] at this
    · rw [if_neg hn, if_neg hn]
  · rw [if_neg h, List.lookup_append]
    by_cases hn : name = key
    · subst hn
      have hnone : fields.lookup name = none := by
        rw [List.lookup_eq_none_iff]
        intro f hf
        have hf : ¬ (f.1 == name) = true := mt (fun e => List.any_eq_true.mpr ⟨f, hf, e⟩) h
        rw [bne_iff_ne]
        exact fun e => hf (beq_iff_eq.mpr e.symm)
      simp [hnone]
    · have hb : (name == key) = false := by simpa using hn
      simp [List.lookup_cons, hb, hn]

def indexed {α : Type} (xs : List α) : List (String × α) :=
  xs.zipIdx.map fun p => (toString p.2, p.1)

namespace Json

def ofOption : Option Json → JsValue
  | none => .undefined
  | some v => .json v

/-- `v[key]` for the keys that the program reads by name. Arrays and strings have
    none of these as own properties. -/
def get (v : Json) (key : String) : Except JsError JsValue :=
  match v with
  | null => .error (cannotRead key "null")
  | obj fields =>
    match fields.lookup key with
    | some w => .ok (.json w)
    | none => .ok (inherited key)
  | _ => .ok (inherited key)

theorem get_own {fields : List (String × Json)} {key : String} {w : Json}
    (h : fields.lookup key = some w) : (obj fields).get key = .ok (.json w) := by
  simp only [get, h]

theorem get_json_iff {fields : List (String × Json)} {key : String} {w : Json} :
    (obj fields).get key = .ok (.json w) ↔ fields.lookup key = some w := by
  constructor
  · intro h
    cases hl : fields.lookup key with
    | some v =>
      rw [get_own hl] at h
      cases h
      rfl
    | none =>
      simp only [get, hl, inherited] at h
      split_ifs at h
      · cases h
      · cases h
  · exact get_own

theorem get_inherited {fields : List (String × Json)} {key : String}
    (h : fields.lookup key = none) : (obj fields).get key = .ok (inherited key) := by
  simp only [get, h]

def ownEntries : Json → Except JsError (List (String × Json))
  | null => .error noObject
  | bool _ | num _ => .ok []
  | str s => .ok (indexed (s.toList.map fun c => str (String.singleton c)))
  | arr xs => .ok (indexed xs)
  | obj fields => .ok (enumerate fields)

def truthy : Json → Bool
  | null => false
  | bool b => b
  | num q => q ≠ 0
  | str s => s ≠ ""
  | arr _ | obj _ => true

def isNull : Json → Bool
  | null => true
  | _ => false

mutual

/-- `String(v)`. An object whose own `toString` hides the inherited one has no rendering. -/
def render (E : Engine) : Json → Except JsError String
  | null => .ok "null"
  | bool b => .ok (if b then "true" else "false")
  | num q => .ok (E.numberToString q)
  | str s => .ok s
  | arr xs => do
    let texts ← renderElements E xs
    pure (String.intercalate "," texts)
  | obj fields =>
    if fields.any fun f => f.1 == "toString" then .error noPrimitive else .ok "[object Object]"

def renderElements (E : Engine) : List Json → Except JsError (List String)
  | [] => .ok []
  | x :: xs => do
    let text ← render E x
    let texts ← renderElements E xs
    pure ((if x.isNull then "" else text) :: texts)

end

/-- `v.toString()`, which `null` does not have. -/
def toStringCall (E : Engine) : Json → Except JsError String
  | null => .error (cannotRead "toString" "null")
  | obj fields =>
    if fields.any fun f => f.1 == "toString" then .error notAFunction else .ok "[object Object]"
  | v => v.render E

def hexDigit (n : ℕ) : Char := if n < 10 then Char.ofNat (48 + n) else Char.ofNat (87 + n)

def quoteChar (c : Char) : List Char :=
  match c.toNat with
  | 34 => [Char.ofNat 92, Char.ofNat 34]
  | 92 => [Char.ofNat 92, Char.ofNat 92]
  | 8 => [Char.ofNat 92, 'b']
  | 9 => [Char.ofNat 92, 't']
  | 10 => [Char.ofNat 92, 'n']
  | 12 => [Char.ofNat 92, 'f']
  | 13 => [Char.ofNat 92, 'r']
  | n => if n < 32 then [Char.ofNat 92, 'u', '0', '0', hexDigit (n / 16), hexDigit (n % 16)] else [c]

def quote (s : String) : String := "\"" ++ String.ofList (s.toList.flatMap quoteChar) ++ "\""

mutual

def stringify (E : Engine) : Json → String
  | null => "null"
  | bool b => if b then "true" else "false"
  | num q => E.numberToString q
  | str s => quote s
  | arr xs => "[" ++ String.intercalate "," (stringifyElements E xs) ++ "]"
  | obj fields =>
    "\x7b" ++ String.intercalate "," ((enumerate (stringifyFields E fields)).map
      fun f => quote f.1 ++ ":" ++ f.2) ++ "\x7d"

def stringifyElements (E : Engine) : List Json → List String
  | [] => []
  | x :: xs => stringify E x :: stringifyElements E xs

def stringifyFields (E : Engine) : List (String × Json) → List (String × String)
  | [] => []
  | (key, x) :: fields => (key, stringify E x) :: stringifyFields E fields

end

mutual

/-- `JSON.stringify(v, null, 2)`, at the indentation `pad`. -/
def pretty (E : Engine) (pad : String) : Json → String
  | null => "null"
  | bool b => if b then "true" else "false"
  | num q => E.numberToString q
  | str s => quote s
  | arr [] => "[]"
  | arr (x :: xs) =>
    "[\n" ++ pad ++ "  " ++
      String.intercalate (",\n" ++ pad ++ "  ") (prettyElements E (pad ++ "  ") (x :: xs)) ++
      "\n" ++ pad ++ "]"
  | obj [] => "\x7b\x7d"
  | obj (f :: fields) =>
    "\x7b\n" ++ pad ++ "  " ++
      String.intercalate (",\n" ++ pad ++ "  ")
        ((enumerate (prettyFields E (pad ++ "  ") (f :: fields))).map
          fun g => quote g.1 ++ ": " ++ g.2) ++
      "\n" ++ pad ++ "\x7d"

def prettyElements (E : Engine) (pad : String) : List Json → List String
  | [] => []
  | x :: xs => pretty E pad x :: prettyElements E pad xs

def prettyFields (E : Engine) (pad : String) : List (String × Json) → List (String × String)
  | [] => []
  | (key, x) :: fields => (key, pretty E pad x) :: prettyFields E pad fields

end

/-- `v === w`: two parsed arrays or objects are never the same one. -/
def strictEq : Json → Json → Bool
  | null, null => true
  | bool a, bool b => a == b
  | num a, num b => a == b
  | str a, str b => a == b
  | _, _ => false

def includes (xs : List Json) (v : Json) : Bool := xs.any fun x => strictEq x v

inductive IsScalar : Json → Prop
  | null : IsScalar null
  | bool (b : Bool) : IsScalar (bool b)
  | num (q : ℚ) : IsScalar (num q)
  | str (s : String) : IsScalar (str s)

theorem strictEq_iff {v w : Json} (h : IsScalar w) : strictEq v w = true ↔ v = w := by
  cases h <;> cases v <;> simp [strictEq]

theorem strictEq_comm (v w : Json) : strictEq v w = strictEq w v := by
  cases v <;> cases w <;> simp [strictEq, Bool.beq_comm]

theorem scalar_of_strictEq {v w : Json} (h : strictEq v w = true) : IsScalar v := by
  cases v with
  | null => exact .null
  | bool b => exact .bool b
  | num q => exact .num q
  | str s => exact .str s
  | arr xs => cases w <;> cases h
  | obj fields => cases w <;> cases h

theorem eq_of_strictEq {v w : Json} (h : strictEq v w = true) : v = w := by
  rw [strictEq_comm] at h
  have hv : IsScalar v := scalar_of_strictEq (strictEq_comm w v ▸ h)
  exact ((strictEq_iff hv).mp h).symm

theorem render_of_toStringCall {E : Engine} {v : Json} {text : String}
    (h : v.toStringCall E = .ok text) : v.render E = .ok text := by
  cases v with
  | null => cases h
  | obj fields =>
    simp only [toStringCall] at h
    rw [render]
    split_ifs at h with hown
    rw [if_neg hown]
    exact h
  | _ => exact h

theorem includes_iff {xs : List Json} {v : Json} (h : IsScalar v) :
    includes xs v = true ↔ v ∈ xs := by
  simp only [includes, List.any_eq_true, strictEq_iff h]
  exact ⟨fun ⟨x, hx, e⟩ => e ▸ hx, fun hx => ⟨v, hx, rfl⟩⟩

end Json

namespace JsValue

def ofString (s : String) : JsValue := .json (.str s)

def truthy : JsValue → Bool
  | undefined => false
  | builtin _ => true
  | json v => v.truthy

def typeOf : JsValue → String
  | undefined => "undefined"
  | builtin name => if name = "__proto__" then "object" else "function"
  | json (.bool _) => "boolean"
  | json (.num _) => "number"
  | json (.str _) => "string"
  | json _ => "object"

def render (E : Engine) : JsValue → Except JsError String
  | undefined => .ok "undefined"
  | builtin name => .ok (builtinText E name)
  | json v => v.render E

def toStringCall (E : Engine) : JsValue → Except JsError String
  | undefined => .error (cannotRead "toString" "undefined")
  | builtin name => .ok (builtinText E name)
  | json v => v.toStringCall E

def get (v : JsValue) (key : String) : Except JsError JsValue :=
  match v with
  | undefined => .error (cannotRead key "undefined")
  | builtin _ => .ok (inherited key)
  | json w => w.get key

def getOptional (v : JsValue) (key : String) : Except JsError JsValue :=
  match v with
  | undefined | json .null => .ok undefined
  | builtin _ => .ok (inherited key)
  | json w => w.get key

def strictEq : JsValue → JsValue → Bool
  | undefined, undefined => true
  | builtin a, builtin b => a == b
  | json v, json w => v.strictEq w
  | _, _ => false

def stringify (E : Engine) : JsValue → String
  | json v => v.stringify E
  | builtin "__proto__" => "\x7b\x7d"
  | _ => "undefined"

/-- `parseFloat(v)`. The text of an inherited member is no numeral. -/
def parseFloat (E : Engine) : JsValue → Except JsError (Option ℚ)
  | undefined | builtin _ => .ok none
  | json v => (v.render E).map E.parseFloat

def toNumber (E : Engine) : JsValue → Except JsError (Option ℚ)
  | undefined | builtin _ => .ok none
  | json .null => .ok (some 0)
  | json (.bool b) => .ok (some (if b then 1 else 0))
  | json (.num q) => .ok (some q)
  | json v => (v.render E).map E.stringToNumber

theorem render_of_toStringCall {E : Engine} {v : JsValue} {text : String}
    (h : v.toStringCall E = .ok text) : v.render E = .ok text := by
  cases v with
  | undefined => cases h
  | builtin name => exact h
  | json v => exact Json.render_of_toStringCall h

end JsValue

def numberText (E : Engine) : Option ℚ → String
  | none => "NaN"
  | some q => E.numberToString q

def numGt (a b : Option ℚ) : Bool :=
  match a, b with
  | some x, some y => y < x
  | _, _ => false

def numGe (a b : Option ℚ) : Bool :=
  match a, b with
  | some x, some y => y ≤ x
  | _, _ => false

def numAdd (a b : Option ℚ) : Option ℚ := do
  let x ← a
  let y ← b
  pure (x + y)

def numMul (a b : Option ℚ) : Option ℚ := do
  let x ← a
  let y ← b
  pure (x * y)

end DepaKms
