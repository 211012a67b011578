import DepaKms.JsValue

set_option autoImplicit false

/-!
# What the text of a value tells

Quoting loses nothing, so the text of an object gives away the text of each field.
-/
namespace DepaKms

/-- The characters that quoting may change are among these. -/
def smallChars : List Char := (List.range 93).map Char.ofNat

theorem mem_smallChars {c : Char} (hc : c.toNat < 93) : c ∈ smallChars :=
  List.mem_map.mpr ⟨c.toNat, List.mem_range.mpr hc, Char.ofNat_toNat c⟩

theorem quoteChar_plain {c : Char} (hc : 93 ≤ c.toNat) : Json.quoteChar c = [c] := by
  have hsmall : ¬ c.toNat < 32 := by omega
  unfold Json.quoteChar
  split <;> first | omega | exact if_neg hsmall

theorem quoteChar_head (c : Char) :
    ∃ e rest, Json.quoteChar c = e :: rest ∧ (e.toNat < 93 ↔ c.toNat < 93) := by
  by_cases hc : c.toNat < 93
  · have hall : (smallChars.all fun c => (Json.quoteChar c).head?.any fun e => e.toNat < 93) := by
      decide +kernel
    have hhead := List.all_eq_true.mp hall c (mem_smallChars hc)
    cases hq : Json.quoteChar c with
    | nil =>
      rw [hq] at hhead
      cases hhead
    | cons e rest =>
      rw [hq] at hhead
      have he : e.toNat < 93 := by simpa using hhead
      exact ⟨e, rest, rfl, iff_of_true he hc⟩
  · exact ⟨c, [], quoteChar_plain (by omega), Iff.rfl⟩

/-- No quoted character is the front of another one. -/
theorem quoteChar_front {c d : Char} (h : Json.quoteChar c <+: Json.quoteChar d) : c = d := by
  obtain ⟨e, rest, hc, hec⟩ := quoteChar_head c
  obtain ⟨e', rest', hd, hed⟩ := quoteChar_head d
  have hsame : e = e' := by
    rw [hc, hd, List.cons_prefix_cons] at h
    exact h.1
  by_cases hsmall : c.toNat < 93
  · have hall : (smallChars.all fun c => smallChars.all fun d =>
        decide (Json.quoteChar c <+: Json.quoteChar d → c = d)) = true := by
      decide +kernel
    have hdsmall : d.toNat < 93 := by rwa [← hed, ← hsame, hec]
    have hrow := List.all_eq_true.mp hall c (mem_smallChars hsmall)
    exact of_decide_eq_true (List.all_eq_true.mp hrow d (mem_smallChars hdsmall)) h
  · have hdbig : ¬ d.toNat < 93 := by rwa [← hed, ← hsame, hec]
    rw [quoteChar_plain (by omega), quoteChar_plain (by omega), List.cons_prefix_cons] at h
    exact h.1

theorem quoteChars_injective :
    Function.Injective fun cs : List Char => cs.flatMap Json.quoteChar := by
  intro cs ds he
  induction cs generalizing ds with
  | nil =>
    cases ds with
    | nil => rfl
    | cons d ds =>
      obtain ⟨e, rest, hd, -⟩ := quoteChar_head d
      simp [hd] at he
  | cons c cs ih =>
    cases ds with
    | nil =>
      obtain ⟨e, rest, hc, -⟩ := quoteChar_head c
      simp [hc] at he
    | cons d ds =>
      simp only [List.flatMap_cons] at he
      have hc : Json.quoteChar c <+: Json.quoteChar d ++ ds.flatMap Json.quoteChar :=
        he ▸ List.prefix_append _ _
      have hcd : c = d := by
        rcases List.prefix_or_prefix_of_prefix hc (List.prefix_append _ _) with h | h
        · exact quoteChar_front h
        · exact (quoteChar_front h).symm
      subst hcd
      rw [List.append_cancel_left_eq] at he
      rw [ih he]

theorem quote_injective : Function.Injective Json.quote := by
  intro s s' he
  unfold Json.quote at he
  rw [String.append_left_inj, String.append_right_inj, String.ofList_inj] at he
  exact String.toList_inj.mp (quoteChars_injective he)

theorem enumerate_eq_self {α : Type} {fields : List (String × α)}
    (hf : ∀ f ∈ fields, isArrayIndex f.1 = false) : enumerate fields = fields := by
  have hnone : (fields.filter fun f => isArrayIndex f.1) = [] := by
    rw [List.filter_eq_nil_iff]
    intro f hmem
    simp [hf f hmem]
  have hall : (fields.filter fun f => !isArrayIndex f.1) = fields := by
    rw [List.filter_eq_self]
    intro f hmem
    simp [hf f hmem]
  rw [enumerate, hnone, hall]
  rfl

theorem prettyFields_eq_map (E : Engine) (pad : String) (fields : List (String × Json)) :
    Json.prettyFields E pad fields = fields.map fun f => (f.1, f.2.pretty E pad) := by
  induction fields with
  | nil => rfl
  | cons f fields ih => rw [Json.prettyFields, ih, List.map_cons]

theorem pretty_obj {E : Engine} {f : String × Json} {fields : List (String × Json)}
    (hkeys : ∀ g ∈ f :: fields, isArrayIndex g.1 = false) :
    (Json.obj (f :: fields)).pretty E "" =
      "\x7b\n" ++ "" ++ "  " ++ String.intercalate (",\n" ++ "" ++ "  ")
        ((f :: fields).map fun g => Json.quote g.1 ++ ": " ++ g.2.pretty E ("" ++ "  ")) ++
        "\n" ++ "" ++ "\x7d" := by
  have hself : enumerate (Json.prettyFields E ("" ++ "  ") (f :: fields)) =
      Json.prettyFields E ("" ++ "  ") (f :: fields) := by
    refine enumerate_eq_self fun g hg => ?_
    rw [prettyFields_eq_map, List.mem_map] at hg
    obtain ⟨g, hg, rfl⟩ := hg
    exact hkeys g hg
  rw [Json.pretty, hself, prettyFields_eq_map, List.map_map]
  rfl

/-- The text of a field can be read off the text of the object. -/
theorem pretty_field_inj {E : Engine} {f : String × Json} {key : String} {v v' : Json}
    {rest : List (String × Json)} (hkey : isArrayIndex key = false)
    (hkeys : ∀ g ∈ f :: rest, isArrayIndex g.1 = false)
    (he : (Json.obj (f :: (key, v) :: rest)).pretty E "" =
      (Json.obj (f :: (key, v') :: rest)).pretty E "") :
    v.pretty E ("" ++ "  ") = v'.pretty E ("" ++ "  ") := by
  have hall (w : Json) : ∀ g ∈ f :: (key, w) :: rest, isArrayIndex g.1 = false := by
    intro g hg
    rcases List.mem_cons.mp hg with rfl | hg
    · exact hkeys _ List.mem_cons_self
    rcases List.mem_cons.mp hg with rfl | hg
    · exact hkey
    · exact hkeys _ (List.mem_cons_of_mem _ hg)
  rw [pretty_obj (hall v), pretty_obj (hall v')] at he
  cases rest with
  | nil =>
    simpa only [List.map_cons, List.map_nil, String.intercalate_cons_cons,
      String.intercalate_singleton, String.append_assoc, String.append_right_inj,
      String.append_left_inj] using he
  | cons g rest =>
    simpa only [List.map_cons, String.intercalate_cons_cons, String.append_assoc,
      String.append_right_inj, String.append_left_inj] using he

end DepaKms
