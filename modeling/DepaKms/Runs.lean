import Mathlib

set_option autoImplicit false

/-!
# Runs

A run applies one event after the other. What one step preserves, relates or
simulates, a whole run does.
-/
namespace DepaKms

section Runs

variable {σ τ ε : Type}

def run (step : σ → ε → σ) (s : σ) (events : List ε) : σ := events.foldl step s

@[simp] theorem run_nil (step : σ → ε → σ) (s : σ) : run step s [] = s := rfl

theorem run_cons (step : σ → ε → σ) (s : σ) (e : ε) (events : List ε) :
    run step s (e :: events) = run step (step s e) events := rfl

theorem run_append (step : σ → ε → σ) (s : σ) (first second : List ε) :
    run step s (first ++ second) = run step (run step s first) second :=
  List.foldl_append

theorem run_snoc (step : σ → ε → σ) (s : σ) (events : List ε) (e : ε) :
    run step s (events ++ [e]) = step (run step s events) e := by
  rw [run_append, run_cons, run_nil]

theorem run_pointwise {α β : Type} (g : α → β → ε → β) (s : α → β) (events : List ε) (a : α) :
    run (fun s e a => g a (s a) e) s events a = run (g a) (s a) events := by
  induction events generalizing s with
  | nil => rfl
  | cons e events ih => exact ih _

theorem run_collect {α : Type} (f : ε → α) (collected : List α) (events : List ε) :
    run (fun collected e => collected ++ [f e]) collected events =
      collected ++ events.map f := by
  induction events generalizing collected with
  | nil => simp
  | cons e events ih => rw [run_cons, ih, List.map_cons, List.append_assoc, List.singleton_append]

theorem run_map {ε' : Type} (step : σ → ε → σ) (f : ε' → ε) (s : σ) (events : List ε') :
    run step s (events.map f) = run (fun s e => step s (f e)) s events :=
  List.foldl_map

theorem run_preserves {step : σ → ε → σ} {P : σ → Prop} (hstep : ∀ s e, P s → P (step s e))
    {s : σ} (hs : P s) (events : List ε) : P (run step s events) := by
  induction events generalizing s with
  | nil => exact hs
  | cons e events ih => exact ih (hstep s e hs)

end Runs

/-! ### Histories

A history grows at its end. -/

section Histories

variable {α : Type}

theorem forall_mem_snoc {P : α → Prop} {history : List α} {a : α} :
    (∀ b ∈ history ++ [a], P b) ↔ (∀ b ∈ history, P b) ∧ P a := by
  rw [List.forall_mem_append, List.forall_mem_singleton]

theorem pairwise_snoc {R : α → α → Prop} {history : List α} {a : α} :
    (history ++ [a]).Pairwise R ↔ history.Pairwise R ∧ ∀ b ∈ history, R b a := by
  rw [List.pairwise_append]
  simp only [List.pairwise_singleton, List.mem_singleton, forall_eq, true_and]

/-- What one of two related histories holds is related to something that the other one holds. -/
theorem exists_of_forall₂ {β : Type} {R : α → β → Prop} {as : List α} {bs : List β}
    (hall : List.Forall₂ R as bs) {b : β} (hb : b ∈ bs) : ∃ a ∈ as, R a b := by
  induction hall with
  | nil => cases hb
  | cons hab _ ih =>
    rcases List.mem_cons.mp hb with rfl | hb
    · exact ⟨_, List.mem_cons_self, hab⟩
    · obtain ⟨a, ha, hr⟩ := ih hb
      exact ⟨a, List.mem_cons_of_mem _ ha, hr⟩

theorem getLast?_of_forall₂ {β : Type} {R : α → β → Prop} {as : List α} {bs : List β}
    (hall : List.Forall₂ R as bs) {b : β} (hb : bs.getLast? = some b) :
    ∃ a, as.getLast? = some a ∧ R a b := by
  rw [List.getLast?_eq_head?_reverse] at hb ⊢
  have hreverse := List.forall₂_reverse_iff.mpr hall
  generalize as.reverse = as' at hreverse ⊢
  generalize bs.reverse = bs' at hb hreverse
  cases hreverse with
  | nil => cases hb
  | cons hab _ =>
    cases hb
    exact ⟨_, rfl, hab⟩

end Histories

section Transactions

variable {σ τ ε : Type} (perform : σ → ε → Option σ)

def commit (s : σ) (e : ε) : σ := (perform s e).getD s

/-- The events of the run that do not fail. -/
def accepted : σ → List ε → List ε
  | _, [] => []
  | s, e :: events =>
    match perform s e with
    | some s' => e :: accepted s' events
    | none => accepted s events

theorem accepted_snoc (s : σ) (events : List ε) (e : ε) :
    accepted perform s (events ++ [e]) = accepted perform s events ++
      (match perform (run (commit perform) s events) e with
      | some _ => [e]
      | none => []) := by
  induction events generalizing s with
  | nil =>
    rw [List.nil_append, run_nil]
    unfold accepted
    cases perform s e <;> rfl
  | cons e' events ih =>
    rw [List.cons_append, run_cons]
    unfold accepted commit
    cases perform s e' with
    | none => exact ih s
    | some s' =>
      rw [List.cons_append]
      exact congrArg (e' :: ·) (ih s')

theorem accepted_length (s : σ) (events : List ε) :
    (accepted perform s events).length ≤ events.length := by
  induction events generalizing s with
  | nil => exact le_rfl
  | cons e events ih =>
    unfold accepted
    cases perform s e with
    | none => exact (ih s).trans (Nat.le_succ _)
    | some s' => exact Nat.succ_le_succ (ih s')

theorem accepted_append (s : σ) (first second : List ε) :
    accepted perform s (first ++ second) =
      accepted perform s first ++ accepted perform (run (commit perform) s first) second := by
  induction first generalizing s with
  | nil => rfl
  | cons e first ih =>
    rw [List.cons_append, run_cons, commit, accepted.eq_2, accepted.eq_2]
    cases perform s e with
    | none => exact ih s
    | some s' => exact congrArg (e :: ·) (ih s')

theorem accepted_map {ε' : Type} (f : ε' → ε) (s : σ) (events : List ε') :
    accepted perform s (events.map f) =
      (accepted (fun s e => perform s (f e)) s events).map f := by
  induction events generalizing s with
  | nil => rfl
  | cons e events ih =>
    rw [List.map_cons, accepted.eq_2, accepted.eq_2]
    cases perform s (f e) with
    | none => exact ih s
    | some s' => exact congrArg (f e :: ·) (ih s')

/-- An accepted event is one that the run can perform where it comes. -/
theorem mem_accepted {s : σ} {events : List ε} {e : ε} (he : e ∈ accepted perform s events) :
    ∃ before after s', events = before ++ e :: after ∧
      perform (run (commit perform) s before) e = some s' := by
  induction events generalizing s with
  | nil => cases he
  | cons e' events ih =>
    unfold accepted at he
    cases hp : perform s e' with
    | none =>
      rw [hp] at he
      obtain ⟨before, after, s', rfl, hs'⟩ := ih he
      refine ⟨e' :: before, after, s', rfl, ?_⟩
      rw [run_cons, commit, hp]
      exact hs'
    | some s₁ =>
      rw [hp] at he
      rcases List.mem_cons.mp he with rfl | he
      · exact ⟨[], events, s₁, rfl, hp⟩
      · obtain ⟨before, after, s', rfl, hs'⟩ := ih he
        refine ⟨e' :: before, after, s', rfl, ?_⟩
        rw [run_cons, commit, hp]
        exact hs'

/-- What a run changes, one of its events changes. -/
theorem exists_change {ν : Type} (view : σ → ν) {s : σ} {events : List ε}
    (hne : view (run (commit perform) s events) ≠ view s) :
    ∃ before e after s', events = before ++ e :: after ∧
      perform (run (commit perform) s before) e = some s' ∧
      view s' ≠ view (run (commit perform) s before) := by
  induction events generalizing s with
  | nil => exact absurd rfl hne
  | cons e events ih =>
    rw [run_cons, commit] at hne
    cases hp : perform s e with
    | none =>
      rw [hp] at hne
      obtain ⟨before, e', after, s', rfl, hs', hchange⟩ := ih hne
      refine ⟨e :: before, e', after, s', rfl, ?_⟩
      rw [run_cons, commit, hp]
      exact ⟨hs', hchange⟩
    | some s₁ =>
      by_cases hfirst : view s₁ = view s
      · rw [hp, Option.getD_some, ← hfirst] at hne
        obtain ⟨before, e', after, s', rfl, hs', hchange⟩ := ih hne
        refine ⟨e :: before, e', after, s', rfl, ?_⟩
        rw [run_cons, commit, hp]
        exact ⟨hs', hchange⟩
      · exact ⟨[], e, events, s₁, rfl, hp, hfirst⟩

/-- A batch is performed as a whole when each of its events is accepted. -/
theorem foldlM_eq_some_iff {s s' : σ} {events : List ε} :
    events.foldlM perform s = some s' ↔
      accepted perform s events = events ∧ run (commit perform) s events = s' := by
  induction events generalizing s with
  | nil => simp [accepted]
  | cons e events ih =>
    rw [List.foldlM_cons, run_cons]
    unfold commit accepted
    cases perform s e with
    | none =>
      refine iff_of_false (by simp) fun hall => ?_
      have hlength := congrArg List.length hall.1
      have hle := accepted_length perform s events
      simp only [List.length_cons] at hlength
      omega
    | some s₁ =>
      change events.foldlM perform s₁ = some s' ↔ _
      rw [ih, List.cons.injEq]
      simp only [true_and]
      rfl

/-- Every event of the run meets the condition in the state in which it comes. -/
def Throughout (P : σ → ε → Prop) : σ → List ε → Prop
  | _, [] => True
  | s, e :: events => P s e ∧ Throughout P (commit perform s e) events

variable {perform}

theorem Throughout.and {P : σ → ε → Prop} {Q : ε → Prop} {s : σ} {events : List ε}
    (hP : Throughout perform P s events) (hQ : ∀ e ∈ events, Q e) :
    Throughout perform (fun s e => P s e ∧ Q e) s events := by
  induction events generalizing s with
  | nil => trivial
  | cons e events ih =>
    obtain ⟨he, hP⟩ := hP
    exact ⟨⟨he, hQ e List.mem_cons_self⟩, ih hP fun e' he' => hQ e' (List.mem_cons_of_mem _ he')⟩

theorem throughout_of_forall {P : σ → ε → Prop} {events : List ε} (h : ∀ s, ∀ e ∈ events, P s e)
    (s : σ) : Throughout perform P s events := by
  induction events generalizing s with
  | nil => trivial
  | cons e events ih =>
    exact ⟨h s e List.mem_cons_self, ih (fun s e' he' => h s e' (List.mem_cons_of_mem _ he')) _⟩

/-- A run does to the state what its accepted events do to the abstract state. -/
theorem run_accepted {P : σ → ε → Prop} {abstract : τ → ε → τ} {R : σ → τ → Prop}
    (hstep : ∀ s a e s', P s e → R s a → perform s e = some s' → R s' (abstract a e)) {s : σ}
    {a : τ} (hs : R s a) {events : List ε} (hP : Throughout perform P s events) :
    R (run (commit perform) s events) (run abstract a (accepted perform s events)) := by
  induction events generalizing s a with
  | nil => exact hs
  | cons e events ih =>
    obtain ⟨he, hP⟩ := hP
    rw [run_cons]
    unfold commit at hP ⊢
    unfold accepted
    cases hperform : perform s e with
    | none =>
      rw [hperform] at hP
      exact ih hs hP
    | some s' =>
      rw [hperform] at hP
      exact ih (hstep s a e s' he hs hperform) hP

/-- What every event that does not fail adds to the history of those before it, of which `f`
    keeps what is of interest. -/
theorem run_history {α : Type} (f : ε → α) {P : σ → ε → Prop} {R : σ → List α → Prop}
    (hstep : ∀ s history e s', P s e → R s history → perform s e = some s' →
      R s' (history ++ [f e]))
    {s : σ} (hs : R s []) {events : List ε} (hP : Throughout perform P s events) :
    R (run (commit perform) s events) ((accepted perform s events).map f) := by
  have hrun : R (run (commit perform) s events)
      (run (fun history e => history ++ [f e]) [] (accepted perform s events)) :=
    run_accepted hstep hs hP
  rwa [run_collect, List.nil_append] at hrun

theorem run_keeps {P : σ → ε → Prop} {R : σ → Prop}
    (hstep : ∀ s e s', P s e → R s → perform s e = some s' → R s') {s : σ} (hs : R s)
    {events : List ε} (hP : Throughout perform P s events) :
    R (run (commit perform) s events) :=
  run_history (R := fun s _ => R s) id (fun s _ e s' => hstep s e s') hs hP

/-- What each event does to a view of the state, a run does to it. -/
theorem run_view {ν : Type} {view : σ → ν} {local' : ν → ε → Option ν}
    (hview : ∀ s e, (perform s e).map view = local' (view s) e) (s : σ) (events : List ε) :
    view (run (commit perform) s events) = run (commit local') (view s) events ∧
      accepted perform s events = accepted local' (view s) events := by
  induction events generalizing s with
  | nil => exact ⟨rfl, rfl⟩
  | cons e events ih =>
    have he := hview s e
    rw [run_cons, run_cons, accepted.eq_2, accepted.eq_2, commit, commit, ← he]
    cases perform s e with
    | none => exact ih s
    | some s' => exact ⟨(ih s').1, congrArg (e :: ·) (ih s').2⟩

end Transactions

/-! ### Components

A state of independent components, of which each event concerns one. -/

section Components

variable {σ ι ν ε : Type} [DecidableEq ι] {read : σ → ι → ν} {write : σ → ι → ν → σ}
  {target : ε → ι} {local' : ι → ν → ε → Option ν} {perform : σ → ε → Option σ}

/-- An event reads and writes the component that it concerns, and no other one. -/
structure Componentwise (read : σ → ι → ν) (write : σ → ι → ν → σ) (target : ε → ι)
    (local' : ι → ν → ε → Option ν) (perform : σ → ε → Option σ) : Prop where
  read_write : ∀ s i v j, read (write s i v) j = if j = i then v else read s j
  perform_eq : ∀ s e,
    perform s e = (local' (target e) (read s (target e)) e).map (write s (target e))

variable (hc : Componentwise read write target local' perform)
include hc

theorem Componentwise.read_commit (s : σ) (e : ε) (i : ι) :
    read (commit perform s e) i =
      if target e = i then commit (local' i) (read s i) e else read s i := by
  unfold commit
  rw [hc.perform_eq]
  by_cases hi : target e = i
  · subst hi
    rw [if_pos rfl]
    cases local' (target e) (read s (target e)) e with
    | none => rfl
    | some v => exact (hc.read_write _ _ _ _).trans (if_pos rfl)
  · rw [if_neg hi]
    cases local' (target e) (read s (target e)) e with
    | none => rfl
    | some v => exact (hc.read_write _ _ _ _).trans (if_neg (Ne.symm hi))

/-- A component after a run is what the events that concern it make of it. -/
theorem Componentwise.read_run (s : σ) (events : List ε) (i : ι) :
    read (run (commit perform) s events) i =
      run (commit (local' i)) (read s i) (events.filter fun e => target e = i) := by
  induction events generalizing s with
  | nil => rfl
  | cons e events ih =>
    rw [run_cons, ih, hc.read_commit, List.filter_cons]
    by_cases hi : target e = i
    · rw [if_pos hi, if_pos (decide_eq_true hi), run_cons]
    · rw [if_neg hi, if_neg (by simpa using hi)]

/-- Where all events of a run are accepted, those that concern a component are accepted there. -/
theorem Componentwise.accepted_eq {s : σ} {events : List ε}
    (hall : accepted perform s events = events) (i : ι) :
    accepted (local' i) (read s i) (events.filter fun e => target e = i) =
      events.filter fun e => target e = i := by
  induction events generalizing s with
  | nil => rfl
  | cons e events ih =>
    unfold accepted at hall
    cases hp : perform s e with
    | none =>
      rw [hp] at hall
      have hlength := congrArg List.length hall
      have hle := accepted_length perform s events
      simp only [List.length_cons] at hlength
      omega
    | some s' =>
      rw [hp] at hall
      have hrest := ih (List.cons.inj hall).2
      have hread := hc.read_commit s e i
      unfold commit at hread
      rw [hp, Option.getD_some] at hread
      rw [hread] at hrest
      rw [List.filter_cons]
      by_cases hi : target e = i
      · subst hi
        rw [if_pos rfl] at hrest
        rw [if_pos (by simp)]
        unfold accepted
        rw [hc.perform_eq] at hp
        cases hl : local' (target e) (read s (target e)) e with
        | none =>
          rw [hl] at hp
          cases hp
        | some v =>
          rw [hl, Option.getD_some] at hrest
          exact congrArg (e :: ·) hrest
      · rw [if_neg hi] at hrest
        rw [if_neg (by simpa using hi)]
        exact hrest

end Components

section LastOf

variable {ε ν : Type}

def lastOf (relevant : ε → Bool) (events : List ε) : Option ε := (events.filter relevant).getLast?

theorem lastOf_snoc (relevant : ε → Bool) (events : List ε) (e : ε) :
    lastOf relevant (events ++ [e]) =
      if relevant e then some e else lastOf relevant events := by
  unfold lastOf
  rw [List.filter_append]
  cases h : relevant e <;> simp [h]

theorem run_overwrite (relevant : ε → Bool) (value : ε → ν) (v : ν) (events : List ε) :
    run (fun v e => if relevant e then value e else v) v events =
      ((lastOf relevant events).map value).getD v := by
  induction events using List.reverseRecOn with
  | nil => rfl
  | append_singleton events e ih =>
    rw [run_snoc, ih, lastOf_snoc]
    split_ifs <;> rfl

end LastOf

end DepaKms
