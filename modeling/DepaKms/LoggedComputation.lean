import Mathlib

set_option autoImplicit false

/-!
# Computations that may fail and that record events

A computation has an outcome, normal or exceptional, and the events it recorded
before reaching it. Recorded events are never read back, so the outcome of a
composite is the composite of the outcomes (`result_bind`).
-/
namespace DepaKms

structure Logged (ω ε α : Type) where
  result : Except ε α
  events : List ω

namespace Logged

variable {ω ε α β : Type}

def ret (a : α) : Logged ω ε α := ⟨.ok a, []⟩

def andThen (x : Logged ω ε α) (f : α → Logged ω ε β) : Logged ω ε β :=
  match x.result with
  | .ok a => ⟨(f a).result, x.events ++ (f a).events⟩
  | .error e => ⟨.error e, x.events⟩

instance : Monad (Logged ω ε) where
  pure := ret
  bind := andThen

def raise (e : ε) : Logged ω ε α := ⟨.error e, []⟩

/-- Events of the failed part stay recorded when its error is handled. -/
def handling (x : Logged ω ε α) (handle : ε → Logged ω ε α) : Logged ω ε α :=
  match x.result with
  | .ok a => ⟨.ok a, x.events⟩
  | .error e => ⟨(handle e).result, x.events ++ (handle e).events⟩

instance : MonadExceptOf ε (Logged ω ε) where
  throw := raise
  tryCatch := handling

def emit (w : ω) : Logged ω ε Unit := ⟨.ok (), [w]⟩

instance : MonadLift (Except ε) (Logged ω ε) where
  monadLift x := ⟨x, []⟩

@[simp] theorem ok_bind (a : α) (f : α → Except ε β) : (Except.ok a >>= f) = f a := rfl

@[simp] theorem error_bind (e : ε) (f : α → Except ε β) :
    (Except.error e >>= f) = .error e := rfl

theorem bind_ok_iff {x : Except ε α} {f : α → Except ε β} {b : β} :
    (x >>= f) = .ok b ↔ ∃ a, x = .ok a ∧ f a = .ok b := by
  cases x <;> simp [bind, Except.bind]

@[simp] theorem result_pure (a : α) : (pure a : Logged ω ε α).result = .ok a := rfl

@[simp] theorem result_bind (x : Logged ω ε α) (f : α → Logged ω ε β) :
    (x >>= f).result = x.result >>= fun a => (f a).result := by
  change (andThen x f).result = _
  unfold andThen
  cases h : x.result <;> rfl

@[simp] theorem result_throw (e : ε) : (throw e : Logged ω ε α).result = .error e := rfl

@[simp] theorem result_emit (w : ω) : (emit w : Logged ω ε Unit).result = .ok () := rfl

@[simp] theorem result_lift (x : Except ε α) : (liftM x : Logged ω ε α).result = x := rfl

@[simp] theorem result_monadLift (x : Except ε α) :
    (monadLift x : Logged ω ε α).result = x := rfl

theorem result_tryCatch (x : Logged ω ε α) (handle : ε → Logged ω ε α) :
    (tryCatch x handle).result =
      match x.result with
      | .ok a => .ok a
      | .error e => (handle e).result := by
  change (handling x handle).result = _
  unfold handling
  cases h : x.result <;> rfl

@[simp] theorem result_ite (c : Prop) [Decidable c] (x y : Logged ω ε α) :
    (if c then x else y).result = if c then x.result else y.result := by
  split_ifs <;> rfl

/-- What follows is compared on the outcomes that the first part can have. -/
theorem bind_congr {x : Logged ω ε α} {f g : α → Logged ω ε β}
    (h : ∀ a, x.result = .ok a → f a = g a) : x >>= f = x >>= g := by
  change andThen x f = andThen x g
  unfold andThen
  cases hx : x.result with
  | ok a => simp only [h a hx]
  | error e => rfl

/-- `Q` holds of every normal outcome. -/
def Ensures (x : Logged ω ε α) (Q : α → Prop) : Prop := ∀ a, x.result = .ok a → Q a

namespace Ensures

variable {x : Logged ω ε α} {Q R : α → Prop}

theorem pure {a : α} (h : Q a) : Ensures (Pure.pure a : Logged ω ε α) Q := by
  intro b hb
  simp only [result_pure, Except.ok.injEq] at hb
  exact hb ▸ h

theorem throw (e : ε) : Ensures (MonadExcept.throw e : Logged ω ε α) Q := by
  intro b hb
  cases hb

theorem bind {f : α → Logged ω ε β} {S : β → Prop} (hx : Ensures x Q)
    (hf : ∀ a, Q a → Ensures (f a) S) : Ensures (x >>= f) S := by
  intro b hb
  rw [result_bind, bind_ok_iff] at hb
  obtain ⟨a, ha, hb⟩ := hb
  exact hf a (hx a ha) b hb

/-- Whatever the first part returns, the second one ensures the postcondition. -/
theorem skip {f : α → Logged ω ε β} {S : β → Prop} (hf : ∀ a, Ensures (f a) S) :
    Ensures (x >>= f) S :=
  bind (Q := fun _ => True) (fun _ _ => trivial) (fun a _ => hf a)

theorem step {f : α → Logged ω ε β} {S : β → Prop}
    (hf : ∀ a, x.result = .ok a → Ensures (f a) S) : Ensures (x >>= f) S :=
  bind (Q := fun a => x.result = .ok a) (fun _ h => h) hf

theorem read {v : Except ε α} {f : α → Logged ω ε β} {S : β → Prop}
    (hf : ∀ a, v = .ok a → Ensures (f a) S) : Ensures (liftM v >>= f) S :=
  step hf

theorem mono (hx : Ensures x Q) (h : ∀ a, Q a → R a) : Ensures x R :=
  fun a ha => h a (hx a ha)

theorem ite {c : Prop} [Decidable c] {y : Logged ω ε α} (hx : c → Ensures x Q)
    (hy : ¬ c → Ensures y Q) : Ensures (if c then x else y) Q := by
  split_ifs with h
  · exact hx h
  · exact hy h

theorem tryCatch {handle : ε → Logged ω ε α} (hx : Ensures x Q)
    (hh : ∀ e, Ensures (handle e) Q) : Ensures (MonadExcept.tryCatch x handle) Q := by
  intro a ha
  rw [result_tryCatch] at ha
  cases hr : x.result with
  | ok b => rw [hr] at ha; cases ha; exact hx _ hr
  | error e => rw [hr] at ha; exact hh e a ha

theorem lift {v : Except ε α} (h : ∀ a, v = .ok a → Q a) :
    Ensures (liftM v : Logged ω ε α) Q := h

end Ensures

/-- Two computations end in the same way, with related outcomes or with the same error. -/
inductive Agree {β : Type} (R : α → β → Prop) (x : Logged ω ε α) (y : Logged ω ε β) : Prop
  | ok (a : α) (b : β) (hx : x.result = .ok a) (hy : y.result = .ok b) (h : R a b)
  | error (e : ε) (hx : x.result = .error e) (hy : y.result = .error e)

namespace Agree

variable {γ δ : Type} {R : α → β → Prop} {S : γ → δ → Prop} {x : Logged ω ε α} {y : Logged ω ε β}

theorem pure {a : α} {b : β} (h : R a b) :
    Agree R (Pure.pure a : Logged ω ε α) (Pure.pure b) := .ok a b rfl rfl h

theorem throw (e : ε) : Agree R (MonadExcept.throw e : Logged ω ε α) (MonadExcept.throw e) :=
  .error e rfl rfl

theorem bind {f : α → Logged ω ε γ} {g : β → Logged ω ε δ} (hxy : Agree R x y)
    (hfg : ∀ a b, R a b → Agree S (f a) (g b)) : Agree S (x >>= f) (y >>= g) := by
  cases hxy with
  | ok a b hx hy h =>
    cases hfg a b h with
    | ok c d hc hd hs =>
      exact .ok c d (by rw [result_bind, hx]; exact hc) (by rw [result_bind, hy]; exact hd) hs
    | error e hc hd =>
      exact .error e (by rw [result_bind, hx]; exact hc) (by rw [result_bind, hy]; exact hd)
  | error e hx hy =>
    exact .error e (by rw [result_bind, hx]; rfl) (by rw [result_bind, hy]; rfl)

theorem of_result {y : Logged ω ε α} (h : x.result = y.result) : Agree Eq x y := by
  cases hx : x.result with
  | ok a => exact .ok a a hx (h.symm.trans hx) rfl
  | error e => exact .error e hx (h.symm.trans hx)

theorem tryCatch {handle : ε → Logged ω ε α} {handle' : ε → Logged ω ε β} (hxy : Agree R x y)
    (hh : ∀ e, Agree R (handle e) (handle' e)) :
    Agree R (MonadExcept.tryCatch x handle) (MonadExcept.tryCatch y handle') := by
  cases hxy with
  | ok a b hx hy h =>
    exact .ok a b (by rw [result_tryCatch, hx]) (by rw [result_tryCatch, hy]) h
  | error e hx hy =>
    cases hh e with
    | ok a b ha hb h =>
      exact .ok a b (by rw [result_tryCatch, hx]; exact ha) (by rw [result_tryCatch, hy]; exact hb) h
    | error f ha hb =>
      exact .error f (by rw [result_tryCatch, hx]; exact ha) (by rw [result_tryCatch, hy]; exact hb)

theorem mono {T : α → β → Prop} (hxy : Agree R x y) (h : ∀ a b, R a b → T a b) : Agree T x y := by
  cases hxy with
  | ok a b hx hy hr => exact .ok a b hx hy (h a b hr)
  | error e hx hy => exact .error e hx hy

theorem result_eq {y : Logged ω ε α} (h : Agree Eq x y) : x.result = y.result := by
  cases h with
  | ok a b hx hy h => rw [hx, hy, h]
  | error e hx hy => rw [hx, hy]

end Agree

@[simp] theorem events_pure (a : α) : (pure a : Logged ω ε α).events = [] := rfl

@[simp] theorem events_throw (e : ε) : (throw e : Logged ω ε α).events = [] := rfl

@[simp] theorem events_emit (w : ω) : (emit w : Logged ω ε Unit).events = [w] := rfl

@[simp] theorem events_lift (x : Except ε α) : (liftM x : Logged ω ε α).events = [] := rfl

theorem events_bind_ok {x : Logged ω ε α} {a : α} (hx : x.result = .ok a)
    (f : α → Logged ω ε β) : (x >>= f).events = x.events ++ (f a).events := by
  change (andThen x f).events = _
  unfold andThen
  rw [hx]

theorem events_bind_error {x : Logged ω ε α} {e : ε} (hx : x.result = .error e)
    (f : α → Logged ω ε β) : (x >>= f).events = x.events := by
  change (andThen x f).events = _
  unfold andThen
  rw [hx]

theorem events_tryCatch_ok {x : Logged ω ε α} {a : α} (hx : x.result = .ok a)
    (handle : ε → Logged ω ε α) : (tryCatch x handle).events = x.events := by
  change (handling x handle).events = _
  unfold handling
  rw [hx]

theorem events_tryCatch_error {x : Logged ω ε α} {e : ε} (hx : x.result = .error e)
    (handle : ε → Logged ω ε α) :
    (tryCatch x handle).events = x.events ++ (handle e).events := by
  change (handling x handle).events = _
  unfold handling
  rw [hx]

/-- `P` holds of every event. -/
def Emits (P : ω → Prop) (x : Logged ω ε α) : Prop := ∀ w ∈ x.events, P w

namespace Emits

variable {P : ω → Prop} {x : Logged ω ε α}

theorem pure (a : α) : Emits P (Pure.pure a : Logged ω ε α) := by
  intro w hw
  cases hw

theorem throw (e : ε) : Emits P (MonadExcept.throw e : Logged ω ε α) := by
  intro w hw
  cases hw

theorem lift (v : Except ε α) : Emits P (liftM v : Logged ω ε α) := by
  intro w hw
  cases hw

theorem emit {w : ω} (h : P w) : Emits P (Logged.emit w : Logged ω ε Unit) := by
  intro v hv
  rw [List.mem_singleton.mp hv]
  exact h

theorem bind {f : α → Logged ω ε β} (hx : Emits P x) (hf : ∀ a, Emits P (f a)) :
    Emits P (x >>= f) := by
  intro w hw
  cases hr : x.result with
  | ok a =>
    rw [events_bind_ok hr, List.mem_append] at hw
    exact hw.elim (hx w) (hf a w)
  | error e =>
    rw [events_bind_error hr] at hw
    exact hx w hw

theorem read {v : Except ε α} {f : α → Logged ω ε β} (hf : ∀ a, Emits P (f a)) :
    Emits P (liftM v >>= f) := bind (lift v) hf

theorem ite {c : Prop} [Decidable c] {y : Logged ω ε α} (hx : c → Emits P x)
    (hy : ¬ c → Emits P y) : Emits P (if c then x else y) := by
  split_ifs with h
  · exact hx h
  · exact hy h

theorem tryCatch {handle : ε → Logged ω ε α} (hx : Emits P x) (hh : ∀ e, Emits P (handle e)) :
    Emits P (MonadExcept.tryCatch x handle) := by
  intro w hw
  cases hr : x.result with
  | ok a =>
    rw [events_tryCatch_ok hr] at hw
    exact hx w hw
  | error e =>
    rw [events_tryCatch_error hr, List.mem_append] at hw
    exact hw.elim (hx w) (hh e w)

end Emits

def SameBut (P : ω → ω → Prop) (w w' : ω) : Prop := w = w' ∨ P w w'

/-- Two computations end in the same way, and record the same events but for such as `P`
    relates. -/
structure Lockstep {β : Type} (P : ω → ω → Prop) (R : α → β → Prop) (x : Logged ω ε α)
    (y : Logged ω ε β) : Prop where
  agree : Agree R x y
  events : List.Forall₂ (SameBut P) x.events y.events

namespace Lockstep

variable {γ δ : Type} {P : ω → ω → Prop} {R : α → β → Prop} {S : γ → δ → Prop}
  {x : Logged ω ε α} {y : Logged ω ε β}

theorem same (es : List ω) : List.Forall₂ (SameBut P) es es :=
  List.forall₂_same.mpr fun _ _ => .inl rfl

theorem refl (x : Logged ω ε α) : Lockstep P Eq x x := ⟨.of_result rfl, same _⟩

theorem pure {a : α} {b : β} (h : R a b) :
    Lockstep P R (Pure.pure a : Logged ω ε α) (Pure.pure b) := ⟨.pure h, .nil⟩

theorem throw (e : ε) :
    Lockstep P R (MonadExcept.throw e : Logged ω ε α) (MonadExcept.throw e) := ⟨.throw e, .nil⟩

theorem lift {v : Except ε α} {v' : Except ε β}
    (h : Agree R (liftM v : Logged ω ε α) (liftM v' : Logged ω ε β)) :
    Lockstep P R (liftM v : Logged ω ε α) (liftM v') := ⟨h, .nil⟩

theorem emit {w w' : ω} (h : SameBut P w w') :
    Lockstep P (fun _ _ => True) (Logged.emit w : Logged ω ε Unit) (Logged.emit w') :=
  ⟨.ok () () rfl rfl trivial, .cons h .nil⟩

theorem bind {f : α → Logged ω ε γ} {g : β → Logged ω ε δ} (hxy : Lockstep P R x y)
    (hfg : ∀ a b, R a b → Lockstep P S (f a) (g b)) : Lockstep P S (x >>= f) (y >>= g) := by
  refine ⟨.bind hxy.agree fun a b h => (hfg a b h).agree, ?_⟩
  cases hxy.agree with
  | ok a b hx hy h =>
    rw [events_bind_ok hx, events_bind_ok hy]
    exact List.rel_append hxy.events (hfg a b h).events
  | error e hx hy =>
    rw [events_bind_error hx, events_bind_error hy]
    exact hxy.events

theorem step {z : Logged ω ε α} {f : α → Logged ω ε γ} {g : α → Logged ω ε δ}
    (hfg : ∀ a, z.result = .ok a → Lockstep P S (f a) (g a)) :
    Lockstep P S (z >>= f) (z >>= g) := by
  cases hz : z.result with
  | ok a =>
    have hz' : Lockstep P (fun b c => b = a ∧ c = a) z z := ⟨.ok a a hz hz ⟨rfl, rfl⟩, same _⟩
    refine hz'.bind fun b c hbc => ?_
    rw [hbc.1, hbc.2]
    exact hfg a hz
  | error e =>
    have hz' : Lockstep P (fun _ _ => False) z z := ⟨.error e hz hz, same _⟩
    exact hz'.bind fun b c hbc => hbc.elim

theorem ite {c : Prop} [Decidable c] {x' : Logged ω ε α} {y' : Logged ω ε β}
    (h : c → Lockstep P R x y) (h' : ¬ c → Lockstep P R x' y') :
    Lockstep P R (if c then x else x') (if c then y else y') := by
  split_ifs with hc
  · exact h hc
  · exact h' hc

theorem tryCatch {handle : ε → Logged ω ε α} {handle' : ε → Logged ω ε β}
    (hxy : Lockstep P R x y) (hh : ∀ e, Lockstep P R (handle e) (handle' e)) :
    Lockstep P R (MonadExcept.tryCatch x handle) (MonadExcept.tryCatch y handle') := by
  refine ⟨.tryCatch hxy.agree fun e => (hh e).agree, ?_⟩
  cases hxy.agree with
  | ok a b hx hy h =>
    rw [events_tryCatch_ok hx, events_tryCatch_ok hy]
    exact hxy.events
  | error e hx hy =>
    rw [events_tryCatch_error hx, events_tryCatch_error hy]
    exact List.rel_append hxy.events (hh e).events

theorem mono {T : α → β → Prop} (hxy : Lockstep P R x y) (h : ∀ a b, R a b → T a b) :
    Lockstep P T x y := ⟨hxy.agree.mono h, hxy.events⟩

theorem events_eq (hxy : Lockstep (fun _ _ => False) R x y) : x.events = y.events := by
  have heq : ∀ w w' : ω, SameBut (fun _ _ => False) w w' → w = w' := fun w w' h => by
    rcases h with h | h
    · exact h
    · exact h.elim
  exact List.forall₂_eq_eq_eq ▸ hxy.events.imp heq

end Lockstep

/-- Two computations with one outcome record the same events but for one, and `Q` holds of what
    comes before it. -/
structure Splits (x y : Logged ω ε α) (Q : List ω → Prop) (w w' : ω) : Prop where
  result : x.result = y.result
  events : ∃ before after, Q before ∧ x.events = before ++ w :: after ∧
    y.events = before ++ w' :: after

namespace Splits

variable {x y : Logged ω ε α} {Q : List ω → Prop} {w w' : ω}

theorem emit (hQ : Q []) :
    Splits (Logged.emit w : Logged ω ε Unit) (Logged.emit w') Q w w' := ⟨rfl, [], [], hQ, rfl, rfl⟩

theorem bind (hxy : Splits x y Q w w') (f : α → Logged ω ε β) :
    Splits (x >>= f) (y >>= f) Q w w' := by
  obtain ⟨before, after, hQ, hx, hy⟩ := hxy.events
  refine ⟨by rw [result_bind, result_bind, hxy.result], before, ?_⟩
  cases hr : x.result with
  | ok a =>
    have hr' : y.result = .ok a := hxy.result ▸ hr
    rw [events_bind_ok hr, events_bind_ok hr', hx, hy]
    exact ⟨after ++ (f a).events, hQ, by simp, by simp⟩
  | error e =>
    have hr' : y.result = .error e := hxy.result ▸ hr
    rw [events_bind_error hr, events_bind_error hr', hx, hy]
    exact ⟨after, hQ, rfl, rfl⟩

theorem step {x : Logged ω ε α} {a : α} {f g : α → Logged ω ε β} (hx : x.result = .ok a)
    (hfg : Splits (f a) (g a) (fun before => Q (x.events ++ before)) w w') :
    Splits (x >>= f) (x >>= g) Q w w' := by
  obtain ⟨before, after, hQ, hf, hg⟩ := hfg.events
  refine ⟨?_, x.events ++ before, after, hQ, ?_, ?_⟩
  · rw [result_bind, result_bind, hx]
    exact hfg.result
  · rw [events_bind_ok hx, hf, List.append_assoc]
  · rw [events_bind_ok hx, hg, List.append_assoc]

theorem read {γ : Type} {v : Except ε α} {v' : Except ε γ} {a : α} {c : γ}
    {f : α → Logged ω ε β} {g : γ → Logged ω ε β} (hv : v = .ok a) (hv' : v' = .ok c)
    (hfg : Splits (f a) (g c) Q w w') : Splits (liftM v >>= f) (liftM v' >>= g) Q w w' := by
  subst hv
  subst hv'
  exact hfg

theorem mono {Q' : List ω → Prop} (hxy : Splits x y Q w w')
    (h : ∀ before, Q before → Q' before) : Splits x y Q' w w' := by
  obtain ⟨before, after, hQ, hevents⟩ := hxy.events
  exact ⟨hxy.result, before, after, h before hQ, hevents⟩

theorem tryCatch (hxy : Splits x y Q w w') (handle : ε → Logged ω ε α) :
    Splits (MonadExcept.tryCatch x handle) (MonadExcept.tryCatch y handle) Q w w' := by
  obtain ⟨before, after, hQ, hx, hy⟩ := hxy.events
  refine ⟨by rw [result_tryCatch, result_tryCatch, hxy.result], before, ?_⟩
  cases hr : x.result with
  | ok a =>
    have hr' : y.result = .ok a := hxy.result ▸ hr
    rw [events_tryCatch_ok hr, events_tryCatch_ok hr', hx, hy]
    exact ⟨after, hQ, rfl, rfl⟩
  | error e =>
    have hr' : y.result = .error e := hxy.result ▸ hr
    rw [events_tryCatch_error hr, events_tryCatch_error hr', hx, hy]
    exact ⟨after ++ (handle e).events, hQ, by simp, by simp⟩

end Splits

end Logged
end DepaKms
