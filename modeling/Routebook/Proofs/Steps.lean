/-
  Routebook.Proofs.Steps

  Rules for computations that change a state and may fail; what a failing one
  has changed stays.

  `exec` runs a computation, and its equations take a run apart step by step.
  On top of it stand two judgements, with rules for the ways to build a
  computation, so that a proof follows the text of the definition it is about:

    * `Keeps E I Q x` — from a state in `I` the computation `x` either answers
      some `a` and leaves a state in `Q a`, or fails and leaves one in `E`.
    * `Alike E R P x y` — `x` and `y`, run side by side from related states,
      fail for the same reason or both answer.
-/
import Routebook.Session.Basic

namespace Routebook

/-- A computation on a state that may fail. -/
abbrev Steps (σ α : Type) := ExceptT Failure (StateM σ) α

namespace Steps

variable {σ τ α β γ δ : Type}

/-- The outcome of a computation, and the state it leaves. -/
def exec (x : Steps σ α) (s : σ) : Outcome α × σ := x.run.run s

@[simp] theorem exec_pure (a : α) (s : σ) : exec (pure a : Steps σ α) s = (.ok a, s) := rfl

@[simp] theorem exec_throw (e : Failure) (s : σ) :
    exec (throw e : Steps σ α) s = (.error e, s) := rfl

@[simp] theorem exec_get (s : σ) : exec (get : Steps σ σ) s = (.ok s, s) := rfl

@[simp] theorem exec_modify (f : σ → σ) (s : σ) :
    exec (modify f : Steps σ PUnit) s = (.ok ⟨⟩, f s) := rfl

theorem exec_bind (x : Steps σ α) (f : α → Steps σ β) (s : σ) :
    exec (x >>= f) s
      = match exec x s with
        | (.ok a, s') => exec (f a) s'
        | (.error e, s') => (.error e, s') := by
  show exec (ExceptT.bind x f) s = _
  unfold exec ExceptT.bind
  simp only [ExceptT.run, ExceptT.mk, StateT.run, bind, StateT.bind]
  rcases x s with ⟨r, s'⟩
  cases r <;> rfl

theorem exec_tryCatch (x : Steps σ α) (h : Failure → Steps σ α) (s : σ) :
    exec (tryCatch x h) s
      = match exec x s with
        | (.ok a, s') => (.ok a, s')
        | (.error e, s') => exec (h e) s' := by
  show exec (ExceptT.tryCatch x h) s = _
  unfold exec ExceptT.tryCatch
  simp only [ExceptT.run, ExceptT.mk, StateT.run, bind, StateT.bind]
  rcases x s with ⟨r, s'⟩
  cases r <;> rfl

theorem discard_eq_bind (x : Steps σ α) :
    (discard x : Steps σ PUnit) = x >>= fun _ => pure ⟨⟩ := rfl

/-- A step that goes through. -/
theorem exec_bind_of_ok {x : Steps σ α} {f : α → Steps σ β} {s s' : σ} {a : α}
    (h : exec x s = (.ok a, s')) : exec (x >>= f) s = exec (f a) s' := by
  rw [exec_bind, h]

/-- A step that fails ends the computation. -/
theorem exec_bind_of_error {x : Steps σ α} {f : α → Steps σ β} {s s' : σ} {e : Failure}
    (h : exec x s = (.error e, s')) : exec (x >>= f) s = (.error e, s') := by
  rw [exec_bind, h]

/-! ## What a computation keeps -/

/-- How a run may end: with an answer that fits the state, or in a state in
which it may fail. -/
def Ends (E : σ → Prop) (Q : α → σ → Prop) : Outcome α × σ → Prop
  | (.ok a, s) => Q a s
  | (.error _, s) => E s

/-- From every state in `I` the computation ends as `E` and `Q` say. -/
def Keeps (E I : σ → Prop) (Q : α → σ → Prop) (x : Steps σ α) : Prop :=
  ∀ s, I s → Ends E Q (exec x s)

section Keeps

variable {E I I' : σ → Prop} {Q Q' : α → σ → Prop} {P : β → σ → Prop}
variable {x : Steps σ α} {f : α → Steps σ β}

theorem keeps_pure {a : α} (h : ∀ s, I s → Q a s) : Keeps E I Q (pure a) := h

theorem keeps_bind (hx : Keeps E I Q x) (hf : ∀ a, Keeps E (Q a) P (f a)) :
    Keeps E I P (x >>= f) := by
  intro s hs
  have hfirst := hx s hs
  rw [exec_bind]
  generalize exec x s = r at hfirst ⊢
  rcases r with ⟨e | a, s'⟩
  · exact hfirst
  · exact hf a s' hfirst

theorem keeps_mono (hx : Keeps E I Q x) (hI : ∀ s, I' s → I s) (hQ : ∀ a s, Q a s → Q' a s) :
    Keeps E I' Q' x := by
  intro s hs
  have hends := hx s (hI s hs)
  generalize exec x s = r at hends ⊢
  rcases r with ⟨e | a, s'⟩
  · exact hends
  · exact hQ a s' hends

theorem keeps_discard {I' : σ → Prop} (hx : Keeps E I Q x) (hQ : ∀ a s, Q a s → I' s) :
    Keeps E I (fun _ => I') (discard x : Steps σ PUnit) := by
  rw [discard_eq_bind]
  exact keeps_bind hx fun a => keeps_pure (hQ a)

/-- What goes on with the state as it is may use all that is known of it. -/
theorem keeps_get_bind {f : σ → Steps σ β} (hf : ∀ s, I s → Keeps E I P (f s)) :
    Keeps E I P (get >>= f) := by
  intro s hs
  rw [exec_bind_of_ok (exec_get s)]
  exact hf s hs s hs

/-- A loop keeps what each of its rounds keeps. -/
theorem keeps_forM {g : α → Steps σ PUnit} (xs : List α)
    (h : ∀ a ∈ xs, Keeps E I (fun _ => I) (g a)) : Keeps E I (fun _ => I) (xs.forM g) := by
  induction xs with
  | nil => exact keeps_pure fun _ hs => hs
  | cons a xs ih =>
      refine keeps_bind (h a List.mem_cons_self) fun _ => ?_
      exact ih fun b hb => h b (List.mem_cons_of_mem _ hb)

end Keeps

/-! ## Side by side -/

/-- How two runs may end: both with an answer, or both with the same failure. -/
def EndAlike (E : σ → τ → Prop) (P : α → β → σ → τ → Prop) : Outcome α × σ → Outcome β × τ → Prop
  | (.ok a, s), (.ok b, t) => P a b s t
  | (.error e, s), (.error e', t) => e = e' ∧ E s t
  | _, _ => False

/-- Run from related states, the two computations end alike. -/
def Alike (E R : σ → τ → Prop) (P : α → β → σ → τ → Prop) (x : Steps σ α) (y : Steps τ β) : Prop :=
  ∀ s t, R s t → EndAlike E P (exec x s) (exec y t)

section Alike

variable {E R : σ → τ → Prop} {P : α → β → σ → τ → Prop} {P' : γ → δ → σ → τ → Prop}
variable {x : Steps σ α} {y : Steps τ β}

theorem alike_pure {a : α} {b : β} (h : ∀ s t, R s t → P a b s t) :
    Alike E R P (pure a) (pure b) := h

theorem alike_throw (e : Failure) (h : ∀ s t, R s t → E s t) :
    Alike E R P (throw e) (throw e) := fun s t hR => ⟨rfl, h s t hR⟩

theorem alike_get : Alike E R (fun a b s t => a = s ∧ b = t ∧ R s t) get get :=
  fun _ _ hR => ⟨rfl, rfl, hR⟩

theorem alike_modify {f : σ → σ} {g : τ → τ} {P : PUnit → PUnit → σ → τ → Prop}
    (h : ∀ s t, R s t → P ⟨⟩ ⟨⟩ (f s) (g t)) : Alike E R P (modify f) (modify g) := h

theorem alike_bind {f : α → Steps σ γ} {g : β → Steps τ δ} (hx : Alike E R P x y)
    (hf : ∀ a b, Alike E (P a b) P' (f a) (g b)) : Alike E R P' (x >>= f) (y >>= g) := by
  intro s t hR
  have hfirst := hx s t hR
  rw [exec_bind, exec_bind]
  generalize exec x s = r at hfirst ⊢
  generalize exec y t = r' at hfirst ⊢
  rcases r with ⟨e | a, s'⟩ <;> rcases r' with ⟨e' | b, t'⟩
  · exact hfirst
  · exact hfirst.elim
  · exact hfirst.elim
  · exact hf a b s' t' hfirst

theorem alike_tryCatch {h : Failure → Steps σ α} {h' : Failure → Steps τ β}
    (hx : Alike E R P x y) (hh : ∀ e, Alike E E P (h e) (h' e)) :
    Alike E R P (tryCatch x h) (tryCatch y h') := by
  intro s t hR
  have hfirst := hx s t hR
  rw [exec_tryCatch, exec_tryCatch]
  generalize exec x s = r at hfirst ⊢
  generalize exec y t = r' at hfirst ⊢
  rcases r with ⟨e | a, s'⟩ <;> rcases r' with ⟨e' | b, t'⟩
  · obtain ⟨rfl, hE⟩ := hfirst
    exact hh e s' t' hE
  · exact hfirst.elim
  · exact hfirst.elim
  · exact hfirst

end Alike

end Steps
end Routebook
