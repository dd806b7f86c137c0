import Mathlib.Logic.Basic
import Mathlib.Tactic.Common

/-!
# NfOrchestrator.Effects.Prog

**Effectful programs as trees.** A `Prog S ε α` is a program that calls the
operations of a signature `S`, may raise an exception of type `ε`, and returns
an `α`. It is the free monad over `S` with exceptions: what an operation does is
not part of the program, so one definition serves every environment — a fixed
set of replies, a stateful world, or several programs interleaved.

Three readings of a program are given:

* `Prog.wp` — a predicate transformer, parameterised by what each operation
  guarantees (`Spec`). It commutes with `bind` and `tryCatch`, so a proof about a
  program is the composition of proofs about its parts.
* `Prog.Runs` — the runs of a program in an environment (`Env`), a relation
  between a starting world, a result and a final world; `wp_iff_runs` says that
  `wp` speaks of exactly those runs.
* `Prog.run` — an interpreter, for an environment that answers by computing.
-/

namespace NfOrchestrator

/-- The operations a program may call and the type of reply each one gets. -/
structure Signature where
  Op : Type
  Resp : Op → Type

/-- The operations of both signatures. -/
abbrev Signature.sum (S T : Signature) : Signature := ⟨S.Op ⊕ T.Op, Sum.elim S.Resp T.Resp⟩

/-- A program over the operations of `S` that may raise an `ε`. -/
inductive Prog (S : Signature) (ε α : Type) where
  | ret (a : α)
  | raise (e : ε)
  | call (o : S.Op) (k : S.Resp o → Prog S ε α)

namespace Prog

variable {S : Signature} {ε α β γ W : Type}

/-! ### Sequencing and exceptions -/

/-- Run `p`, then `f` on what it returned. -/
protected def bind : Prog S ε α → (α → Prog S ε β) → Prog S ε β
  | .ret a, f => f a
  | .raise e, _ => .raise e
  | .call o k, f => .call o fun r => (k r).bind f

/-- Run `p`, and `h` on the exception it raised, if it raised one. -/
protected def tryCatch : Prog S ε α → (ε → Prog S ε α) → Prog S ε α
  | .ret a, _ => .ret a
  | .raise e, h => h e
  | .call o k, h => .call o fun r => (k r).tryCatch h

instance : Monad (Prog S ε) where
  pure := .ret
  bind := Prog.bind

instance : MonadExcept ε (Prog S ε) where
  throw := .raise
  tryCatch := Prog.tryCatch

/-- Call one operation and return its reply. -/
def op (o : S.Op) : Prog S ε (S.Resp o) := .call o .ret

/-- A value computed without operations, or the exception computing it raised. -/
def ofExcept : Except ε α → Prog S ε α
  | .ok a => .ret a
  | .error e => .raise e

protected theorem id_map (p : Prog S ε α) : id <$> p = p := by
  induction p with
  | ret a => rfl
  | raise e => rfl
  | call o k ih => exact congrArg (Prog.call o) (funext ih)

protected theorem bind_assoc (p : Prog S ε α) (f : α → Prog S ε β) (g : β → Prog S ε γ) :
    (p >>= f) >>= g = p >>= fun a => f a >>= g := by
  induction p with
  | ret a => rfl
  | raise e => rfl
  | call o k ih => exact congrArg (Prog.call o) (funext ih)

instance : LawfulMonad (Prog S ε) :=
  LawfulMonad.mk' (Prog S ε) Prog.id_map (fun _ _ => rfl) Prog.bind_assoc

@[simp] theorem pure_def (a : α) : (pure a : Prog S ε α) = .ret a := rfl
@[simp] theorem throw_def (e : ε) : (throw e : Prog S ε α) = .raise e := rfl
@[simp] theorem ret_bind (a : α) (f : α → Prog S ε β) : (.ret a >>= f) = f a := rfl
@[simp] theorem raise_bind (e : ε) (f : α → Prog S ε β) : (.raise e >>= f) = .raise e := rfl
@[simp] theorem call_bind (o : S.Op) (k : S.Resp o → Prog S ε α) (f : α → Prog S ε β) :
    (.call o k >>= f) = .call o fun r => k r >>= f := rfl
@[simp] theorem tryCatch_ret (a : α) (h : ε → Prog S ε α) :
    tryCatch (.ret a : Prog S ε α) h = .ret a := rfl
@[simp] theorem tryCatch_raise (e : ε) (h : ε → Prog S ε α) :
    tryCatch (.raise e : Prog S ε α) h = h e := rfl
@[simp] theorem tryCatch_call (o : S.Op) (k : S.Resp o → Prog S ε α) (h : ε → Prog S ε α) :
    tryCatch (.call o k) h = .call o fun r => tryCatch (k r) h := rfl
@[simp] theorem ofExcept_ok (a : α) : (ofExcept (.ok a) : Prog S ε α) = .ret a := rfl
@[simp] theorem ofExcept_error (e : ε) :
    (ofExcept (.error e) : Prog S ε α) = .raise e := rfl

end Prog

/-! ### What an operation guarantees -/

/-- For each operation and world, the condition under which every reply leads to
a continuation that satisfies the given postcondition. -/
abbrev Spec (S : Signature) (W : Type) :=
  (o : S.Op) → W → (S.Resp o → W → Prop) → Prop

/-- An environment: which replies an operation may get in a world, and the world
it leaves behind. -/
abbrev Env (S : Signature) (W : Type) :=
  (o : S.Op) → W → S.Resp o → W → Prop

namespace Spec

variable {S : Signature} {W : Type}

/-- A specification that asks no more of a weaker postcondition. -/
def Mono (Φ : Spec S W) : Prop :=
  ∀ o w ⦃K K' : S.Resp o → W → Prop⦄, (∀ r w', K r w' → K' r w') → Φ o w K → Φ o w K'

end Spec

/-- Every reply the environment may give satisfies the postcondition. -/
def Env.spec {S : Signature} {W : Type} (E : Env S W) : Spec S W :=
  fun o w K => ∀ r w', E o w r w' → K r w'

@[simp] theorem Env.spec_apply {S : Signature} {W : Type} {E : Env S W} {o : S.Op} {w : W}
    {K : S.Resp o → W → Prop} : E.spec o w K ↔ ∀ r w', E o w r w' → K r w' := Iff.rfl

/-- Every operation gets some reply in every world. -/
def Env.Total {S : Signature} {W : Type} (E : Env S W) : Prop := ∀ o w, ∃ r w', E o w r w'

/-- No operation changes the world from `w`. -/
def Env.Still {S : Signature} {W : Type} (E : Env S W) (w : W) : Prop :=
  ∀ o r w', E o w r w' → w' = w

/-- What an environment for two signatures does with the calls of the first. -/
abbrev Env.inl {S T : Signature} {W : Type} (E : Env (S.sum T) W) : Env S W :=
  fun o w r w' => E (.inl o) w r w'

theorem Env.still_unit {S : Signature} (E : Env S Unit) : E.Still () := fun _ _ _ _ => rfl

theorem Env.spec_mono {S : Signature} {W : Type} (E : Env S W) : E.spec.Mono :=
  fun _ _ _ _ h hK r w' hE => h r w' (hK r w' hE)

namespace Prog

variable {S : Signature} {ε α β γ W : Type}

/-! ### Weakest preconditions -/

/-- Every way the program can end under `Φ` satisfies `Q`. -/
def wp (Φ : Spec S W) : Prog S ε α → (Except ε α → W → Prop) → W → Prop
  | .ret a, Q, w => Q (.ok a) w
  | .raise e, Q, w => Q (.error e) w
  | .call o k, Q, w => Φ o w fun r w' => (k r).wp Φ Q w'

variable {Φ : Spec S W} {Q : Except ε α → W → Prop} {w : W}

@[simp] theorem wp_ret (a : α) : (Prog.ret a : Prog S ε α).wp Φ Q w ↔ Q (.ok a) w := Iff.rfl
@[simp] theorem wp_raise (e : ε) :
    (Prog.raise e : Prog S ε α).wp Φ Q w ↔ Q (.error e) w := Iff.rfl
theorem wp_call (o : S.Op) (k : S.Resp o → Prog S ε α) :
    (Prog.call o k).wp Φ Q w ↔ Φ o w fun r w' => (k r).wp Φ Q w' := Iff.rfl
@[simp] theorem wp_op (o : S.Op) {Q : Except ε (S.Resp o) → W → Prop} :
    (Prog.op o : Prog S ε (S.Resp o)).wp Φ Q w ↔ Φ o w fun r w' => Q (.ok r) w' := Iff.rfl
@[simp] theorem wp_ofExcept (x : Except ε α) :
    (Prog.ofExcept x : Prog S ε α).wp Φ Q w ↔ Q x w := by
  cases x <;> rfl

/-- The postcondition of `p` in `p >>= f`: an exception skips `f`. -/
def bindPost (Φ : Spec S W) (f : α → Prog S ε β) (Q : Except ε β → W → Prop) :
    Except ε α → W → Prop
  | .ok a, w => (f a).wp Φ Q w
  | .error e, w => Q (.error e) w

/-- The postcondition of `p` in `tryCatch p h`: a value skips `h`. -/
def catchPost (Φ : Spec S W) (h : ε → Prog S ε α) (Q : Except ε α → W → Prop) :
    Except ε α → W → Prop
  | .ok a, w => Q (.ok a) w
  | .error e, w => (h e).wp Φ Q w

@[simp] theorem bindPost_ok (f : α → Prog S ε β) (Q : Except ε β → W → Prop) (a : α) :
    bindPost Φ f Q (.ok a) w ↔ (f a).wp Φ Q w := Iff.rfl
@[simp] theorem bindPost_error (f : α → Prog S ε β) (Q : Except ε β → W → Prop) (e : ε) :
    bindPost Φ f Q (.error e) w ↔ Q (.error e) w := Iff.rfl
@[simp] theorem catchPost_ok (h : ε → Prog S ε α) (a : α) :
    catchPost Φ h Q (.ok a) w ↔ Q (.ok a) w := Iff.rfl
@[simp] theorem catchPost_error (h : ε → Prog S ε α) (e : ε) :
    catchPost Φ h Q (.error e) w ↔ (h e).wp Φ Q w := Iff.rfl

@[simp] theorem wp_bind (p : Prog S ε α) (f : α → Prog S ε β) (Q : Except ε β → W → Prop) :
    (p >>= f).wp Φ Q w ↔ p.wp Φ (bindPost Φ f Q) w := by
  induction p generalizing w with
  | ret a => rfl
  | raise e => rfl
  | call o k ih =>
      have hk : (fun r w' => (k r >>= f).wp Φ Q w') =
          fun r w' => (k r).wp Φ (bindPost Φ f Q) w' :=
        funext fun r => funext fun w' => propext (ih r)
      simp only [call_bind, wp_call, hk]

@[simp] theorem wp_tryCatch (p : Prog S ε α) (h : ε → Prog S ε α) :
    (tryCatch p h).wp Φ Q w ↔ p.wp Φ (catchPost Φ h Q) w := by
  induction p generalizing w with
  | ret a => rfl
  | raise e => rfl
  | call o k ih =>
      have hk : (fun r w' => (tryCatch (k r) h).wp Φ Q w') =
          fun r w' => (k r).wp Φ (catchPost Φ h Q) w' :=
        funext fun r => funext fun w' => propext (ih r)
      simp only [tryCatch_call, wp_call, hk]

@[simp] theorem wp_map (f : α → β) (p : Prog S ε α) {Q : Except ε β → W → Prop} :
    (f <$> p).wp Φ Q w ↔ p.wp Φ (fun x w' => Q (x.map f) w') w := by
  rw [map_eq_pure_bind, wp_bind]
  refine iff_of_eq (congrArg (p.wp Φ · w) (funext fun x => funext fun w' => ?_))
  cases x <;> rfl

theorem wp_mono (hΦ : Φ.Mono) {p : Prog S ε α} {Q Q' : Except ε α → W → Prop}
    (hQ : ∀ x w', Q x w' → Q' x w') (h : p.wp Φ Q w) : p.wp Φ Q' w := by
  induction p generalizing w with
  | ret a => exact hQ _ _ h
  | raise e => exact hQ _ _ h
  | call o k ih => exact hΦ o w (fun r w' hr => ih r hr) h

/-! ### Runs -/

/-- `p.Runs E w x w'`: started in world `w`, the program can end with `x` in
world `w'` when the environment `E` answers its calls. -/
def Runs (E : Env S W) : Prog S ε α → W → Except ε α → W → Prop
  | .ret a, w, x, w' => x = .ok a ∧ w' = w
  | .raise e, w, x, w' => x = .error e ∧ w' = w
  | .call o k, w, x, w' => ∃ r w₁, E o w r w₁ ∧ (k r).Runs E w₁ x w'

/-- `wp` over an environment speaks of exactly the runs in it. -/
theorem wp_iff_runs {E : Env S W} {p : Prog S ε α} {Q : Except ε α → W → Prop} {w : W} :
    p.wp E.spec Q w ↔ ∀ x w', p.Runs E w x w' → Q x w' := by
  induction p generalizing w with
  | ret a =>
      constructor
      · intro h x w' hx
        obtain ⟨rfl, rfl⟩ := hx
        exact h
      · intro h
        exact h _ _ ⟨rfl, rfl⟩
  | raise e =>
      constructor
      · intro h x w' hx
        obtain ⟨rfl, rfl⟩ := hx
        exact h
      · intro h
        exact h _ _ ⟨rfl, rfl⟩
  | call o k ih =>
      constructor
      · intro h x w' hx
        obtain ⟨r, w₁, hE, hr⟩ := hx
        exact (ih r).mp (h r w₁ hE) x w' hr
      · intro h r w₁ hE
        exact (ih r).mpr fun x w' hr => h x w' ⟨r, w₁, hE, hr⟩

/-- What holds however the first part ends, whether it returned or raised. -/
theorem wp_bind_of_forall {E : Env S W} {p : Prog S ε α} {f : α → Prog S ε β}
    {Q : Except ε β → W → Prop} {w : W} (herror : ∀ e w', Q (.error e) w')
    (hf : ∀ a w', (f a).wp E.spec Q w') : (p >>= f).wp E.spec Q w := by
  rw [wp_bind, wp_iff_runs]
  rintro (e | a) w' _
  · exact herror e w'
  · exact hf a w'

/-- Programs whose results are known run one after the other like computations. -/
theorem wp_bind_eq {E : Env S W} {p : Prog S ε α} {f : α → Prog S ε β} {v : Except ε α}
    {g : α → Except ε β} {w : W} (hp : p.wp E.spec (fun x _ => x = v) w)
    (hf : ∀ a w', (f a).wp E.spec (fun x _ => x = g a) w') :
    (p >>= f).wp E.spec (fun x _ => x = v >>= g) w := by
  rw [wp_bind]
  refine wp_mono E.spec_mono ?_ hp
  intro x w' h
  subst h
  cases x with
  | error e => rfl
  | ok a => exact hf a w'

/-- What `wp` promises holds at the end of a run. -/
theorem Runs.post {E : Env S W} {p : Prog S ε α} {Q : Except ε α → W → Prop} {w w' : W}
    {x : Except ε α} (hr : p.Runs E w x w') (h : p.wp E.spec Q w) : Q x w' :=
  wp_iff_runs.mp h x w' hr

/-- A sequence runs by running its first part and then, if that returned, its
second. -/
theorem runs_bind {E : Env S W} {p : Prog S ε α} {f : α → Prog S ε β} {w w' : W}
    {x : Except ε β} :
    (p >>= f).Runs E w x w' ↔
      (∃ a w₁, p.Runs E w (.ok a) w₁ ∧ (f a).Runs E w₁ x w') ∨
      (∃ e, p.Runs E w (.error e) w' ∧ x = .error e) := by
  induction p generalizing w with
  | ret a => simp [Runs]
  | raise e => simp [Runs, and_comm]
  | call o k ih =>
      simp only [call_bind, Runs, ih]
      constructor
      · intro hx
        rcases hx with ⟨r, w₁, hE, ⟨a, w₂, h₁, h₂⟩ | ⟨e, h, rfl⟩⟩
        · exact .inl ⟨a, w₂, ⟨r, w₁, hE, h₁⟩, h₂⟩
        · exact .inr ⟨e, ⟨r, w₁, hE, h⟩, rfl⟩
      · intro hx
        rcases hx with ⟨a, w₂, ⟨r, w₁, hE, h₁⟩, h₂⟩ | ⟨e, ⟨r, w₁, hE, h⟩, rfl⟩
        · exact ⟨r, w₁, hE, .inl ⟨a, w₂, h₁, h₂⟩⟩
        · exact ⟨r, w₁, hE, .inr ⟨e, h, rfl⟩⟩

/-- A run of the first part that returned, followed by one of the second. -/
theorem Runs.bind {E : Env S W} {p : Prog S ε α} {f : α → Prog S ε β} {a : α} {w w₁ w' : W}
    {x : Except ε β} (hp : p.Runs E w (.ok a) w₁) (hf : (f a).Runs E w₁ x w') :
    (p >>= f).Runs E w x w' := runs_bind.mpr (.inl ⟨a, w₁, hp, hf⟩)

/-- A guarded program ends as its body does, or as the handler does after what the body
raised. -/
theorem runs_tryCatch {E : Env S W} {p : Prog S ε α} {h : ε → Prog S ε α} {w w' : W}
    {x : Except ε α} :
    (tryCatch p h).Runs E w x w' ↔
      (∃ a, p.Runs E w (.ok a) w' ∧ x = .ok a) ∨
      (∃ e w₁, p.Runs E w (.error e) w₁ ∧ (h e).Runs E w₁ x w') := by
  induction p generalizing w with
  | ret a => simp [Runs, and_comm]
  | raise e => simp [Runs]
  | call o k ih =>
      simp only [tryCatch_call, Runs, ih]
      constructor
      · intro hx
        rcases hx with ⟨r, w₁, hE, ⟨a, h, rfl⟩ | ⟨e, w₂, h₁, h₂⟩⟩
        · exact .inl ⟨a, ⟨r, w₁, hE, h⟩, rfl⟩
        · exact .inr ⟨e, w₂, ⟨r, w₁, hE, h₁⟩, h₂⟩
      · intro hx
        rcases hx with ⟨a, ⟨r, w₁, hE, h⟩, rfl⟩ | ⟨e, w₂, ⟨r, w₁, hE, h₁⟩, h₂⟩
        · exact ⟨r, w₁, hE, .inl ⟨a, h, rfl⟩⟩
        · exact ⟨r, w₁, hE, .inr ⟨e, w₂, h₁, h₂⟩⟩

theorem runs_map {E : Env S W} {f : α → β} {p : Prog S ε α} {w w' : W} {x : Except ε β} :
    (f <$> p).Runs E w x w' ↔ ∃ y, p.Runs E w y w' ∧ x = y.map f := by
  rw [map_eq_pure_bind, runs_bind]
  constructor
  · intro h
    rcases h with ⟨a, w₁, hp, rfl, rfl⟩ | ⟨e, hp, rfl⟩
    · exact ⟨.ok a, hp, rfl⟩
    · exact ⟨.error e, hp, rfl⟩
  · intro h
    rcases h with ⟨e | a, hp, rfl⟩
    · exact .inr ⟨e, hp, rfl⟩
    · exact .inl ⟨a, w', hp, rfl, rfl⟩

theorem runs_ofExcept {E : Env S W} {x y : Except ε α} {w w' : W} :
    (ofExcept x).Runs E w y w' ↔ y = x ∧ w' = w := by
  cases x <;> rfl

/-- More replies allow more runs. -/
theorem Runs.mono {E E' : Env S W} (hE : ∀ o w r w', E o w r w' → E' o w r w')
    {p : Prog S ε α} {w w' : W} {x : Except ε α} (h : p.Runs E w x w') : p.Runs E' w x w' := by
  induction p generalizing w with
  | ret a => exact h
  | raise e => exact h
  | call o k ih =>
      obtain ⟨r, w₁, hr, hk⟩ := h
      exact ⟨r, w₁, hE o w r w₁ hr, ih r hk⟩

/-- How the program has ended, if it makes no more calls. -/
def result : Prog S ε α → Option (Except ε α)
  | .ret a => some (.ok a)
  | .raise e => some (.error e)
  | .call _ _ => none

/-- Of a program that has ended, `wp` speaks of its result. -/
theorem wp_of_result {Φ : Spec S W} {Q : Except ε α → W → Prop} {p : Prog S ε α}
    {x : Except ε α} {w : W} (h : p.result = some x) : p.wp Φ Q w ↔ Q x w := by
  cases p with
  | ret a => exact Option.some.inj h ▸ wp_ret a
  | raise e => exact Option.some.inj h ▸ wp_raise e
  | call o k => cases h

/-- A property of the world that every step keeps holds after a run. -/
theorem Runs.invariant {E : Env S W} {I : W → Prop}
    (hstep : ∀ o w r w', E o w r w' → I w → I w') {p : Prog S ε α} {w w' : W} {x : Except ε α}
    (h : p.Runs E w x w') (hw : I w) : I w' := by
  induction p generalizing w with
  | ret a => exact h.2 ▸ hw
  | raise e => exact h.2 ▸ hw
  | call o k ih =>
      obtain ⟨r, w₁, hE, hk⟩ := h
      exact ih r hk (hstep o w r w₁ hE hw)

/-- `p.Ends E w x`: started in world `w`, the program can end with `x`. -/
def Ends (E : Env S W) (p : Prog S ε α) (w : W) (x : Except ε α) : Prop := ∃ w', p.Runs E w x w'

/-- A program is a finite tree, so where every operation is answered it ends. -/
theorem exists_ends {E : Env S W} (hE : E.Total) (p : Prog S ε α) (w : W) :
    ∃ x, p.Ends E w x := by
  induction p generalizing w with
  | ret a => exact ⟨.ok a, w, rfl, rfl⟩
  | raise e => exact ⟨.error e, w, rfl, rfl⟩
  | call o k ih =>
      obtain ⟨r, w₁, hr⟩ := hE o w
      obtain ⟨x, w', hx⟩ := ih r w₁
      exact ⟨x, w', r, w₁, hr, hx⟩

/-- A program with one possible result ends with that result and no other. -/
theorem ends_iff_eq {E : Env S W} (hE : E.Total) {p : Prog S ε α} {w : W} {v : Except ε α}
    (h : p.wp E.spec (fun x _ => x = v) w) {x : Except ε α} : p.Ends E w x ↔ x = v := by
  constructor
  · intro hx
    obtain ⟨w', hr⟩ := hx
    exact hr.post h
  · rintro rfl
    obtain ⟨y, w', hr⟩ := exists_ends hE p w
    obtain rfl : y = x := hr.post h
    exact ⟨w', hr⟩

/-! ### The calls a program can make -/

/-- Every call the program can make satisfies `P`, whatever replies it gets. -/
def Within (P : S.Op → Prop) : Prog S ε α → Prop
  | .ret _ => True
  | .raise _ => True
  | .call o k => P o ∧ ∀ r, (k r).Within P

variable {P : S.Op → Prop}

theorem within_op {o : S.Op} (h : P o) : (op o : Prog S ε (S.Resp o)).Within P :=
  ⟨h, fun _ => trivial⟩

theorem within_ofExcept (x : Except ε α) : (ofExcept x : Prog S ε α).Within P := by
  cases x <;> trivial

theorem Within.bind {p : Prog S ε α} {f : α → Prog S ε β} (hp : p.Within P)
    (hf : ∀ a, (f a).Within P) : (p >>= f).Within P := by
  induction p with
  | ret a => exact hf a
  | raise e => trivial
  | call o k ih => exact ⟨hp.1, fun r => ih r (hp.2 r)⟩

theorem Within.tryCatch {p : Prog S ε α} {h : ε → Prog S ε α} (hp : p.Within P)
    (hh : ∀ e, (h e).Within P) : (tryCatch p h).Within P := by
  induction p with
  | ret a => trivial
  | raise e => exact hh e
  | call o k ih => exact ⟨hp.1, fun r => ih r (hp.2 r)⟩

theorem Within.mono {P' : S.Op → Prop} {p : Prog S ε α} (hP : ∀ o, P o → P' o)
    (hp : p.Within P) : p.Within P' := by
  induction p with
  | ret a => trivial
  | raise e => trivial
  | call o k ih => exact ⟨hP o hp.1, fun r => ih r (hp.2 r)⟩

/-- A property of the world that the calls of a program keep holds after its runs. -/
theorem Within.invariant {E : Env S W} {I : W → Prop} {p : Prog S ε α} (hp : p.Within P)
    (hstep : ∀ o w r w', P o → E o w r w' → I w → I w') {w w' : W} {x : Except ε α}
    (hr : p.Runs E w x w') (hw : I w) : I w' := by
  induction p generalizing w with
  | ret a => exact hr.2 ▸ hw
  | raise e => exact hr.2 ▸ hw
  | call o k ih =>
      obtain ⟨r, w₁, hE, hk⟩ := hr
      exact ih r (hp.2 r) hk (hstep o w r w₁ hp.1 hE hw)

/-! ### Programs that raise nothing -/

/-- The program raises no exception, whatever replies it gets. -/
def Returns : Prog S ε α → Prop
  | .ret _ => True
  | .raise _ => False
  | .call _ k => ∀ r, (k r).Returns

theorem returns_op (o : S.Op) : (op o : Prog S ε (S.Resp o)).Returns := fun _ => trivial

theorem Returns.bind {p : Prog S ε α} {f : α → Prog S ε β} (hp : p.Returns)
    (hf : ∀ a, (f a).Returns) : (p >>= f).Returns := by
  induction p with
  | ret a => exact hf a
  | raise e => exact hp.elim
  | call o k ih => exact fun r => ih r (hp r)

theorem Returns.ok {E : Env S W} {p : Prog S ε α} (hp : p.Returns) {w w' : W} {x : Except ε α}
    (hr : p.Runs E w x w') : ∃ a, x = .ok a := by
  induction p generalizing w with
  | ret a => exact ⟨a, hr.1⟩
  | raise e => exact hp.elim
  | call o k ih =>
      obtain ⟨r, w₁, -, hk⟩ := hr
      exact ih r (hp r) hk

/-- Every exception the program can raise satisfies `R`, whatever replies it gets. -/
def Raising (R : ε → Prop) : Prog S ε α → Prop
  | .ret _ => True
  | .raise e => R e
  | .call _ k => ∀ r, (k r).Raising R

variable {R : ε → Prop}

theorem raising_op (o : S.Op) : (op o : Prog S ε (S.Resp o)).Raising R := fun _ => trivial

theorem raising_ofExcept {x : Except ε α} (h : ∀ e, x = .error e → R e) :
    (ofExcept x : Prog S ε α).Raising R := by
  cases x with
  | ok a => trivial
  | error e => exact h e rfl

theorem Raising.bind {p : Prog S ε α} {f : α → Prog S ε β} (hp : p.Raising R)
    (hf : ∀ a, (f a).Raising R) : (p >>= f).Raising R := by
  induction p with
  | ret a => exact hf a
  | raise e => exact hp
  | call o k ih => exact fun r => ih r (hp r)

/-! ### Programs over more operations -/

/-- The program, where it may call further operations. -/
def inl {T : Signature} : Prog S ε α → Prog (S.sum T) ε α
  | .ret a => .ret a
  | .raise e => .raise e
  | .call o k => .call (show (S.sum T).Op from .inl o) fun r => (k r).inl

@[simp] theorem wp_inl {T : Signature} {E : Env (S.sum T) W} {p : Prog S ε α}
    {Q : Except ε α → W → Prop} {w : W} : p.inl.wp E.spec Q w ↔ p.wp E.inl.spec Q w := by
  induction p generalizing w with
  | ret a => rfl
  | raise e => rfl
  | call o k ih =>
      exact forall_congr' fun r => forall_congr' fun w' => imp_congr_right fun _ => ih r

theorem runs_inl {T : Signature} {E : Env (S.sum T) W} {p : Prog S ε α} {w w' : W}
    {x : Except ε α} : p.inl.Runs E w x w' ↔ p.Runs E.inl w x w' := by
  induction p generalizing w with
  | ret a => rfl
  | raise e => rfl
  | call o k ih => exact exists_congr fun r => exists_congr fun w₁ => and_congr_right fun _ => ih r

theorem Within.inl {T : Signature} {P' : T.Op → Prop} {p : Prog S ε α} (hp : p.Within P) :
    (p.inl : Prog (S.sum T) ε α).Within (Sum.elim P P') := by
  induction p with
  | ret a => trivial
  | raise e => trivial
  | call o k ih => exact ⟨hp.1, fun r => ih r (hp.2 r)⟩

theorem Returns.inl {T : Signature} {p : Prog S ε α} (hp : p.Returns) :
    (p.inl : Prog (S.sum T) ε α).Returns := by
  induction p with
  | ret a => trivial
  | raise e => exact hp.elim
  | call o k ih => exact fun r => ih r (hp r)

/-! ### Interpretation -/

/-- Run a program against a handler that computes each reply. -/
def run (h : (o : S.Op) → W → S.Resp o × W) : Prog S ε α → W → Except ε α × W
  | .ret a, w => (.ok a, w)
  | .raise e, w => (.error e, w)
  | .call o k, w => (k (h o w).1).run h (h o w).2

/-- An interpreted run is a run of any environment that allows the handler's
replies. -/
theorem runs_run {E : Env S W} {h : (o : S.Op) → W → S.Resp o × W}
    (hE : ∀ o w, E o w (h o w).1 (h o w).2) (p : Prog S ε α) (w : W) :
    p.Runs E w (p.run h w).1 (p.run h w).2 := by
  induction p generalizing w with
  | ret a => exact ⟨rfl, rfl⟩
  | raise e => exact ⟨rfl, rfl⟩
  | call o k ih => exact ⟨_, _, hE o w, ih _ _⟩

end Prog

end NfOrchestrator
