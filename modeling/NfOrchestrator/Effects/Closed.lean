import NfOrchestrator.Effects.Prog

/-!
# NfOrchestrator.Effects.Closed

**Properties that composing programs keeps.** What holds of a program's parts and is kept by
sequencing and by handling exceptions holds of the program (`Closed`). Keeping an invariant of
the world is such a property (`closed_wp`), and so is one of programs over more operations, as
a property of the programs over fewer (`Closed.inl`).
-/

namespace NfOrchestrator

variable {S T : Signature} {ε W : Type}

/-- A property of programs that composing them keeps. -/
structure Closed (C : ∀ ⦃α : Type⦄, Prog S ε α → Prop) : Prop where
  ret {α : Type} (a : α) : C (.ret a)
  raise (α : Type) (e : ε) : C (.raise e : Prog S ε α)
  bind {α β : Type} {p : Prog S ε α} {f : α → Prog S ε β} (hp : C p) (hf : ∀ a, C (f a)) :
    C (p >>= f)
  tryCatch {α : Type} {p : Prog S ε α} {h : ε → Prog S ε α} (hp : C p) (hh : ∀ e, C (h e)) :
    C (tryCatch p h)

namespace Closed

variable {C : ∀ ⦃α : Type⦄, Prog S ε α → Prop} (hC : Closed C) {α β : Type}

include hC

theorem ofExcept (x : Except ε α) : C (Prog.ofExcept x : Prog S ε α) := by
  cases x with
  | ok a => exact hC.ret a
  | error e => exact hC.raise α e

theorem map {p : Prog S ε α} (f : α → β) (hp : C p) : C (f <$> p) := by
  rw [map_eq_pure_bind]
  exact hC.bind hp fun a => hC.ret (f a)

end Closed

theorem Prog.inl_bind {α β : Type} (p : Prog S ε α) (f : α → Prog S ε β) :
    (p >>= f).inl = (p.inl >>= fun a => (f a).inl : Prog (S.sum T) ε β) := by
  induction p with
  | ret | raise => rfl
  | call o k ih => exact congrArg (Prog.call (S := S.sum T) (.inl o)) (funext ih)

theorem Prog.inl_tryCatch {α : Type} (p : Prog S ε α) (h : ε → Prog S ε α) :
    (tryCatch p h).inl = (tryCatch p.inl fun e => (h e).inl : Prog (S.sum T) ε α) := by
  induction p with
  | ret | raise => rfl
  | call o k ih => exact congrArg (Prog.call (S := S.sum T) (.inl o)) (funext ih)

/-- A property of programs over more operations, as one of those over fewer. -/
theorem Closed.inl {C : ∀ ⦃α : Type⦄, Prog (S.sum T) ε α → Prop} (hC : Closed C) :
    Closed fun _ (p : Prog S ε _) => C (p.inl : Prog (S.sum T) ε _) where
  ret := hC.ret
  raise := hC.raise
  bind := by
    intro α β p f hp hf
    rw [Prog.inl_bind]
    exact hC.bind hp hf
  tryCatch := by
    intro α p h hp hh
    rw [Prog.inl_tryCatch]
    exact hC.tryCatch hp hh

/-- Keeping an invariant of the world, whether the program returns or raises. -/
theorem closed_wp {Φ : Spec S W} (hΦ : Φ.Mono) (I : W → Prop) :
    Closed fun _ (p : Prog S ε _) => ∀ w, I w → p.wp Φ (fun _ => I) w where
  ret := fun _ _ hw => hw
  raise := fun _ _ _ hw => hw
  bind := by
    intro α β p f hp hf w hw
    rw [Prog.wp_bind]
    refine Prog.wp_mono hΦ ?_ (hp w hw)
    rintro (e | a) w' hw'
    · exact hw'
    · exact hf a w' hw'
  tryCatch := by
    intro α p h hp hh w hw
    rw [Prog.wp_tryCatch]
    refine Prog.wp_mono hΦ ?_ (hp w hw)
    rintro (e | a) w' hw'
    · exact hh e w' hw'
    · exact hw'

end NfOrchestrator
