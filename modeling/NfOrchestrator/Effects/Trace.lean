import Mathlib.Data.List.Infix
import NfOrchestrator.Effects.Pool

/-!
# NfOrchestrator.Effects.Trace

**What one program calls, and what it makes of the replies.** `Prog.Traces` relates a
program to its calls with the replies they got, and to its result; there is no environment
in it, so what is proved of it holds in all of them (`runs_logged`).

A program's next call depends on the replies so far and on nothing else, so of the
beginnings of a trace at most one is a whole run of the program (`Traces.eq_of_prefix`).
-/

namespace NfOrchestrator

/-- The event of a program that may call further operations. -/
abbrev Event.inl {S T : Signature} (e : Event S) : Event (S.sum T) := ⟨Sum.inl e.op, e.resp⟩

namespace Prog

variable {S T : Signature} {ε α β W : Type}

/-- The calls and replies of the trace take the program to this result. -/
def Traces : Prog S ε α → List (Event S) → Except ε α → Prop
  | .ret a, tr, x => tr = [] ∧ x = .ok a
  | .raise e, tr, x => tr = [] ∧ x = .error e
  | .call o k, tr, x => ∃ r tr', tr = ⟨o, r⟩ :: tr' ∧ (k r).Traces tr' x

variable {p : Prog S ε α} {tr : List (Event S)}

theorem traces_bind {f : α → Prog S ε β} {x : Except ε β} :
    (p >>= f).Traces tr x ↔
      (∃ a tr₁ tr₂, tr = tr₁ ++ tr₂ ∧ p.Traces tr₁ (.ok a) ∧ (f a).Traces tr₂ x) ∨
      (∃ e, p.Traces tr (.error e) ∧ x = .error e) := by
  induction p generalizing tr with
  | ret a => simp [Traces]
  | raise e => simp [Traces, and_comm]
  | call o k ih =>
      simp only [call_bind, Traces, ih]
      constructor
      · intro hx
        rcases hx with ⟨r, tr', rfl, ⟨a, tr₁, tr₂, rfl, h₁, h₂⟩ | ⟨e, h, rfl⟩⟩
        · exact .inl ⟨a, ⟨o, r⟩ :: tr₁, tr₂, rfl, ⟨r, tr₁, rfl, h₁⟩, h₂⟩
        · exact .inr ⟨e, ⟨r, tr', rfl, h⟩, rfl⟩
      · intro hx
        rcases hx with ⟨a, _, tr₂, rfl, ⟨r, tr₁, rfl, h₁⟩, h₂⟩ | ⟨e, ⟨r, tr', rfl, h⟩, rfl⟩
        · exact ⟨r, tr₁ ++ tr₂, rfl, .inl ⟨a, tr₁, tr₂, rfl, h₁, h₂⟩⟩
        · exact ⟨r, tr', rfl, .inr ⟨e, h, rfl⟩⟩

/-- A run of the whole is made of one that returns and one of what follows. -/
theorem Traces.bind {f : α → Prog S ε β} {x : Except ε β} {a : α} {tr₁ tr₂ : List (Event S)}
    (h : p.Traces tr₁ (.ok a)) (hf : (f a).Traces tr₂ x) : (p >>= f).Traces (tr₁ ++ tr₂) x :=
  traces_bind.mpr (.inl ⟨a, tr₁, tr₂, rfl, h, hf⟩)

/-- What follows calls nothing. -/
theorem Traces.bind_nil {f : α → Prog S ε β} {x : Except ε β} {a : α} (h : p.Traces tr (.ok a))
    (hf : (f a).Traces [] x) : (p >>= f).Traces tr x :=
  traces_bind.mpr (.inl ⟨a, tr, [], (List.append_nil tr).symm, h, hf⟩)

theorem Traces.bind_error {f : α → Prog S ε β} {e : ε} (h : p.Traces tr (.error e)) :
    (p >>= f).Traces tr (.error e) :=
  traces_bind.mpr (.inr ⟨e, h, rfl⟩)

theorem traces_tryCatch {h : ε → Prog S ε α} {x : Except ε α} :
    (tryCatch p h).Traces tr x ↔
      (∃ a, p.Traces tr (.ok a) ∧ x = .ok a) ∨
      (∃ e tr₁ tr₂, tr = tr₁ ++ tr₂ ∧ p.Traces tr₁ (.error e) ∧ (h e).Traces tr₂ x) := by
  induction p generalizing tr with
  | ret a => simp [Traces, and_comm]
  | raise e => simp [Traces]
  | call o k ih =>
      simp only [tryCatch_call, Traces, ih]
      constructor
      · intro hx
        rcases hx with ⟨r, tr', rfl, ⟨a, h, rfl⟩ | ⟨e, tr₁, tr₂, rfl, h₁, h₂⟩⟩
        · exact .inl ⟨a, ⟨r, tr', rfl, h⟩, rfl⟩
        · exact .inr ⟨e, ⟨o, r⟩ :: tr₁, tr₂, rfl, ⟨r, tr₁, rfl, h₁⟩, h₂⟩
      · intro hx
        rcases hx with ⟨a, ⟨r, tr', rfl, h⟩, rfl⟩ | ⟨e, _, tr₂, rfl, ⟨r, tr₁, rfl, h₁⟩, h₂⟩
        · exact ⟨r, tr', rfl, .inl ⟨a, h, rfl⟩⟩
        · exact ⟨r, tr₁ ++ tr₂, rfl, .inr ⟨e, tr₁, tr₂, rfl, h₁, h₂⟩⟩

theorem traces_map {f : α → β} {x : Except ε β} :
    (f <$> p).Traces tr x ↔ ∃ y, p.Traces tr y ∧ x = y.map f := by
  rw [map_eq_pure_bind, traces_bind]
  constructor
  · intro h
    rcases h with ⟨a, tr₁, _, rfl, hp, rfl, rfl⟩ | ⟨e, hp, rfl⟩
    · exact ⟨.ok a, by simpa using hp, rfl⟩
    · exact ⟨.error e, hp, rfl⟩
  · intro h
    rcases h with ⟨e | a, hp, rfl⟩
    · exact .inr ⟨e, hp, rfl⟩
    · exact .inl ⟨a, tr, [], (List.append_nil tr).symm, hp, rfl, rfl⟩

theorem traces_ofExcept {x y : Except ε α} :
    (ofExcept y : Prog S ε α).Traces tr x ↔ tr = [] ∧ x = y := by
  cases y <;> rfl

theorem traces_inl {tr : List (Event (S.sum T))} {x : Except ε α} :
    p.inl.Traces tr x ↔ ∃ tr', tr = tr'.map Event.inl ∧ p.Traces tr' x := by
  induction p generalizing tr with
  | ret a =>
      constructor
      · intro hx
        obtain ⟨rfl, rfl⟩ := hx
        exact ⟨[], rfl, rfl, rfl⟩
      · intro hx
        obtain ⟨_, rfl, rfl, rfl⟩ := hx
        exact ⟨rfl, rfl⟩
  | raise e =>
      constructor
      · intro hx
        obtain ⟨rfl, rfl⟩ := hx
        exact ⟨[], rfl, rfl, rfl⟩
      · intro hx
        obtain ⟨_, rfl, rfl, rfl⟩ := hx
        exact ⟨rfl, rfl⟩
  | call o k ih =>
      constructor
      · intro hx
        obtain ⟨r, _, rfl, h⟩ := hx
        obtain ⟨tr', rfl, hk⟩ := (ih r).mp h
        exact ⟨⟨o, r⟩ :: tr', rfl, r, tr', rfl, hk⟩
      · intro hx
        obtain ⟨_, rfl, r, tr'', rfl, h⟩ := hx
        exact ⟨r, tr''.map Event.inl, rfl, (ih r).mpr ⟨tr'', rfl, h⟩⟩

/-- Every call of a run is one the program can make. -/
theorem Within.traces {P : S.Op → Prop} (hp : p.Within P) {x : Except ε α}
    (h : p.Traces tr x) : ∀ e ∈ tr, P e.op := by
  induction p generalizing tr with
  | ret a => simp [h.1]
  | raise e => simp [h.1]
  | call o k ih =>
      obtain ⟨r, tr', rfl, hk⟩ := h
      exact List.forall_mem_cons.mpr ⟨hp.1, ih r (hp.2 r) hk⟩

/-- What a run raises is an exception the program can raise. -/
theorem Raising.traces {R : ε → Prop} (hp : p.Raising R) {e : ε} (h : p.Traces tr (.error e)) :
    R e := by
  induction p generalizing tr with
  | ret a => cases h.2
  | raise e' =>
      obtain rfl := Except.error.inj h.2
      exact hp
  | call o k ih =>
      obtain ⟨r, tr', rfl, hk⟩ := h
      exact ih r (hp r) hk

/-- Two runs whose calls and replies agree as far as they go are the same. -/
theorem Traces.eq_of_prefix {tr₁ tr₂ : List (Event S)} {x y : Except ε α} (h₁ : p.Traces tr₁ x)
    (h₂ : p.Traces tr₂ y) (hp₁ : tr₁ <+: tr) (hp₂ : tr₂ <+: tr) : tr₁ = tr₂ ∧ x = y := by
  induction p generalizing tr tr₁ tr₂ with
  | ret a =>
      obtain ⟨rfl, rfl⟩ := h₁
      obtain ⟨rfl, rfl⟩ := h₂
      exact ⟨rfl, rfl⟩
  | raise e =>
      obtain ⟨rfl, rfl⟩ := h₁
      obtain ⟨rfl, rfl⟩ := h₂
      exact ⟨rfl, rfl⟩
  | call o k ih =>
      obtain ⟨r₁, t₁, rfl, h₁⟩ := h₁
      obtain ⟨r₂, t₂, rfl, h₂⟩ := h₂
      obtain ⟨rest, rfl⟩ := hp₁
      obtain ⟨hhead, htail⟩ := List.cons_prefix_cons.mp hp₂
      obtain rfl : r₂ = r₁ := by simpa using hhead
      obtain ⟨rfl, rfl⟩ := ih r₂ h₁ h₂ (List.prefix_append t₁ rest) htail
      exact ⟨rfl, rfl⟩

/-! ### Exceptions that a reply announces -/

/-- The program ends in an exception that `R` holds of when `P` holds, or when it got a reply
that `B` holds of, and not otherwise. -/
def FailsBy (P : Prop) (R : ε → Prop) (B : Event S → Prop) (p : Prog S ε α) : Prop :=
  ∀ ⦃tr x⦄, p.Traces tr x → ((∃ e, x = .error e ∧ R e) ↔ P ∨ ∃ ev ∈ tr, B ev)

section FailsBy

variable {P P' : Prop} {R : ε → Prop} {B : Event S → Prop}

theorem FailsBy.congr (hp : p.FailsBy P R B) (h : P ↔ P') : p.FailsBy P' R B := by
  intro tr x htr
  rw [hp htr, h]

theorem failsBy_ret {a : α} (h : ¬P) : (ret a : Prog S ε α).FailsBy P R B := by
  intro tr x hx
  obtain ⟨rfl, rfl⟩ := hx
  simp [h]

theorem failsBy_raise {e : ε} (h : ¬P) (he : ¬R e) : (raise e : Prog S ε α).FailsBy P R B := by
  intro tr x hx
  obtain ⟨rfl, rfl⟩ := hx
  simp [h, he]

/-- A call that no reply to can announce anything. -/
theorem failsBy_call {o : S.Op} {k : S.Resp o → Prog S ε α} (h : ∀ r, ¬B ⟨o, r⟩)
    (hk : ∀ r, (k r).FailsBy P R B) : (call o k).FailsBy P R B := by
  intro tr x hx
  obtain ⟨r, tr', rfl, htr⟩ := hx
  rw [hk r htr]
  simp [h r]

theorem failsBy_ofExcept_bind {y : Except ε α} {f : α → Prog S ε β}
    (hf : ∀ a, (f a).FailsBy False R B) :
    (ofExcept y >>= f).FailsBy (∃ e, y = .error e ∧ R e) R B := by
  intro tr x h
  cases y with
  | ok a =>
      rw [hf a h]
      simp
  | error e =>
      obtain ⟨rfl, rfl⟩ := h
      simp

/-- In a sequence the first part fails or, if it returned, got no such reply. -/
theorem FailsBy.bind {f : α → Prog S ε β} (hp : p.FailsBy False R B)
    (hf : ∀ a, (f a).FailsBy False R B) : (p >>= f).FailsBy False R B := by
  intro tr x h
  rcases traces_bind.mp h with ⟨a, tr₁, tr₂, rfl, h₁, h₂⟩ | ⟨e, h₁, rfl⟩
  · have hnone : ¬∃ ev ∈ tr₁, B ev := by
      have := hp h₁
      simpa using this
    rw [hf a h₂]
    simp only [List.mem_append, or_and_right, exists_or, hnone, false_or]
  · rw [← hp h₁]
    simp

/-- A handler that raises the exception again leaves it at that. -/
theorem FailsBy.rethrow {h : ε → Prog S ε α} (hp : p.FailsBy P R B)
    (hh : ∀ e tr x, (h e).Traces tr x → x = .error e ∧ ∀ ev ∈ tr, ¬B ev) :
    (tryCatch p h).FailsBy P R B := by
  intro tr x htr
  rcases traces_tryCatch.mp htr with ⟨a, hok, rfl⟩ | ⟨e, tr₁, tr₂, rfl, herror, hthen⟩
  · exact hp hok
  · obtain ⟨rfl, hquiet⟩ := hh e tr₂ x hthen
    have hnone : ¬∃ ev ∈ tr₂, B ev := by simpa using hquiet
    rw [hp herror]
    simp only [List.mem_append, or_and_right, exists_or, hnone, or_false]

end FailsBy

/-- A trace is a run where its replies are given. -/
theorem Traces.runs {A : (o : S.Op) → S.Resp o → Prop} {x : Except ε α} (h : p.Traces tr x)
    (htr : ∀ e ∈ tr, A e.op e.resp) : p.Runs (replying A) () x () := by
  induction p generalizing tr with
  | ret a => exact ⟨h.2, rfl⟩
  | raise e => exact ⟨h.2, rfl⟩
  | call o k ih =>
      obtain ⟨r, tr', rfl, hk⟩ := h
      obtain ⟨hr, hrest⟩ := List.forall_mem_cons.mp htr
      exact ⟨r, (), hr, ih r hk hrest⟩

/-- What an environment records of a run is the program's own trace. -/
theorem runs_logged {E : Env S W} {w w' : W} {tr₀ tr : List (Event S)} {x : Except ε α}
    (h : p.Runs E.logged (w, tr₀) x (w', tr)) : ∃ tr', tr = tr₀ ++ tr' ∧ p.Traces tr' x := by
  induction p generalizing w tr₀ with
  | ret a =>
      obtain ⟨rfl, hw⟩ := h
      obtain ⟨rfl, rfl⟩ := Prod.mk.inj hw
      exact ⟨[], by simp, rfl, rfl⟩
  | raise e =>
      obtain ⟨rfl, hw⟩ := h
      obtain ⟨rfl, rfl⟩ := Prod.mk.inj hw
      exact ⟨[], by simp, rfl, rfl⟩
  | call o k ih =>
      obtain ⟨r, ⟨w₁, tr₁⟩, ⟨-, htr⟩, hrun⟩ := h
      obtain rfl : tr₁ = tr₀ ++ [⟨o, r⟩] := htr
      obtain ⟨tr', rfl, hk⟩ := ih r hrun
      exact ⟨⟨o, r⟩ :: tr', by simp, r, tr', rfl, hk⟩

end Prog

end NfOrchestrator
