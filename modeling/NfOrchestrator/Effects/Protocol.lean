import Mathlib.Algebra.BigOperators.Group.Finset.Basic
import Mathlib.Algebra.BigOperators.Group.Finset.Piecewise
import Mathlib.Data.Fintype.BigOperators
import NfOrchestrator.Effects.Pool

/-!
# NfOrchestrator.Effects.Protocol

**Threads that keep to a protocol.** A `Protocol` is a transition system on the events
of one thread. A program keeps to it when every call it can make, with every reply it
can get, is a transition (`Protocol.spec`); that is a fact about the program alone.

**Key idea.** In a pool whose programs keep to the protocol, each thread has a protocol
state, its own trace leads there, and an invariant of the world, the trace and all the
protocol states needs to be checked against the protocol's transitions only
(`Pool.follows`). So a fact about an interleaving is proved without looking at any
program.
-/

namespace NfOrchestrator

/-- Which events a thread may make in a state of the protocol, and the state after each. -/
abbrev Protocol (S : Signature) (G : Type) := G → Event S → G → Prop

namespace Protocol

variable {S : Signature} {ε α G : Type} {δ : Protocol S G} {A : G → Event S → Prop} {g₀ : G}

/-- The events of the trace, one after the other, lead from one state to another. -/
inductive Leads (δ : Protocol S G) (g₀ : G) : List (Event S) → G → Prop
  | nil : Leads δ g₀ [] g₀
  | snoc {tr : List (Event S)} {e : Event S} {g g' : G} (h : Leads δ g₀ tr g) (he : δ g e g') :
      Leads δ g₀ (tr ++ [e]) g'

/-- What holds at first, and is kept by every transition, holds of every trace and the
state it leads to. -/
theorem Leads.invariant {I : List (Event S) → G → Prop} (h₀ : I [] g₀)
    (hstep : ∀ tr g e g', δ g e g' → I tr g → I (tr ++ [e]) g') {tr : List (Event S)} {g : G}
    (h : Leads δ g₀ tr g) : I tr g := by
  induction h with
  | nil => exact h₀
  | snoc _ he ih => exact hstep _ _ _ _ he ih

/-- Every call is a transition, whatever the reply, of those that may be assumed. -/
def spec (δ : Protocol S G) (A : G → Event S → Prop) : Spec S G :=
  fun o g K => ∀ r, A g ⟨o, r⟩ → ∃ g', δ g ⟨o, r⟩ g' ∧ K r g'

theorem spec_mono : (δ.spec A).Mono := by
  intro o g K K' hK h r hr
  obtain ⟨g', hg, hk⟩ := h r hr
  exact ⟨g', hg, hK r g' hk⟩

/-- A call that leaves the state as it is. -/
theorem spec_of_still {o : S.Op} {g : G} {K : S.Resp o → G → Prop} (ho : ∀ r, δ g ⟨o, r⟩ g)
    (h : ∀ r, K r g) : δ.spec A o g K := fun r _ => ⟨g, ho r, h r⟩

/-- A program whose calls all leave the state as it is. -/
theorem wp_within {P : S.Op → Prop} {g : G} (hP : ∀ o r, P o → δ g ⟨o, r⟩ g) {p : Prog S ε α}
    (hp : p.Within P) : p.wp (δ.spec A) (fun _ g' => g' = g) g := by
  induction p with
  | ret a => rfl
  | raise e => rfl
  | call o k ih => exact spec_of_still (fun r => hP o r hp.1) fun r => ih r (hp.2 r)

end Protocol

namespace Pool

variable {S : Signature} {ε ι W G : Type} {α : ι → Type} [DecidableEq ι]

/-- In every interleaving, each thread has a state of its protocol that its trace leads to,
and what the protocols' transitions keep holds. -/
theorem follows {E : Env S W} {δ : ι → Protocol S G} {A : G → Event S → Prop} {g₀ : G}
    {progs : (i : ι) → Prog S ε (α i)} {Q : (i : ι) → Except ε (α i) → G → Prop} {w : W}
    (hprogs : ∀ i, (progs i).wp ((δ i).spec A) (Q i) g₀)
    {I : W → List (ι × Event S) → (ι → G) → Prop} (h₀ : I w [] fun _ => g₀)
    (hstep : ∀ i o w r w' tr g c, E o w r w' → δ i (g i) ⟨o, r⟩ c → I w tr g →
      I w' (tr ++ [(i, ⟨o, r⟩)]) (Function.update g i c))
    {P : Pool S ε α W} (hr : Reachable E (start progs w) P)
    (hA : ∀ i tr e post g, P.localTrace i = tr ++ e :: post → (δ i).Leads g₀ tr g → A g e) :
    ∃ g : ι → G, (∀ i, (δ i).Leads g₀ (P.localTrace i) (g i)) ∧
      (∀ i, (P.thread i).wp ((δ i).spec A) (Q i) (g i)) ∧ I P.world P.trace g := by
  induction hr with
  | refl => exact ⟨fun _ => g₀, fun _ => .nil, hprogs, h₀⟩
  | @tail P P' _ hs ih =>
      obtain @⟨j, o, k, r, w', hj, hE⟩ := hs
      have hself := localTrace_snoc_self P (Function.update P.thread j (k r)) w' j ⟨o, r⟩
      have hother := fun i (h : j ≠ i) =>
        localTrace_snoc_of_ne P (Function.update P.thread j (k r)) w' h ⟨o, r⟩
      obtain ⟨g, hleads, hwp, hI⟩ := ih fun i tr e post s hsplit hs => by
        by_cases hji : j = i
        · subst hji
          exact hA j tr e (post ++ [⟨o, r⟩]) s (by rw [hself, hsplit]; simp) hs
        · exact hA i tr e post s (by rw [hother i hji, hsplit]) hs
      -- the call of thread `j` is a transition, because its program keeps to the protocol
      have hcall := hwp j
      rw [hj, Prog.wp_call] at hcall
      obtain ⟨c, hc, hnext⟩ := hcall r (hA j _ _ [] _ hself (hleads j))
      refine ⟨Function.update g j c, fun i => ?_, fun i => ?_, hstep j o _ r w' _ g c hE hc hI⟩
      · by_cases hji : j = i
        · subst hji
          rw [hself, Function.update_self]
          exact .snoc (hleads j) hc
        · rw [hother i hji, Function.update_of_ne (Ne.symm hji)]
          exact hleads i
      · by_cases hji : j = i
        · subst hji
          simpa using hnext
        · simpa [Function.update_of_ne (Ne.symm hji)] using hwp i

end Pool

end NfOrchestrator
