import Mathlib.Data.Fintype.EquivFin
import Mathlib.Logic.Function.Basic
import Mathlib.Logic.Relation
import NfOrchestrator.Effects.Prog

/-!
# NfOrchestrator.Effects.Pool

**Programs interleaved over one world.** A `Pool` is a family of programs, one for
each thread, and the world they share; a step lets one thread make its next call. The
pool keeps the trace of all calls and replies.

**Key idea.** What a thread does next depends on the replies it got and on nothing
else. So a thread is proved correct alone, by `wp` with its own trace as the world and
every reply possible (`recorded`), and `recorded_sound` carries the result to every
interleaving. Facts about the shared world are invariants of the steps
(`Reachable.invariant`), proved without looking at any program.
-/

namespace NfOrchestrator

/-- A call and the reply it got. -/
structure Event (S : Signature) where
  op : S.Op
  resp : S.Resp op

/-- An environment that also records every call with the reply it got. -/
def Env.logged {S : Signature} {W : Type} (E : Env S W) : Env S (W × List (Event S)) :=
  fun o w r w' => E o w.1 r w'.1 ∧ w'.2 = w.2 ++ [⟨o, r⟩]

/-! ### Traces -/

section Along

variable {S : Signature}

/-- Every event of a trace stands in the relation `A` to the events before it. -/
def Along (A : List (Event S) → Event S → Prop) (tr : List (Event S)) : Prop :=
  ∀ pre e post, tr = pre ++ e :: post → A pre e

theorem along_nil {A : List (Event S) → Event S → Prop} : Along A [] := by
  intro pre e post h
  simp at h

theorem along_snoc {A : List (Event S) → Event S → Prop} {tr : List (Event S)} {e : Event S} :
    Along A (tr ++ [e]) ↔ Along A tr ∧ A tr e := by
  constructor
  · intro h
    refine ⟨fun pre f post htr => h pre f (post ++ [e]) (by simp [htr]), h tr e [] rfl⟩
  · rintro ⟨htr, he⟩ pre f post h
    rcases List.eq_nil_or_concat post with rfl | ⟨post', g, rfl⟩
    · obtain ⟨rfl, hef⟩ := List.append_inj' h rfl
      obtain rfl : e = f := by simpa using hef
      exact he
    · rw [List.concat_eq_append, ← List.cons_append, ← List.append_assoc] at h
      obtain ⟨rfl, -⟩ := List.append_inj' h rfl
      exact htr pre f post' rfl

/-- What a thread may assume (`A`) and must guarantee (`ok`) of each of its events,
given those before it. -/
def recorded (A ok : List (Event S) → Event S → Prop) : Spec S (List (Event S)) :=
  fun o tr K => ∀ r, A tr ⟨o, r⟩ → ok tr ⟨o, r⟩ ∧ K r (tr ++ [⟨o, r⟩])

theorem recorded_mono (A ok : List (Event S) → Event S → Prop) : (recorded A ok).Mono :=
  fun _ _ _ _ h hK r hA => ⟨(hK r hA).1, h _ _ (hK r hA).2⟩

/-- An environment without a world: `R` says which replies an operation may get. -/
def replying (R : (o : S.Op) → S.Resp o → Prop) : Env S Unit := fun o _ r _ => R o r

/-- A program whose replies are computed runs as it is interpreted. -/
theorem runs_replying {ε α : Type} (reply : (o : S.Op) → S.Resp o) (p : Prog S ε α) :
    p.Runs (replying fun o r => r = reply o) () (p.run (fun o _ => (reply o, ())) ()).1 () :=
  Prog.runs_run (h := fun o _ => (reply o, ())) (fun _ _ => rfl) p ()

/-- A thread proved alone is proved against every environment whose replies it
assumed. -/
theorem wp_replying {ε α : Type} {R : (o : S.Op) → S.Resp o → Prop}
    {ok : List (Event S) → Event S → Prop} {P : Except ε α → Prop} {p : Prog S ε α}
    {tr : List (Event S)}
    (h : p.wp (recorded (fun _ e => R e.op e.resp) ok) (fun x _ => P x) tr) :
    p.wp (replying R).spec (fun x _ => P x) () := by
  induction p generalizing tr with
  | ret a => exact h
  | raise e => exact h
  | call o k ih => exact fun r _ hr => ih r (h r hr).2

end Along

/-! ### Pools -/

/-- Threads over a shared world, with the trace of what they did so far. -/
structure Pool (S : Signature) (ε : Type) {ι : Type} (α : ι → Type) (W : Type) where
  thread : (i : ι) → Prog S ε (α i)
  world : W
  trace : List (ι × Event S)

namespace Pool

variable {S : Signature} {ε ι W : Type} {α : ι → Type} [DecidableEq ι]

/-- Nothing has happened yet. -/
def start (progs : (i : ι) → Prog S ε (α i)) (w : W) : Pool S ε α W := ⟨progs, w, []⟩

/-- The events of one thread. -/
def localTrace (P : Pool S ε α W) (i : ι) : List (Event S) :=
  P.trace.filterMap fun e => if e.1 = i then some e.2 else none

theorem mem_localTrace {P : Pool S ε α W} {i : ι} {e : Event S} :
    e ∈ P.localTrace i ↔ (i, e) ∈ P.trace := by
  simp [localTrace]

theorem localTrace_snoc_self (P : Pool S ε α W) (th : (i : ι) → Prog S ε (α i)) (w : W) (i : ι)
    (e : Event S) :
    localTrace ⟨th, w, P.trace ++ [(i, e)]⟩ i = P.localTrace i ++ [e] := by
  simp [localTrace]

theorem localTrace_snoc_of_ne (P : Pool S ε α W) (th : (i : ι) → Prog S ε (α i)) (w : W)
    {i j : ι} (h : i ≠ j) (e : Event S) :
    localTrace ⟨th, w, P.trace ++ [(i, e)]⟩ j = P.localTrace j := by
  simp [localTrace, h]

/-- One thread makes its next call. -/
inductive Step (E : Env S W) : Pool S ε α W → Pool S ε α W → Prop
  | call {P : Pool S ε α W} {i : ι} {o : S.Op} {k : S.Resp o → Prog S ε (α i)} {r : S.Resp o}
      {w' : W} (hi : P.thread i = .call o k) (hr : E o P.world r w') :
      Step E P ⟨Function.update P.thread i (k r), w', P.trace ++ [(i, ⟨o, r⟩)]⟩

/-- The pools that the steps of any interleaving lead to. -/
abbrev Reachable (E : Env S W) (P₀ P : Pool S ε α W) : Prop := Relation.ReflTransGen (Step E) P₀ P

/-- A stretch of calls of one program. -/
inductive Calls {α : Type} (E : Env S W) :
    Prog S ε α → W → List (Event S) → Prog S ε α → W → Prop
  | nil {p : Prog S ε α} {w : W} : Calls E p w [] p w
  | cons {o : S.Op} {k : S.Resp o → Prog S ε α} {r : S.Resp o} {w w₁ w' : W}
      {tr : List (Event S)} {p' : Prog S ε α} (hr : E o w r w₁) (hk : Calls E (k r) w₁ tr p' w') :
      Calls E (.call o k) w (⟨o, r⟩ :: tr) p' w'

/-- A thread may make a stretch of calls without the others making any. -/
theorem Calls.reachable {E : Env S W} {P : Pool S ε α W} {i : ι} {tr : List (Event S)}
    {p p' : Prog S ε (α i)} {w' : W} (h : Calls E p P.world tr p' w') (hi : P.thread i = p) :
    ∃ P', Reachable E P P' ∧ P'.world = w' ∧ P'.thread i = p' ∧
      P'.trace = P.trace ++ tr.map fun e => (i, e) := by
  generalize hw : P.world = w at h
  induction h generalizing P with
  | nil => exact ⟨P, .refl, hw, hi, by simp⟩
  | @cons o k r w w₁ w' tr p' hr _ ih =>
      subst hw
      obtain ⟨P', hreach, hworld, hthread, htrace⟩ :=
        @ih ⟨Function.update P.thread i (k r), w₁, P.trace ++ [(i, ⟨o, r⟩)]⟩ (by simp) rfl
      exact ⟨P', .head (.call hi hr) hreach, hworld, hthread, by simp [htrace]⟩

/-- Every thread has ended. -/
def AllEnded (P : Pool S ε α W) : Prop := ∀ i, (P.thread i).result.isSome

/-- One thread may be run to its end, where every call is answered. -/
theorem exists_ended {E : Env S W} (hE : E.Total) (P : Pool S ε α W) (i : ι) :
    ∃ P', Reachable E P P' ∧ (P'.thread i).result.isSome ∧ ∀ j ≠ i, P'.thread j = P.thread j := by
  generalize hi : P.thread i = p
  induction p generalizing P with
  | ret a => exact ⟨P, .refl, by rw [hi]; rfl, fun _ _ => rfl⟩
  | raise e => exact ⟨P, .refl, by rw [hi]; rfl, fun _ _ => rfl⟩
  | call o k ih =>
      obtain ⟨r, w', hr⟩ := hE o P.world
      obtain ⟨P', hreach, hended, hothers⟩ :=
        ih r ⟨Function.update P.thread i (k r), w', P.trace ++ [(i, ⟨o, r⟩)]⟩ (by simp)
      refine ⟨P', .head (.call hi hr) hreach, hended, fun j hj => ?_⟩
      exact (hothers j hj).trans (Function.update_of_ne hj _ _)

/-- Every interleaving of finitely many threads may be run to its end. -/
theorem exists_allEnded [Finite ι] {E : Env S W} (hE : E.Total) (P : Pool S ε α W) :
    ∃ P', Reachable E P P' ∧ P'.AllEnded := by
  have := Fintype.ofFinite ι
  have hsome : ∀ s : Finset ι, ∃ P', Reachable E P P' ∧ ∀ i ∈ s, (P'.thread i).result.isSome := by
    intro s
    induction s using Finset.induction_on with
    | empty => exact ⟨P, .refl, by simp⟩
    | insert i s _ ih =>
        obtain ⟨P', hreach, hs⟩ := ih
        obtain ⟨P'', hreach', hi, hothers⟩ := exists_ended hE P' i
        refine ⟨P'', hreach.trans hreach', fun j hj => ?_⟩
        by_cases hji : j = i
        · exact hji ▸ hi
        · rw [hothers j hji]
          exact hs j ((Finset.mem_insert.mp hj).resolve_left hji)
  obtain ⟨P', hreach, hall⟩ := hsome Finset.univ
  exact ⟨P', hreach, fun i => hall i (Finset.mem_univ i)⟩

/-- Let the threads make their calls in the order of a schedule, where `h` computes the
replies. A thread that has ended, or whose call gets no reply yet, misses its turn. -/
def exec (h : (o : S.Op) → W → Option (S.Resp o × W)) : List ι → Pool S ε α W → Pool S ε α W
  | [], P => P
  | i :: rest, P =>
      match P.thread i with
      | .call o k =>
          match h o P.world with
          | some (r, w') =>
              exec h rest ⟨Function.update P.thread i (k r), w', P.trace ++ [(i, ⟨o, r⟩)]⟩
          | none => exec h rest P
      | _ => exec h rest P

theorem exec_reachable {E : Env S W} {h : (o : S.Op) → W → Option (S.Resp o × W)}
    (hE : ∀ o w x, h o w = some x → E o w x.1 x.2) (schedule : List ι) (P : Pool S ε α W) :
    Reachable E P (exec h schedule P) := by
  induction schedule generalizing P with
  | nil => exact .refl
  | cons i rest ih =>
      rw [exec]
      split
      · rename_i o k hi
        split
        · rename_i r w' hr
          exact .head (.call hi (hE o P.world (r, w') hr)) (ih _)
        · exact ih P
      · exact ih P

/-- A property of the world and the trace that every step keeps holds of every
reachable pool, whatever the programs. -/
theorem Reachable.invariant {E : Env S W} {P₀ P : Pool S ε α W} (hr : Reachable E P₀ P)
    {I : W → List (ι × Event S) → Prop}
    (hstep : ∀ i o w r w' tr, E o w r w' → I w tr → I w' (tr ++ [(i, ⟨o, r⟩)]))
    (h₀ : I P₀.world P₀.trace) : I P.world P.trace := by
  induction hr with
  | refl => exact h₀
  | tail _ hs ih =>
      obtain ⟨hi, hE⟩ := hs
      exact hstep _ _ _ _ _ _ hE ih

omit [DecidableEq ι] in
/-- What filtering a trace keeps of it, in its own order. -/
theorem map_filterMap_sublist {A B : Type} {f : A → Option B} {g : B → A}
    (h : ∀ a b, f a = some b → g b = a) (l : List A) : ((l.filterMap f).map g).Sublist l := by
  induction l with
  | nil => exact .slnil
  | cons a rest ih =>
      cases hf : f a with
      | none =>
          rw [List.filterMap_cons_none hf]
          exact ih.cons a
      | some b =>
          rw [List.filterMap_cons_some hf, List.map_cons, h a b hf]
          exact ih.cons_cons a

/-- A run has been through every beginning of its trace. -/
theorem Reachable.before {E : Env S W} {P₀ P : Pool S ε α W} (hr : Reachable E P₀ P)
    (h₀ : P₀.trace = []) {pre : List (ι × Event S)} (hpre : pre <+: P.trace) :
    ∃ P', Reachable E P₀ P' ∧ P'.trace = pre := by
  induction hr generalizing pre with
  | refl =>
      rw [h₀] at hpre
      exact ⟨P₀, .refl, by rw [h₀, List.prefix_nil.mp hpre]⟩
  | @tail P P' hr hs ih =>
      obtain @⟨j, o, k, r, w', hj, hE⟩ := hs
      rcases List.prefix_concat_iff.mp hpre with rfl | hpre
      · exact ⟨_, hr.tail (.call hj hE), rfl⟩
      · exact ih hpre

/-- A thread proved alone keeps its guarantee, and ends in its postcondition, in every
interleaving in which its assumption holds. -/
theorem recorded_sound {E : Env S W} {progs : (i : ι) → Prog S ε (α i)} {w : W}
    {A ok : ι → List (Event S) → Event S → Prop}
    {Q : (i : ι) → Except ε (α i) → List (Event S) → Prop}
    (hprogs : ∀ i, (progs i).wp (recorded (A i) (ok i)) (Q i) [])
    {P : Pool S ε α W} (hr : Reachable E (start progs w) P)
    (hA : ∀ i, Along (A i) (P.localTrace i)) (i : ι) :
    Along (ok i) (P.localTrace i) ∧
      (P.thread i).wp (recorded (A i) (ok i)) (Q i) (P.localTrace i) := by
  induction hr generalizing i with
  | refl => exact ⟨along_nil, hprogs i⟩
  | @tail P P' _ hs ih =>
      obtain @⟨j, o, k, r, w', hj, hE⟩ := hs
      have hself := localTrace_snoc_self P (Function.update P.thread j (k r)) w' j ⟨o, r⟩
      have hold : ∀ n, Along (A n) (P.localTrace n) := by
        intro n
        by_cases hjn : j = n
        · subst hjn
          exact (along_snoc.mp (hself ▸ hA j)).1
        · exact localTrace_snoc_of_ne P _ w' hjn _ ▸ hA n
      obtain ⟨hok, hwp⟩ := ih hold i
      by_cases hji : j = i
      · subst hji
        have hAe : A j (P.localTrace j) ⟨o, r⟩ := (along_snoc.mp (hself ▸ hA j)).2
        rw [hj, Prog.wp_call] at hwp
        obtain ⟨he, hnext⟩ := hwp r hAe
        rw [hself, along_snoc]
        exact ⟨⟨hok, he⟩, by simpa using hnext⟩
      · rw [localTrace_snoc_of_ne P _ w' hji]
        exact ⟨hok, by simpa [Function.update_of_ne (Ne.symm hji)] using hwp⟩

end Pool

end NfOrchestrator
