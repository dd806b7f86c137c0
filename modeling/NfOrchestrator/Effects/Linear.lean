import Mathlib.Algebra.BigOperators.Group.List.Basic
import NfOrchestrator.Effects.Trace

/-!
# NfOrchestrator.Effects.Linear

**Threads that make few moves.** A *move* of a thread is a call that changes the world, or
that is where what the thread answers is so; its other calls change nothing (`atomic`).
Whatever the interleaving, the world a pool has come to is the one that its moves lead to,
one after another, and each thread that has ended made the moves its result stands for
(`linearize`).

**Key idea.** Which moves a thread makes is a fact about the thread alone, if what the others
may do to the world between its calls is a relation `R` that each of its own calls keeps to
as well. The state of a thread is then the moves it has made.
-/

namespace NfOrchestrator

variable {S : Signature} {ε ι W α : Type}

/-! ### Turns -/

/-- Taking turns in this order, where a turn of `i` stands in the relation `T i`, leads from
one world to another. -/
def Serial (T : ι → W → W → Prop) : W → List ι → W → Prop
  | w, [], w' => w' = w
  | w, i :: rest, w' => ∃ w₁, T i w w₁ ∧ Serial T w₁ rest w'

section Serial

variable {T : ι → W → W → Prop} {w w' : W} {order before after : List ι}

theorem serial_append :
    Serial T w (before ++ after) w' ↔ ∃ w₁, Serial T w before w₁ ∧ Serial T w₁ after w' := by
  induction before generalizing w with
  | nil => simp [Serial]
  | cons i rest ih =>
      simp only [List.cons_append, Serial, ih]
      constructor
      · rintro ⟨w₁, hi, w₂, hrest, hafter⟩
        exact ⟨w₂, ⟨w₁, hi, hrest⟩, hafter⟩
      · rintro ⟨w₂, ⟨w₁, hi, hrest⟩, hafter⟩
        exact ⟨w₁, hi, w₂, hrest, hafter⟩

theorem serial_singleton {i : ι} : Serial T w [i] w' ↔ T i w w' := by
  simp [Serial]

/-- What holds at first, and is kept by every turn, holds in the end. -/
theorem Serial.invariant (h : Serial T w order w') {I : W → Prop}
    (hstep : ∀ i ∈ order, ∀ a b, T i a b → I a → I b) (hw : I w) : I w' := by
  induction order generalizing w with
  | nil => exact h ▸ hw
  | cons i rest ih =>
      obtain ⟨w₁, hi, hrest⟩ := h
      exact ih hrest (fun j hj => hstep j (List.mem_cons_of_mem i hj))
        (hstep i List.mem_cons_self w w₁ hi hw)

/-- The world at the turn of one of them. -/
theorem Serial.turn (h : Serial T w order w') {i : ι} (hi : i ∈ order) :
    ∃ before after a b, order = before ++ i :: after ∧ Serial T w before a ∧ T i a b ∧
      Serial T b after w' := by
  obtain ⟨before, after, rfl⟩ := List.append_of_mem hi
  obtain ⟨a, hbefore, b, hturn, hafter⟩ := serial_append.mp h
  exact ⟨before, after, a, b, rfl, hbefore, hturn, hafter⟩

end Serial

/-! ### Atomic programs -/

/-- The world after the last of these moves. -/
def worldAfter (w₀ : W) (moves : List (W × W)) : W := (moves.getLast?.map Prod.snd).getD w₀

@[simp] theorem worldAfter_nil (w₀ : W) : worldAfter w₀ [] = w₀ := rfl

@[simp] theorem worldAfter_concat (w₀ : W) (moves : List (W × W)) (m : W × W) :
    worldAfter w₀ (moves ++ [m]) = m.2 := by
  rw [worldAfter, List.getLast?_concat]
  rfl

/-- The calls of a thread, each of which changes the world as `G` says, while the others change
it as `R` says. Its state is the moves it has made. -/
def atomic (E : Env S W) (G R : W → W → Prop) (w₀ : W) : Spec S (List (W × W)) :=
  fun o moves K => ∀ w r w', R (worldAfter w₀ moves) w → E o w r w' →
    G w w' ∧ (w' = w ∧ K r moves ∨ K r (moves ++ [(w, w')]))

section atomic

variable {E : Env S W} {G R : W → W → Prop} {w₀ : W}

theorem atomic_mono : (atomic E G R w₀).Mono := by
  intro o moves K K' hK h w r w' hw hE
  obtain ⟨hG, hk⟩ := h w r w' hw hE
  exact ⟨hG, hk.imp (And.imp_right (hK r moves)) (hK r _)⟩

/-- A call that never changes the world. -/
theorem atomic_still (hrefl : ∀ w, G w w) {o : S.Op} (ho : ∀ w r w', E o w r w' → w' = w)
    {moves : List (W × W)} {K : S.Resp o → List (W × W) → Prop}
    (h : ∀ r w w', E o w r w' → K r moves) : atomic E G R w₀ o moves K := by
  intro w r w' _ hE
  obtain rfl := ho w r w' hE
  exact ⟨hrefl w', .inl ⟨rfl, h r _ _ hE⟩⟩

/-- A program whose calls never change the world, and what holds of every result it can have
with the replies it may get. -/
theorem wp_atomic_within (hrefl : ∀ w, G w w) {P : S.Op → Prop}
    (hP : ∀ o w r w', P o → E o w r w' → w' = w) {A : (o : S.Op) → S.Resp o → Prop}
    (hA : ∀ o w r w', E o w r w' → A o r) {X : Except ε α → Prop} {p : Prog S ε α}
    (hp : p.Within P) (hX : ∀ tr x, (∀ e ∈ tr, A e.op e.resp) → p.Traces tr x → X x)
    (moves : List (W × W)) :
    p.wp (atomic E G R w₀) (fun x c => c = moves ∧ X x) moves := by
  induction p with
  | ret a => exact ⟨rfl, hX [] (.ok a) (by simp) ⟨rfl, rfl⟩⟩
  | raise e => exact ⟨rfl, hX [] (.error e) (by simp) ⟨rfl, rfl⟩⟩
  | call o k ih =>
      have hrest : ∀ r, A o r →
          (k r).wp (atomic E G R w₀) (fun x c => c = moves ∧ X x) moves := by
        intro r hr
        refine ih r (hp.2 r) fun tr x htr hk => hX (⟨o, r⟩ :: tr) x ?_ ⟨r, tr, rfl, hk⟩
        exact List.forall_mem_cons.mpr ⟨hr, htr⟩
      refine atomic_still hrefl (fun w r w' => hP o w r w' hp.1) fun r w w' hE => ?_
      exact hrest r (hA o w r w' hE)

/-- The calls of a program over more operations. -/
theorem wp_atomic_inl {T : Signature} {E : Env (S.sum T) W} {p : Prog S ε α}
    {Q : Except ε α → List (W × W) → Prop} {moves : List (W × W)} :
    p.inl.wp (atomic E G R w₀) Q moves ↔ p.wp (atomic E.inl G R w₀) Q moves := by
  induction p generalizing moves with
  | ret a => rfl
  | raise e => rfl
  | call o k ih =>
      have hk : (fun r c => (k r).inl.wp (atomic E G R w₀) Q c) =
          fun r c => (k r).wp (atomic E.inl G R w₀) Q c :=
        funext fun r => funext fun c => propext (ih r)
      exact iff_of_eq (congrArg (atomic E.inl G R w₀ o moves) hk)

end atomic

/-! ### Histories -/

section history

variable [DecidableEq ι] {w w' : W} {i : ι} {m : W × W} {history before after : List (ι × W × W)}

/-- The moves of one thread. -/
def movesOf (i : ι) (history : List (ι × W × W)) : List (W × W) :=
  (history.filter fun e => e.1 = i).map Prod.snd

theorem movesOf_append :
    movesOf i (before ++ after) = movesOf i before ++ movesOf i after := by
  simp [movesOf]

@[simp] theorem movesOf_self : movesOf i [(i, m)] = [m] := by
  simp [movesOf]

theorem movesOf_of_ne {j : ι} (h : i ≠ j) : movesOf i [(j, m)] = [] := by
  simp [movesOf, Ne.symm h]

theorem mem_movesOf : m ∈ movesOf i history ↔ (i, m) ∈ history := by
  simp [movesOf]

theorem movesOf_eq_nil (h : ∀ e ∈ history, e.1 ≠ i) : movesOf i history = [] := by
  rw [movesOf, List.filter_eq_nil_iff.mpr (by simpa using h)]
  rfl

/-- What sums to nothing over the moves of each thread sums to nothing. -/
theorem sum_eq_zero {G : Type} [AddCommMonoid G] {f : W × W → G} (history : List (ι × W × W))
    (h : ∀ i, ((movesOf i history).map f).sum = 0) : (history.map fun e => f e.2).sum = 0 := by
  induction hn : history.length using Nat.strong_induction_on generalizing history with
  | _ n ih =>
      cases history with
      | nil => rfl
      | cons e rest =>
          -- the moves of one thread, and those of the others
          have hothers : (((e :: rest).filter fun e' => ¬decide (e'.1 = e.1) = true).map
              fun e => f e.2).sum = 0 := by
            refine ih _ ?_ _ (fun i => ?_) rfl
            · rw [← hn, List.filter_cons_of_neg (by simp)]
              exact Nat.lt_succ_of_le (List.length_filter_le ..)
            · by_cases hi : i = e.1
              · subst hi
                rw [movesOf_eq_nil fun e' he' => by simpa using (List.mem_filter.mp he').2]
                rfl
              · rw [movesOf, List.filter_filter, ← h i, movesOf]
                congr 3
                refine List.filter_congr fun e' _ => ?_
                by_cases he' : e'.1 = i
                · simp [he', hi]
                · simp [he']
          have hperm := List.filter_append_perm (fun e' => decide (e'.1 = e.1)) (e :: rest)
          have hown : (((e :: rest).filter fun e' => decide (e'.1 = e.1)).map
              fun e => f e.2).sum = 0 := by
            simpa only [movesOf, List.map_map, Function.comp_def] using h e.1
          rw [← (hperm.map fun e => f e.2).sum_eq, List.map_append, List.sum_append, hown, zero_add]
          simpa only [decide_not, Bool.decide_eq_true] using hothers

/-- A quantity that the moves of each thread change by nothing in all is what it was. -/
theorem Serial.eq_of_balanced {G : Type} [AddCommGroup G] {T : ι × W × W → W → W → Prop}
    {f : W → G} (h : Serial T w history w') (hT : ∀ e a b, T e a b → e.2 = (a, b))
    (hbalanced : ∀ i, ((movesOf i history).map fun m => f m.2 - f m.1).sum = 0) : f w' = f w := by
  have hsum : f w' = f w + (history.map fun e => f e.2.2 - f e.2.1).sum := by
    clear hbalanced
    induction history generalizing w with
    | nil => simp [show w' = w from h]
    | cons e rest ih =>
        obtain ⟨w₁, hturn, hrest⟩ := h
        have he := hT e w w₁ hturn
        rw [List.map_cons, List.sum_cons, he, ih hrest, ← add_assoc, add_sub_cancel]
  rw [hsum, sum_eq_zero (f := fun m => f m.2 - f m.1) history hbalanced, add_zero]

end history

/-! ### Every interleaving is a history of moves -/

namespace Pool

variable {α : ι → Type}

/-- All calls of `i` come before all calls of `j`. -/
def Precedes (tr : List (ι × Event S)) (i j : ι) : Prop :=
  ∃ pre post, tr = pre ++ post ∧ (∀ e ∈ pre, e.1 ≠ j) ∧ ∀ e ∈ post, e.1 ≠ i

variable [DecidableEq ι]

/-- The moves, one after another, lead to the world the pool has come to. Each is made at a call
of its thread, and changes the world as that thread may; and a thread that has ended made
those that `D` asks of its result. -/
structure Linearized (G : ι → W → W → Prop) (D : (i : ι) → Except ε (α i) → List (W × W) → Prop)
    (w₀ : W) (P : Pool S ε α W) (history : List (ι × W × W)) : Prop where
  calls : (history.map Prod.fst).Sublist (P.trace.map Prod.fst)
  serial : Serial (fun e w w' => e.2 = (w, w') ∧ G e.1 w w') w₀ history P.world
  does : ∀ i x, (P.thread i).result = some x → D i x (movesOf i history)

variable {G : ι → W → W → Prop} {D : (i : ι) → Except ε (α i) → List (W × W) → Prop} {w₀ : W}
  {P P' : Pool S ε α W} {history : List (ι × W × W)} {i j : ι}

/-- The moves of a thread that was done before another began come before those of the other. -/
theorem Linearized.precedes (h : Linearized G D w₀ P history) (hij : Precedes P.trace i j) :
    ∃ before after, history = before ++ after ∧ (∀ e ∈ before, e.1 ≠ j) ∧
      ∀ e ∈ after, e.1 ≠ i := by
  obtain ⟨pre, post, htrace, hpre, hpost⟩ := hij
  have hcalls := h.calls
  rw [htrace, List.map_append] at hcalls
  obtain ⟨keys, keys', hkeys, hbefore, hafter⟩ := List.sublist_append_iff.mp hcalls
  obtain ⟨before, after, rfl, rfl, rfl⟩ := List.map_eq_append_iff.mp hkeys
  refine ⟨before, after, rfl, fun e he => ?_, fun e he => ?_⟩
  · obtain ⟨e', he', heq⟩ := List.mem_map.mp (hbefore.subset (List.mem_map_of_mem he))
    exact heq ▸ hpre e' he'
  · obtain ⟨e', he', heq⟩ := List.mem_map.mp (hafter.subset (List.mem_map_of_mem he))
    exact heq ▸ hpost e' he'

/-- A thread that was done before another began makes no move after one of the other. -/
theorem Linearized.done (h : Linearized G D w₀ P history) (hij : Precedes P.trace i j)
    {before after : List (ι × W × W)} {m : W × W} (hsplit : history = before ++ (j, m) :: after) :
    ∀ e ∈ after, e.1 ≠ i := by
  obtain ⟨pre, post, hhistory, hpre, hpost⟩ := h.precedes hij
  rcases List.append_eq_append_iff.mp (hsplit.symm.trans hhistory) with
    ⟨between, rfl, hafter⟩ | ⟨between, -, hafter⟩
  · cases between with
    | nil =>
        obtain rfl : (j, m) :: after = post := hafter
        exact fun e he => hpost e (List.mem_cons_of_mem _ he)
    | cons e rest =>
        obtain ⟨rfl, -⟩ := List.cons.inj hafter
        exact absurd rfl (hpre _ (List.mem_append_right _ List.mem_cons_self))
  · intro e he
    exact hpost e (hafter ▸ List.mem_append_right _ (List.mem_cons_of_mem _ he))

/-- Nor does the other make one before those of the thread. -/
theorem Linearized.unbegun (h : Linearized G D w₀ P history) (hij : Precedes P.trace i j)
    {before after : List (ι × W × W)} {m : W × W} (hsplit : history = before ++ (i, m) :: after) :
    ∀ e ∈ before, e.1 ≠ j := by
  obtain ⟨pre, post, hhistory, hpre, hpost⟩ := h.precedes hij
  rcases List.append_eq_append_iff.mp (hsplit.symm.trans hhistory) with
    ⟨between, rfl, -⟩ | ⟨between, rfl, hafter⟩
  · exact fun e he => hpre e (List.mem_append_left _ he)
  · exact absurd rfl (hpost (i, m) (hafter ▸ List.mem_append_right _ List.mem_cons_self))

/-- The world when a move was made. -/
theorem Linearized.move (h : Linearized G D w₀ P history) {m : W × W}
    (hm : m ∈ movesOf i history) :
    ∃ before after, history = before ++ (i, m) :: after ∧
      Serial (fun e w w' => e.2 = (w, w') ∧ G e.1 w w') w₀ before m.1 ∧ G i m.1 m.2 ∧
      Serial (fun e w w' => e.2 = (w, w') ∧ G e.1 w w') m.2 after P.world := by
  obtain ⟨before, after, a, b, rfl, hbefore, ⟨hab, hG⟩, hafter⟩ :=
    h.serial.turn (mem_movesOf.mp hm)
  obtain rfl : m = (a, b) := hab
  exact ⟨before, after, rfl, hbefore, hG, hafter⟩

/-- A move of a thread that was done before another began, a move of the other, and those
between. -/
theorem Linearized.between (h : Linearized G D w₀ P history) (hij : Precedes P.trace i j)
    {m n : W × W} (hm : m ∈ movesOf i history) (hn : n ∈ movesOf j history) :
    ∃ before between after, history = before ++ (i, m) :: between ++ (j, n) :: after ∧
      Serial (fun e w w' => e.2 = (w, w') ∧ G e.1 w w') w₀ (before ++ (i, m) :: between) n.1 ∧
      Serial (fun e w w' => e.2 = (w, w') ∧ G e.1 w w') m.2 between n.1 := by
  obtain ⟨pre, post, rfl, hpre, hpost⟩ := h.precedes hij
  have hm' : (i, m) ∈ pre := by
    refine (List.mem_append.mp (mem_movesOf.mp hm)).resolve_right fun hmem => ?_
    exact hpost _ hmem rfl
  have hn' : (j, n) ∈ post := by
    refine (List.mem_append.mp (mem_movesOf.mp hn)).resolve_left fun hmem => ?_
    exact hpre _ hmem rfl
  obtain ⟨before, between, rfl⟩ := List.append_of_mem hm'
  obtain ⟨between', after, rfl⟩ := List.append_of_mem hn'
  have hserial := h.serial
  refine ⟨before, between ++ between', after, by simp, ?_⟩
  rw [show before ++ (i, m) :: between ++ (between' ++ (j, n) :: after) =
    (before ++ (i, m) :: (between ++ between')) ++ (j, n) :: after by simp] at hserial
  obtain ⟨w₁, hupto, w₂, ⟨hn₁, -⟩, -⟩ := serial_append.mp hserial
  obtain rfl : n = (w₁, w₂) := hn₁
  obtain ⟨w₃, -, w₄, ⟨hm₁, -⟩, hbetween⟩ := serial_append.mp hupto
  obtain rfl : m = (w₃, w₄) := hm₁
  exact ⟨hupto, hbetween⟩

/-- How the threads stand: the moves made so far, in their order. -/
structure Moving (E : Env S W) (G : ι → W → W → Prop) (R : W → W → Prop) (w₀ : W)
    (Q : (i : ι) → Except ε (α i) → List (W × W) → Prop) (P : Pool S ε α W)
    (history : List (ι × W × W)) : Prop where
  calls : (history.map Prod.fst).Sublist (P.trace.map Prod.fst)
  serial : Serial (fun e w w' => e.2 = (w, w') ∧ G e.1 w w') w₀ history P.world
  moved : ∀ i, R (worldAfter w₀ (movesOf i history)) P.world
  wp : ∀ i, (P.thread i).wp (atomic E (G i) R w₀) (Q i) (movesOf i history)

variable {E : Env S W} {R : W → W → Prop} {Q : (i : ι) → Except ε (α i) → List (W × W) → Prop}

/-- A call that is no move. -/
theorem Moving.still (h : Moving E G R w₀ Q P history) {p : Prog S ε (α j)} {e : Event S}
    (hp : p.wp (atomic E (G j) R w₀) (Q j) (movesOf j history)) :
    Moving E G R w₀ Q ⟨Function.update P.thread j p, P.world, P.trace ++ [(j, e)]⟩ history where
  calls := by
    rw [List.map_append]
    exact h.calls.trans (List.sublist_append_left _ _)
  serial := h.serial
  moved := h.moved
  wp := by
    intro i
    by_cases hij : i = j
    · subst hij
      simpa using hp
    · simpa [Function.update_of_ne hij] using h.wp i

/-- A move. -/
theorem Moving.move (htrans : ∀ a b c, R a b → R b c → R a c) (hrefl : ∀ w, R w w)
    (h : Moving E G R w₀ Q P history) {p : Prog S ε (α j)} {e : Event S} {w' : W}
    (hG : G j P.world w') (hR : R P.world w')
    (hp : p.wp (atomic E (G j) R w₀) (Q j) (movesOf j history ++ [(P.world, w')])) :
    Moving E G R w₀ Q ⟨Function.update P.thread j p, w', P.trace ++ [(j, e)]⟩
      (history ++ [(j, P.world, w')]) where
  calls := by
    rw [List.map_append, List.map_append]
    exact h.calls.append (List.Sublist.refl [j])
  serial := serial_append.mpr ⟨P.world, h.serial, serial_singleton.mpr ⟨rfl, hG⟩⟩
  moved := by
    intro i
    rw [movesOf_append]
    by_cases hij : i = j
    · subst hij
      simpa using hrefl w'
    · rw [movesOf_of_ne hij, List.append_nil]
      exact htrans _ _ _ (h.moved i) hR
  wp := by
    intro i
    rw [movesOf_append]
    by_cases hij : i = j
    · subst hij
      simpa using hp
    · simpa [Function.update_of_ne hij, movesOf_of_ne hij] using h.wp i

theorem Moving.step (htrans : ∀ a b c, R a b → R b c → R a c) (hrefl : ∀ w, R w w)
    (hG : ∀ i a b, G i a b → R a b) (h : Moving E G R w₀ Q P history) (hs : Step E P P') :
    ∃ history', Moving E G R w₀ Q P' history' := by
  obtain @⟨j, o, k, r, w', hj, hE⟩ := hs
  have hcall := h.wp j
  rw [hj, Prog.wp_call] at hcall
  obtain ⟨hstep, ⟨rfl, hnext⟩ | hnext⟩ := hcall _ r w' (h.moved j) hE
  · exact ⟨history, h.still hnext⟩
  · exact ⟨_, h.move htrans hrefl hstep (hG j _ _ hstep) hnext⟩

/-- Whatever the interleaving of their calls, threads make their moves one after another. -/
theorem linearize {progs : (i : ι) → Prog S ε (α i)} (hrefl : ∀ w, R w w)
    (htrans : ∀ a b c, R a b → R b c → R a c) (hG : ∀ i a b, G i a b → R a b)
    (hprogs : ∀ i, (progs i).wp (atomic E (G i) R w₀) (D i) [])
    (hr : Reachable E (start progs w₀) P) : ∃ history, Linearized G D w₀ P history := by
  have hmoving : ∃ history, Moving E G R w₀ D P history := by
    induction hr with
    | refl => exact ⟨[], .slnil, rfl, fun _ => hrefl w₀, hprogs⟩
    | tail _ hs ih =>
        obtain ⟨history, h⟩ := ih
        exact h.step htrans hrefl hG hs
  obtain ⟨history, h⟩ := hmoving
  exact ⟨history, h.calls, h.serial, fun i x hx => (Prog.wp_of_result hx).mp (h.wp i)⟩

end Pool

end NfOrchestrator
