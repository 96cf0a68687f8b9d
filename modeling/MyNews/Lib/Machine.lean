import Mathlib.Data.List.DropRight
import Mathlib.Logic.Relation
import Mathlib.Tactic.ByContra

/-!
# Event machines and their runs

A machine is a partial step function `step : σ → ε → Option σ`. `step s e = none` means that the
event `e` cannot happen in the state `s`. A run is a list of events, each of which can happen.

* `run step s es`: the state that the run `es` from `s` ends in.
* `steps step s es`: the events of the run, each with the state it happens in.
* `mem_steps`: such an event has a part of the run before it and a part after it.
* `Happened step P s es`: an event of the run has `P`.
* `since p h`: the end of a history after its last event with `p`.
* `run_invariant`: a property that every step of a run keeps holds in its last state.
* `run_history`: the same for a property of the state and of the events so far. The events are
  added at the end of the list, as in a run.
* `run_iff_forall_steps`, `run_good_or_bad`: what the steps of a run must all have for a property of
  its last state.
* `getElem?_filterMap_eq_some`: the event that gives the `k`-th of the values of a run.
* `run_getLast?`: a component that each event sets or leaves is what the last of them set.
* `Reaches step s t`: some run from `s` ends in `t`.
* `run_of_parts`: a relation that each part of a step has holds between the ends of a run.
-/

namespace Machine

variable {σ ε : Type} {step : σ → ε → Option σ}

/-- The state that the run `es` from `s` ends in; `none` if an event of it cannot happen. -/
def run (step : σ → ε → Option σ) : σ → List ε → Option σ
  | s, [] => some s
  | s, e :: es => (step s e).bind fun s' => run step s' es

/-- The events of the run, each with the state it happens in. -/
def steps (step : σ → ε → Option σ) : σ → List ε → List (σ × ε)
  | _, [] => []
  | s, e :: es => (s, e) :: (step s e).elim [] fun s' => steps step s' es

@[simp] theorem run_nil (s : σ) : run step s [] = some s := rfl

@[simp] theorem run_cons (s : σ) (e : ε) (es : List ε) :
    run step s (e :: es) = (step s e).bind fun s' => run step s' es := rfl

@[simp] theorem steps_nil (s : σ) : steps step s [] = [] := rfl

theorem run_append (s : σ) (es fs : List ε) :
    run step s (es ++ fs) = (run step s es).bind fun m => run step m fs := by
  induction es generalizing s with
  | nil => rfl
  | cons e es ih =>
    cases h : step s e with
    | none => simp [h]
    | some s' => simp [h, ih]

/-- A run is a run of its first part and a run of the rest. -/
theorem run_append_eq_some {s t : σ} {es fs : List ε} :
    run step s (es ++ fs) = some t ↔ ∃ m, run step s es = some m ∧ run step m fs = some t := by
  rw [run_append, Option.bind_eq_some_iff]

theorem run_concat_eq_some {s t : σ} {es : List ε} {e : ε} :
    run step s (es ++ [e]) = some t ↔ ∃ m, run step s es = some m ∧ step m e = some t := by
  simp only [run_append_eq_some, run_cons, run_nil, Option.bind_fun_some]

/-- Each event of a run can happen: the part before it ends in some state. -/
theorem exists_run_of_append {s t : σ} {es fs : List ε} (h : run step s (es ++ fs) = some t) :
    ∃ m, run step s es = some m := by
  obtain ⟨m, hm, -⟩ := run_append_eq_some.mp h
  exact ⟨m, hm⟩

theorem steps_append {s m : σ} {es : List ε} (h : run step s es = some m) (fs : List ε) :
    steps step s (es ++ fs) = steps step s es ++ steps step m fs := by
  induction es generalizing s with
  | nil => cases h; rfl
  | cons e es ih =>
    obtain ⟨s', hs, hr⟩ := Option.bind_eq_some_iff.mp h
    simp only [List.cons_append, steps, hs, Option.elim_some, ih hr]

theorem steps_concat {s m : σ} {es : List ε} (h : run step s es = some m) (e : ε) :
    steps step s (es ++ [e]) = steps step s es ++ [(m, e)] := by
  rw [steps_append h]
  cases hs : step m e <;> simp [steps, hs]

/-- An event of a run, with the state that the events before it end in. -/
theorem mem_steps {s : σ} {es : List ε} {x : σ × ε} : x ∈ steps step s es ↔
    ∃ pre post, es = pre ++ x.2 :: post ∧ run step s pre = some x.1 := by
  constructor
  · intro h
    induction es generalizing s with
    | nil => cases h
    | cons e es ih =>
      rcases List.mem_cons.mp h with rfl | h
      · exact ⟨[], es, rfl, rfl⟩
      · cases hs : step s e with
        | none => rw [hs] at h; cases h
        | some s' =>
          rw [hs] at h
          obtain ⟨pre, post, rfl, hr⟩ := ih h
          exact ⟨e :: pre, post, rfl, by rw [run_cons, hs]; exact hr⟩
  · rintro ⟨pre, post, rfl, hr⟩
    rw [steps_append hr]
    exact List.mem_append_right _ List.mem_cons_self

/-- An event of the run from `s` has `P`, in the state it happens in. -/
def Happened (step : σ → ε → Option σ) (P : σ → ε → Prop) (s : σ) (es : List ε) : Prop :=
  ∃ x ∈ steps step s es, P x.1 x.2

theorem not_happened_nil {P : σ → ε → Prop} {s : σ} : ¬ Happened step P s [] := by
  rintro ⟨x, hx, -⟩
  cases hx

theorem happened_concat {P : σ → ε → Prop} {s m : σ} {es : List ε} (h : run step s es = some m)
    (e : ε) : Happened step P s (es ++ [e]) ↔ Happened step P s es ∨ P m e := by
  simp [Happened, steps_concat h, or_and_right, exists_or]

theorem Happened.imp {P Q : σ → ε → Prop} {s : σ} {es : List ε} (h : Happened step P s es)
    (hPQ : ∀ m e, P m e → Q m e) : Happened step Q s es := by
  obtain ⟨x, hx, hP⟩ := h
  exact ⟨x, hx, hPQ _ _ hP⟩

/-! ## Invariants -/

/-- A property that every step of the run keeps holds in the state that the run ends in. -/
theorem run_invariant {I : σ → Prop} {es : List ε}
    (hstep : ∀ e ∈ es, ∀ s s', I s → step s e = some s' → I s')
    {s t : σ} (h : run step s es = some t) (hs : I s) : I t := by
  induction es generalizing s with
  | nil => cases h; exact hs
  | cons e es ih =>
    obtain ⟨s', he, hr⟩ := Option.bind_eq_some_iff.mp h
    obtain ⟨h1, h2⟩ := List.forall_mem_cons.mp hstep
    exact ih h2 hr (h1 s s' hs he)

/-- It is enough that the steps of the run itself keep it. -/
theorem run_invariant_of_steps {I : σ → Prop} {s t : σ} {es : List ε}
    (h : run step s es = some t)
    (hstep : ∀ x ∈ steps step s es, ∀ s', I x.1 → step x.1 x.2 = some s' → I s') (hs : I s) :
    I t := by
  induction es generalizing s with
  | nil => cases h; exact hs
  | cons e es ih =>
    obtain ⟨m, hm, hr⟩ := Option.bind_eq_some_iff.mp h
    rw [steps, hm, Option.elim_some, List.forall_mem_cons] at hstep
    exact ih hr hstep.2 (hstep.1 m hs hm)

/-- The same for a property of the state and the events so far: `I es s` holds after the run
`es`. The step lemma may use that the events before are a run. -/
theorem run_history {I : List ε → σ → Prop} {s : σ} (h0 : I [] s)
    (hstep : ∀ es e m t, run step s es = some m → I es m → step m e = some t → I (es ++ [e]) t)
    {es : List ε} {t : σ} (h : run step s es = some t) : I es t := by
  induction es using List.reverseRecOn generalizing t with
  | nil => cases h; exact h0
  | append_singleton es e ih =>
    obtain ⟨m, hm, he⟩ := run_concat_eq_some.mp h
    exact hstep es e m t hm (ih hm) he

/-- A property that holds after a step iff it held before it and the step has `Q` holds after a run
iff all its steps have `Q`. -/
theorem run_iff_forall_steps {P : σ → Prop} {Q : σ → ε → Prop} {s : σ} (h0 : P s)
    (hstep : ∀ m e t, step m e = some t → (P t ↔ P m ∧ Q m e)) {es : List ε} {t : σ}
    (h : run step s es = some t) : P t ↔ ∀ x ∈ steps step s es, Q x.1 x.2 := by
  induction es using List.reverseRecOn generalizing t with
  | nil => cases h; exact iff_of_true h0 (by simp)
  | append_singleton es e ih =>
    obtain ⟨m, hm, he⟩ := run_concat_eq_some.mp h
    rw [hstep m e t he, ih hm, steps_concat hm]
    simp only [List.forall_mem_append, List.forall_mem_singleton]

/-- Steps with `Q` keep `G`; any other step leads from `G` to `B`, which every step keeps. So a run
ends in `G` if all its steps have `Q`, and else in `B`. -/
theorem run_good_or_bad {G B : σ → Prop} {Q : σ → ε → Prop} {s : σ} (h0 : G s)
    (hgood : ∀ m e t, step m e = some t → G m → Q m e → G t)
    (hbad : ∀ m e t, step m e = some t → G m → ¬ Q m e → B t)
    (hstay : ∀ m e t, step m e = some t → B m → B t) {es : List ε} {t : σ}
    (h : run step s es = some t) : ((∀ x ∈ steps step s es, Q x.1 x.2) → G t) ∧
      (¬ (∀ x ∈ steps step s es, Q x.1 x.2) → B t) := by
  induction es using List.reverseRecOn generalizing t with
  | nil => cases h; exact ⟨fun _ => h0, fun hn => (hn (by simp)).elim⟩
  | append_singleton es e ih =>
    obtain ⟨m, hm, he⟩ := run_concat_eq_some.mp h
    simp only [steps_concat hm, List.forall_mem_append, List.forall_mem_singleton]
    refine ⟨fun hq => hgood m e t he ((ih hm).1 hq.1) hq.2, fun hn => ?_⟩
    by_cases hes : ∀ x ∈ steps step s es, Q x.1 x.2
    · exact hbad m e t he ((ih hm).1 hes) fun hq => hn ⟨hes, hq⟩
    · exact hstay m e t he ((ih hm).2 hes)

/-- What the last event adds to the values that the events of a run give. -/
theorem filterMap_concat {α : Type} (f : ε → Option α) (es : List ε) (e : ε) :
    (es ++ [e]).filterMap f = es.filterMap f ++ (f e).toList := by
  rw [List.filterMap_append]
  cases h : f e <;> simp [h]

/-- The `k`-th of the values that the events of a run give is that of an event with `k` values
before it. -/
theorem getElem?_filterMap_eq_some {α : Type} {f : ε → Option α} {es : List ε} {k : Nat} {a : α} :
    (es.filterMap f)[k]? = some a ↔
      ∃ pre e post, es = pre ++ e :: post ∧ f e = some a ∧ (pre.filterMap f).length = k := by
  constructor
  · intro h
    induction es generalizing k with
    | nil => cases h
    | cons e es ih =>
      cases hf : f e with
      | none =>
        rw [List.filterMap_cons_none hf] at h
        obtain ⟨pre, e', post, rfl, he', hk⟩ := ih h
        exact ⟨e :: pre, e', post, rfl, he', by rw [List.filterMap_cons_none hf]; exact hk⟩
      | some b =>
        rw [List.filterMap_cons_some hf] at h
        cases k with
        | zero => exact ⟨[], e, es, rfl, hf.trans h, rfl⟩
        | succ k =>
          obtain ⟨pre, e', post, rfl, he', hk⟩ := ih h
          refine ⟨e :: pre, e', post, rfl, he', ?_⟩
          rw [List.filterMap_cons_some hf, List.length_cons, hk]
  · rintro ⟨pre, e, post, rfl, he, rfl⟩
    rw [List.filterMap_append, List.filterMap_cons_some he,
      List.getElem?_append_right (Nat.le_refl _), Nat.sub_self]
    rfl

/-- The last of the values is that of an event with no value after it. -/
theorem getLast?_filterMap_eq_some {α : Type} {f : ε → Option α} {es : List ε} {a : α} :
    (es.filterMap f).getLast? = some a ↔
      ∃ pre e post, es = pre ++ e :: post ∧ f e = some a ∧ ∀ e' ∈ post, f e' = none := by
  rw [List.getLast?_filterMap, List.findSome?_eq_some_iff]
  constructor
  · rintro ⟨post, e, pre, hes, he, hpost⟩
    refine ⟨pre.reverse, e, post.reverse, ?_, he, fun e' he' => hpost e' (List.mem_reverse.mp he')⟩
    rw [← List.reverse_reverse es, hes]
    simp
  · rintro ⟨pre, e, post, rfl, he, hpost⟩
    refine ⟨post.reverse, e, pre.reverse, by simp, he, fun e' he' => ?_⟩
    exact hpost e' (List.mem_reverse.mp he')

/-- A component `g` of the state that each event sets or leaves is what the last event set that
does; `f e` is what `e` sets it to. -/
theorem run_getLast? {α : Type} {g : σ → α} {f : ε → Option α}
    (hstep : ∀ s e s', step s e = some s' → g s' = (f e).getD (g s)) {s t : σ} {es : List ε}
    (h : run step s es = some t) : g t = (es.filterMap f).getLast?.getD (g s) := by
  induction es generalizing s with
  | nil => cases h; rfl
  | cons e es ih =>
    obtain ⟨m, he, hr⟩ := Option.bind_eq_some_iff.mp h
    have hm := hstep s e m he
    rw [ih hr]
    cases hf : f e with
    | none => rw [List.filterMap_cons_none hf, hm, hf]; rfl
    | some a =>
      rw [List.filterMap_cons_some hf, List.getLast?_cons, hm, hf]
      rfl

/-! ## Reachable states -/

/-- Some run from `s` ends in `t`. -/
def Reaches (step : σ → ε → Option σ) (s t : σ) : Prop := ∃ es, run step s es = some t

theorem Reaches.refl (s : σ) : Reaches step s s := ⟨[], rfl⟩

theorem Reaches.of_step {s t : σ} {e : ε} (h : step s e = some t) : Reaches step s t :=
  ⟨[e], by rw [run_cons, h]; rfl⟩

theorem Reaches.trans {s m t : σ} (h1 : Reaches step s m) (h2 : Reaches step m t) :
    Reaches step s t := by
  obtain ⟨es, he⟩ := h1
  obtain ⟨fs, hf⟩ := h2
  exact ⟨es ++ fs, run_append_eq_some.mpr ⟨m, he, hf⟩⟩

/-- If each step is made of parts, a reflexive and transitive relation that each part has holds
between the first and the last state of a run. -/
theorem run_of_parts {A : ε → σ → σ → Prop} {R : σ → σ → Prop}
    (hparts : ∀ s e s', step s e = some s' → Relation.ReflTransGen (A e) s s')
    (hrefl : ∀ s, R s s) (htrans : ∀ s m t, R s m → R m t → R s t) {es : List ε}
    (hA : ∀ e ∈ es, ∀ s s', A e s s' → R s s') {s t : σ} (h : run step s es = some t) : R s t := by
  induction es generalizing s with
  | nil => cases h; exact hrefl _
  | cons e es ih =>
    obtain ⟨m, hm, hr⟩ := Option.bind_eq_some_iff.mp h
    obtain ⟨he, hes⟩ := List.forall_mem_cons.mp hA
    have key : ∀ x, Relation.ReflTransGen (A e) s x → R s x := by
      intro x hx
      induction hx with
      | refl => exact hrefl s
      | tail _ hlast ih' => exact htrans _ _ _ ih' (he _ _ hlast)
    exact htrans s m t (key m (hparts s e m hm)) (ih hes hr)

/-- An invariant that each part of a step keeps is kept by a run. -/
theorem run_invariant_of_parts {A : ε → σ → σ → Prop} {I : σ → Prop}
    (hparts : ∀ s e s', step s e = some s' → Relation.ReflTransGen (A e) s s') {es : List ε}
    (hA : ∀ e ∈ es, ∀ s s', A e s s' → I s → I s') {s t : σ} (h : run step s es = some t)
    (hs : I s) : I t :=
  run_of_parts (R := fun s t => I s → I t) hparts (fun _ hi => hi)
    (fun _ _ _ h1 h2 hi => h2 (h1 hi)) hA h hs

/-! ## The end of a history -/

/-- The end of the history `h` after its last event with `p`; all of `h` if it has none. -/
def since (p : ε → Bool) (h : List (σ × ε)) : List (σ × ε) := h.rtakeWhile fun x => !p x.2

@[simp] theorem since_nil (p : ε → Bool) : since p ([] : List (σ × ε)) = [] := rfl

theorem since_concat_of_pos {p : ε → Bool} {e : ε} (hp : p e = true) (h : List (σ × ε)) (s : σ) :
    since p (h ++ [(s, e)]) = [] := by
  rw [since, List.rtakeWhile_concat_neg _ _ _ (by simp [hp])]

theorem since_concat_of_neg {p : ε → Bool} {e : ε} (hp : p e = false) (h : List (σ × ε)) (s : σ) :
    since p (h ++ [(s, e)]) = since p h ++ [(s, e)] := by
  rw [since, List.rtakeWhile_concat_pos _ _ _ (by simp [hp])]
  rfl

end Machine
