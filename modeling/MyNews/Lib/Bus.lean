import MyNews.Lib.Observed

/-!
# Observers of several kinds

Observers of one value that are told apart by labels. `Bus.only` are those with one label: they are
an `Observed` of their own.

* `only_register_self`, `only_send`, `only_deliver_self`: what is registered with the label, sent
  and received by its observers is registered, sent and received there.
* `queues_register_of_ne`, `queues_deliver_of_ne`: the other labels do not matter.
-/

/-- For each observer, its label and the values that it was sent and has not received, the oldest
first. -/
structure Bus (K V : Type) where
  observers : List (K × List V)

namespace Bus

variable {K V : Type}

/-- A new observer with the label `k` is sent the value `v`. -/
def register (b : Bus K V) (k : K) (v : V) : Bus K V := ⟨b.observers ++ [(k, [v])]⟩

/-- All observers are sent `v`. -/
def send (b : Bus K V) (v : V) : Bus K V := ⟨b.observers.map fun x => (x.1, x.2 ++ [v])⟩

/-- The observer `i` receives the oldest value that it was sent. -/
def deliver (b : Bus K V) (i : Nat) : Option (K × V × Bus K V) :=
  match b.observers[i]? with
  | some (k, v :: q) => some (k, v, ⟨b.observers.set i (k, q)⟩)
  | _ => none

/-- Everything that was sent is received. -/
def Drained (b : Bus K V) : Prop := ∀ x ∈ b.observers, x.2 = []

instance (b : Bus K V) : Decidable b.Drained :=
  decidable_of_iff (∀ x ∈ b.observers, x.2.isEmpty = true) (by simp [Drained])

/-- A value is on the way to an observer. -/
def Sent (b : Bus K V) (v : V) : Prop := ∃ x ∈ b.observers, v ∈ x.2

theorem deliver_eq_some {b b' : Bus K V} {i : Nat} {k : K} {v : V} :
    b.deliver i = some (k, v, b') ↔
      ∃ q, b.observers[i]? = some (k, v :: q) ∧ b' = ⟨b.observers.set i (k, q)⟩ := by
  unfold deliver
  split
  · rename_i k' w q hq
    constructor
    · intro h; cases h; exact ⟨q, hq, rfl⟩
    · rintro ⟨q', hq', rfl⟩
      rw [hq] at hq'
      cases hq'
      rfl
  · rename_i hn
    constructor
    · intro h; cases h
    · rintro ⟨q, hq, -⟩
      exact (hn k v q hq).elim

/-! ## What is on the way -/

theorem sent_register {b : Bus K V} {k : K} {v w : V} :
    (b.register k v).Sent w ↔ b.Sent w ∨ w = v := by
  simp [Sent, register, or_and_right, exists_or]

theorem Sent.of_send {b : Bus K V} {v w : V} (h : (b.send v).Sent w) : b.Sent w ∨ w = v := by
  obtain ⟨x, hx, hw⟩ := h
  obtain ⟨y, hy, rfl⟩ := List.mem_map.mp hx
  rcases List.mem_append.mp hw with hw | hw
  · exact .inl ⟨y, hy, hw⟩
  · exact .inr (List.mem_singleton.mp hw)

/-- A value that is received was on the way, and those on the way afterwards were before. -/
theorem sent_of_deliver {b b' : Bus K V} {i : Nat} {k : K} {v : V}
    (h : b.deliver i = some (k, v, b')) : b.Sent v ∧ ∀ w, b'.Sent w → b.Sent w := by
  obtain ⟨q, hq, rfl⟩ := deliver_eq_some.mp h
  have hm := List.mem_of_getElem? hq
  refine ⟨⟨_, hm, List.mem_cons_self⟩, fun w ⟨x, hx, hw⟩ => ?_⟩
  rcases List.mem_or_eq_of_mem_set hx with hx | rfl
  · exact ⟨x, hx, hw⟩
  · exact ⟨_, hm, List.mem_cons_of_mem _ hw⟩

/-! ## The labels -/

theorem mem_labels_register {b : Bus K V} {k k' : K} {v : V} :
    k' ∈ (b.register k v).observers.map Prod.fst ↔ k' ∈ b.observers.map Prod.fst ∨ k' = k := by
  simp [register]

@[simp] theorem labels_send (b : Bus K V) (v : V) :
    (b.send v).observers.map Prod.fst = b.observers.map Prod.fst := by
  simp [send]

theorem labels_deliver {b b' : Bus K V} {i : Nat} {k : K} {v : V}
    (h : b.deliver i = some (k, v, b')) :
    b'.observers.map Prod.fst = b.observers.map Prod.fst := by
  obtain ⟨q, hq, rfl⟩ := deliver_eq_some.mp h
  refine List.ext_getElem? fun j => ?_
  rw [List.getElem?_map, List.getElem?_map, List.getElem?_set]
  split
  · rename_i hj
    subst hj
    rw [if_pos (List.getElem?_eq_some_iff.mp hq).1, hq]
    rfl
  · rfl

/-- The label of an observer that receives a value is registered. -/
theorem mem_labels_of_deliver {b b' : Bus K V} {i : Nat} {k : K} {v : V}
    (h : b.deliver i = some (k, v, b')) : k ∈ b.observers.map Prod.fst := by
  obtain ⟨q, hq, -⟩ := deliver_eq_some.mp h
  exact List.mem_map.mpr ⟨_, List.mem_of_getElem? hq, rfl⟩

/-! ## The observers with one label -/

variable [DecidableEq K]

/-- The queues of the observers with the label `k`. -/
def queues (b : Bus K V) (k : K) : List (List V) :=
  (b.observers.filter fun x => x.1 = k).map Prod.snd

/-- The observers with the label `k`, of the value `v`. -/
def only (b : Bus K V) (k : K) (v : V) : Observed V := ⟨v, b.queues k⟩

theorem length_queues (b : Bus K V) (k : K) :
    (b.queues k).length = (b.observers.map Prod.fst).count k := by
  rw [queues, List.length_map, ← List.countP_eq_length_filter, List.count, List.countP_map]
  refine List.countP_congr fun x _ => ?_
  simp

theorem queues_register_self (b : Bus K V) (k : K) (v : V) :
    (b.register k v).queues k = b.queues k ++ [[v]] := by
  simp [queues, register]

theorem queues_register_of_ne {k k' : K} (h : k' ≠ k) (b : Bus K V) (v : V) :
    (b.register k' v).queues k = b.queues k := by
  simp [queues, register, h]

theorem queues_send (b : Bus K V) (k : K) (v : V) :
    (b.send v).queues k = (b.queues k).map (· ++ [v]) := by
  simp [queues, send, List.filter_map, Function.comp_def]

theorem only_register_self (b : Bus K V) (k : K) (v : V) :
    (b.register k v).only k v = (b.only k v).observe := by
  rw [only, queues_register_self]; rfl

theorem only_register_of_ne {k k' : K} (h : k' ≠ k) (b : Bus K V) (v w : V) :
    (b.register k' v).only k w = b.only k w := by
  rw [only, queues_register_of_ne h]; rfl

theorem only_send [DecidableEq V] (b : Bus K V) (k : K) {v w : V} (h : v ≠ w) :
    (b.send v).only k v = (b.only k w).change v := by
  rw [only, queues_send, Observed.change_of_ne h]
  rfl

theorem drained_only {b : Bus K V} (h : b.Drained) (k : K) (v : V) : (b.only k v).Drained := by
  intro q hq
  obtain ⟨x, hx, rfl⟩ := List.mem_map.mp hq
  exact h x (List.mem_filter.mp hx).1

/-- A delivery to an observer with the label `k` is one to an observer of `only`. -/
theorem queues_set {l : List (K × List V)} {i : Nat} {k : K} {q r : List V}
    (h : l[i]? = some (k, q)) : ∃ j,
      (queues ⟨l⟩ k)[j]? = some q ∧ queues ⟨l.set i (k, r)⟩ k = (queues ⟨l⟩ k).set j r := by
  induction l generalizing i with
  | nil => cases h
  | cons x l ih =>
    cases i with
    | zero =>
      cases h
      exact ⟨0, by simp [queues], by simp [queues]⟩
    | succ i =>
      obtain ⟨j, hj, hs⟩ := ih (i := i) h
      by_cases hx : x.1 = k
      · refine ⟨j + 1, ?_, ?_⟩
        · simpa [queues, hx] using hj
        · simpa [queues, hx] using hs
      · refine ⟨j, ?_, ?_⟩
        · simpa [queues, hx] using hj
        · simpa [queues, hx] using hs

theorem queues_set_of_ne {l : List (K × List V)} {i : Nat} {k k' : K} {q r : List V}
    (h : l[i]? = some (k, q)) (hk : k ≠ k') : queues ⟨l.set i (k, r)⟩ k' = queues ⟨l⟩ k' := by
  induction l generalizing i with
  | nil => cases h
  | cons x l ih =>
    cases i with
    | zero =>
      cases h
      simp [queues, hk]
    | succ i =>
      have hs := ih (i := i) h
      by_cases hx : x.1 = k'
      · simpa [queues, hx] using hs
      · simpa [queues, hx] using hs

theorem only_deliver_self {b b' : Bus K V} {i : Nat} {k : K} {v : V}
    (h : b.deliver i = some (k, v, b')) (w : V) :
    ∃ j, (b.only k w).deliver j = some (v, b'.only k w) := by
  obtain ⟨q, hq, rfl⟩ := deliver_eq_some.mp h
  obtain ⟨j, hj, hs⟩ := queues_set (r := q) hq
  refine ⟨j, Observed.deliver_eq_some.mpr ⟨q, hj, ?_⟩⟩
  rw [only, hs]
  rfl

theorem queues_deliver_of_ne {b b' : Bus K V} {i : Nat} {k k' : K} {v : V}
    (h : b.deliver i = some (k, v, b')) (hk : k ≠ k') : b'.queues k' = b.queues k' := by
  obtain ⟨q, hq, rfl⟩ := deliver_eq_some.mp h
  exact queues_set_of_ne hq hk

end Bus
