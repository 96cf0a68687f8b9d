/-!
# A value with observers

A value that changes, and observers that stay registered. An observer is sent the value when it is
registered and each time it changes, and receives what it was sent in order. A value that is set
again is no change.

* `deliver_eq_some`: what a delivery is.
* `pending_observe`, `pending_change`, `pending_deliver`: what is sent and not received. A change
  sends as many values as there are observers.
* `UpToDate`: the last value on the way to an observer is the current one; so what is received last
  is the current value (`UpToDate.eq_value`).
* `Follows`: what takes over each value that it receives agrees with the current one once everything
  is received (`Follows.current`), whether or not it has agreed with it before.
-/

/-- A value and its observers. -/
structure Observed (V : Type) where
  value : V
  /-- For each observer, the values that it was sent and has not received, the oldest first. -/
  queues : List (List V)

namespace Observed

variable {V : Type}

/-- A value that nobody observes. -/
def unobserved (v : V) : Observed V := ⟨v, []⟩

/-- A new observer. -/
def observe (o : Observed V) : Observed V := { o with queues := o.queues ++ [[o.value]] }

/-- The value becomes `v`; if it is `v` already, nothing is sent. -/
def change [DecidableEq V] (o : Observed V) (v : V) : Observed V :=
  if v = o.value then o else ⟨v, o.queues.map (· ++ [v])⟩

/-- The observer `i` receives the oldest value that it was sent. -/
def deliver (o : Observed V) (i : Nat) : Option (V × Observed V) :=
  match o.queues[i]? with
  | some (v :: q) => some (v, { o with queues := o.queues.set i q })
  | _ => none

/-- The number of values that are sent and not received. -/
def pending (o : Observed V) : Nat := o.queues.flatten.length

/-- Everything that was sent is received. -/
def Drained (o : Observed V) : Prop := ∀ q ∈ o.queues, q = []

instance (o : Observed V) : Decidable o.Drained :=
  decidable_of_iff (∀ q ∈ o.queues, q.isEmpty = true) (by simp [Drained])

@[simp] theorem queues_length_observe (o : Observed V) :
    o.observe.queues.length = o.queues.length + 1 := by simp [observe]

theorem change_of_ne [DecidableEq V] {o : Observed V} {v : V} (h : v ≠ o.value) :
    o.change v = ⟨v, o.queues.map (· ++ [v])⟩ := if_neg h

@[simp] theorem change_value [DecidableEq V] (o : Observed V) : o.change o.value = o := if_pos rfl

@[simp] theorem queues_length_change [DecidableEq V] (o : Observed V) (v : V) :
    (o.change v).queues.length = o.queues.length := by
  unfold change
  split
  · rfl
  · simp

theorem deliver_eq_some {o o' : Observed V} {i : Nat} {v : V} :
    o.deliver i = some (v, o') ↔
      ∃ q, o.queues[i]? = some (v :: q) ∧ o' = { o with queues := o.queues.set i q } := by
  unfold deliver
  split
  · rename_i w q hq
    constructor
    · intro h; cases h; exact ⟨q, hq, rfl⟩
    · rintro ⟨q', hq', rfl⟩
      rw [hq] at hq'
      cases hq'
      rfl
  · rename_i hn
    constructor
    · intro h; cases h
    · rintro ⟨q, hq, -⟩
      exact (hn v q hq).elim

/-! ## What is on the way -/

theorem drained_iff_pending {o : Observed V} : o.Drained ↔ o.pending = 0 := by
  rw [pending, List.length_eq_zero_iff, List.flatten_eq_nil_iff]
  rfl

/-- A new observer is sent the value. -/
theorem pending_observe (o : Observed V) : o.observe.pending = o.pending + 1 := by
  rw [pending, pending, observe, List.flatten_append, List.length_append]
  rfl

theorem length_flatten_map_append (v : V) (l : List (List V)) :
    (l.map (· ++ [v])).flatten.length = l.flatten.length + l.length := by
  induction l with
  | nil => rfl
  | cons q l ih =>
    simp only [List.map_cons, List.flatten_cons, List.length_append, List.length_cons,
      List.length_nil, ih]
    omega

/-- A change is sent once to each observer. -/
theorem pending_change [DecidableEq V] {o : Observed V} {v : V} (h : v ≠ o.value) :
    (o.change v).pending = o.pending + o.queues.length := by
  rw [change_of_ne h]
  exact length_flatten_map_append v o.queues

theorem length_flatten_set {l : List (List V)} {i : Nat} {v : V} {q : List V}
    (h : l[i]? = some (v :: q)) : l.flatten.length = (l.set i q).flatten.length + 1 := by
  induction l generalizing i with
  | nil => cases h
  | cons x l ih =>
    cases i with
    | zero => cases h; simp
    | succ i =>
      have := ih (i := i) h
      rw [List.set_cons_succ, List.flatten_cons, List.flatten_cons, List.length_append,
        List.length_append]
      omega

theorem pending_deliver {o o' : Observed V} {i : Nat} {v : V} (h : o.deliver i = some (v, o')) :
    o.pending = o'.pending + 1 := by
  obtain ⟨q, hq, rfl⟩ := deliver_eq_some.mp h
  exact length_flatten_set hq

/-- A delivery changes neither the value nor the observers. -/
theorem deliver_frame {o o' : Observed V} {i : Nat} {v : V} (h : o.deliver i = some (v, o')) :
    o'.value = o.value ∧ o'.queues.length = o.queues.length := by
  obtain ⟨q, -, rfl⟩ := deliver_eq_some.mp h
  exact ⟨rfl, List.length_set⟩

/-! ## What is received last -/

/-- The last value on the way to an observer is the current one. -/
def UpToDate (o : Observed V) : Prop := ∀ q ∈ o.queues, ∀ v, q.getLast? = some v → v = o.value

theorem upToDate_unobserved (v : V) : (unobserved v).UpToDate := by
  intro q hq; cases hq

theorem UpToDate.observe {o : Observed V} (h : o.UpToDate) : o.observe.UpToDate := by
  intro q hq v hv
  rcases List.mem_append.mp hq with hq | hq
  · exact h q hq v hv
  · rw [List.mem_singleton.mp hq] at hv
    exact (Option.some.inj hv).symm

/-- After a change it is the new value, whatever was on the way before. -/
theorem upToDate_change [DecidableEq V] {o : Observed V} {v : V} (h : v ≠ o.value) :
    (o.change v).UpToDate := by
  rw [change_of_ne h]
  intro q hq w hw
  obtain ⟨q', -, rfl⟩ := List.mem_map.mp hq
  rw [List.getLast?_concat] at hw
  exact (Option.some.inj hw).symm

theorem UpToDate.deliver {o o' : Observed V} (h : o.UpToDate) {i : Nat} {v : V}
    (hd : o.deliver i = some (v, o')) : o'.UpToDate := by
  obtain ⟨q, hq, rfl⟩ := deliver_eq_some.mp hd
  intro q' hq' w hw
  rcases List.mem_or_eq_of_mem_set hq' with hm | rfl
  · exact h q' hm w hw
  · refine h (v :: q') (List.mem_of_getElem? hq) w ?_
    cases q' with
    | nil => cases hw
    | cons x q' => rwa [List.getLast?_cons_cons]

/-- A value that is received when nothing else is on the way is the current one. -/
theorem UpToDate.eq_value {o o' : Observed V} (h : o.UpToDate) {i : Nat} {v : V}
    (hd : o.deliver i = some (v, o')) (hdrained : o'.Drained) : v = o'.value := by
  obtain ⟨q, hq, rfl⟩ := deliver_eq_some.mp hd
  have hlt : i < o.queues.length := (List.getElem?_eq_some_iff.mp hq).1
  have hnil : q = [] := hdrained q (List.mem_set hlt q)
  subst hnil
  exact h [v] (List.mem_of_getElem? hq) v rfl

theorem not_drained_observe (o : Observed V) : ¬ o.observe.Drained := by
  rw [drained_iff_pending, pending_observe]
  omega

/-- After a change nothing is on the way only if nobody observes the value. -/
theorem queues_eq_nil_of_drained_change [DecidableEq V] {o : Observed V} {v : V}
    (hv : v ≠ o.value) (h : (o.change v).Drained) : o.queues = [] := by
  rw [drained_iff_pending, pending_change hv] at h
  exact List.length_eq_zero_iff.mp (by omega)

/-! ## What follows the value -/

/-- Something that receives the value through observers. It has observers iff it is `Watching`, and
`P` is its relation to the value that it has received last. -/
structure Follows (o : Observed V) (Watching : Prop) (P : V → Prop) : Prop where
  upToDate : o.UpToDate
  watching : Watching ↔ o.queues ≠ []
  caughtUp : o.Drained → o.queues ≠ [] → P o.value

variable {Watching Watching' : Prop} {P P' : V → Prop}

theorem follows_unobserved (v : V) (h : ¬ Watching) : (unobserved v).Follows Watching P :=
  ⟨upToDate_unobserved v, iff_of_false h (by simp [unobserved]),
    fun _ hn => (hn rfl).elim⟩

theorem Follows.imp {o : Observed V} (h : o.Follows Watching P) (hW : Watching' ↔ Watching)
    (hP : Watching' → ∀ v, P v → P' v) : o.Follows Watching' P' :=
  ⟨h.upToDate, hW.trans h.watching, fun hd hn =>
    hP ((hW.trans h.watching).mpr hn) o.value (h.caughtUp hd hn)⟩

/-- A new observer is sent the value, so nothing need hold of it before. -/
theorem Follows.observe {o : Observed V} (h : o.Follows Watching P) (hW : Watching') :
    o.observe.Follows Watching' P' :=
  ⟨h.upToDate.observe, iff_of_true hW (by simp [Observed.observe]),
    fun hd _ => (o.not_drained_observe hd).elim⟩

/-- After a change a value is on the way, so nothing need hold of the one before. -/
theorem Follows.change [DecidableEq V] {o : Observed V} (h : o.Follows Watching P) {v : V}
    (hv : v ≠ o.value) : (o.change v).Follows Watching P' := by
  have hn : (o.change v).queues ≠ [] ↔ o.queues ≠ [] := by
    rw [← List.length_pos_iff, ← List.length_pos_iff, queues_length_change]
  exact ⟨upToDate_change hv, h.watching.trans hn.symm,
    fun hd hq => (hn.mp hq (queues_eq_nil_of_drained_change hv hd)).elim⟩

/-- It receives a value and takes it over. -/
theorem Follows.deliver {o o' : Observed V} (h : o.Follows Watching P) {i : Nat} {v : V}
    (hd : o.deliver i = some (v, o')) (hW : Watching' ↔ Watching) (hP : P' v) :
    o'.Follows Watching' P' := by
  have hlength := (deliver_frame hd).2
  have hn : o'.queues ≠ [] ↔ o.queues ≠ [] := by
    rw [← List.length_pos_iff, ← List.length_pos_iff, hlength]
  exact ⟨h.upToDate.deliver hd, hW.trans (h.watching.trans hn.symm),
    fun hdrained _ => h.upToDate.eq_value hd hdrained ▸ hP⟩

theorem Follows.current {o : Observed V} (h : o.Follows Watching P) (hW : Watching)
    (hd : o.Drained) : P o.value := h.caughtUp hd (h.watching.mp hW)

end Observed
