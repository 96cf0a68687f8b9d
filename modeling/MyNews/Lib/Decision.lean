import Mathlib.Data.List.Infix
import MyNews.Lib.Replica

/-!
# A server and its replicas

A server decides on the writes of several clients, one after the other. Each client has a `Replica`
and a connection, over which the server receives its writes in order; the client learns the
decisions in their order, each some time after it is made. A client that connects again sends what
is pending again, and is sent the value of the server. What it has sent over an earlier connection
can still be decided, but it does not learn these decisions as answers.

* `Decision.after`: the value after some decisions.
* `Decision.own`, `Decision.sentOver`: the writes of one client among them, and those that were sent
  over one connection.
* `Learnt`: what holds between the decisions, a connection and the replica of its client.
* `Learnt.write`, `decision`, `decision_of_ne`, `learn`, `learn_of_ne`, `snapshot`, `reconnect`: it
  holds after a write, after a decision, after the replica has learnt one or the value itself, and
  for a new connection.
* `Learnt.view_eq`: what a replica sees that has learnt all.
-/

/-- A decision of the server: whether it accepts a write that a client has sent over a
connection. -/
structure Decision (W : Type) where
  client : Nat
  connection : Nat
  write : W
  accepted : Bool
  deriving DecidableEq

namespace Decision

variable {V W : Type} (apply : W → V → V)

/-- The value after a decision. -/
def result (v : V) (d : Decision W) : V := if d.accepted then apply d.write v else v

/-- The value after some decisions. -/
def after (v : V) (log : List (Decision W)) : V := log.foldl (result apply) v

/-- The writes of the decisions with `p`, in this order. -/
def writes (p : Decision W → Bool) (log : List (Decision W)) : List W := (log.filter p).map write

/-- The writes of the client `i` that are decided. -/
def own (i : Nat) : List (Decision W) → List W := writes fun d => d.client = i

/-- The writes that were sent over the connection `c` and are decided. -/
def sentOver (c : Nat) : List (Decision W) → List W := writes fun d => d.connection = c

variable {apply} {v : V} {log : List (Decision W)} {d : Decision W} {p : Decision W → Bool}
  {c n : Nat}

theorem after_concat : after apply v (log ++ [d]) = result apply (after apply v log) d :=
  List.foldl_concat _ _ _ _

/-- The value after some decisions is the one after the writes that they accept. -/
theorem after_eq_foldl : after apply v log =
    (writes (fun d => d.accepted) log).foldl (fun v w => apply w v) v := by
  induction log generalizing v with
  | nil => rfl
  | cons d log ih =>
    rw [after, List.foldl_cons, ← after, ih, result, writes, writes, List.filter_cons]
    split <;> rfl

theorem writes_append (p : Decision W → Bool) (l l' : List (Decision W)) :
    writes p (l ++ l') = writes p l ++ writes p l' := by
  simp [writes]

theorem writes_singleton (h : p d = true) : writes p [d] = [d.write] := by simp [writes, h]

theorem writes_singleton_of_not (h : p d = false) : writes p [d] = [] := by simp [writes, h]

theorem writes_congr {q : Decision W → Bool} (h : ∀ d ∈ log, p d = q d) :
    writes p log = writes q log := by
  rw [writes, writes, List.filter_congr h]

theorem mem_writes {w : W} : w ∈ writes p log ↔ ∃ d ∈ log, p d = true ∧ d.write = w := by
  simp [writes, and_assoc]

theorem sentOver_append (c : Nat) (l l' : List (Decision W)) :
    sentOver c (l ++ l') = sentOver c l ++ sentOver c l' := writes_append _ l l'

theorem sentOver_singleton (h : d.connection = c) : sentOver c [d] = [d.write] :=
  writes_singleton (decide_eq_true h)

theorem sentOver_singleton_of_ne (h : d.connection ≠ c) : sentOver c [d] = [] :=
  writes_singleton_of_not (decide_eq_false h)

theorem sentOver_eq_nil (h : ∀ d ∈ log, d.connection ≠ c) : sentOver c log = [] := by
  simpa [sentOver, writes, List.filter_eq_nil_iff] using h

theorem sentOver_take_drop (c n : Nat) (log : List (Decision W)) :
    sentOver c (log.take n) ++ sentOver c (log.drop n) = sentOver c log := by
  rw [← sentOver_append, List.take_append_drop]

/-- The later decisions are those over a connection over which none of the first was made. -/
theorem sentOver_drop (h : sentOver c (log.take n) = []) {m : Nat} (hm : m ≤ n) :
    sentOver c (log.drop m) = sentOver c log := by
  have htake : sentOver c (log.take m) = [] := by
    have hsub := (List.take_prefix_take_left hm : log.take m <+: log.take n)
    obtain ⟨l, hl⟩ := hsub
    rw [← hl, sentOver_append] at h
    exact (List.append_eq_nil_iff.mp h).1
  rw [← sentOver_take_drop c m log, htake, List.nil_append]

theorem take_succ (hd : log[n]? = some d) : log.take (n + 1) = log.take n ++ [d] := by
  rw [List.take_add_one, hd]
  rfl

end Decision

namespace Replica

open Decision

variable {V W : Type}

/-- The replica of a client that has learnt the first `seen` decisions. The server has not decided
on the writes `inbox` of its connection `c`. -/
structure Learnt (apply : W → V → V) (v : V) (log : List (Decision W)) (c : Nat) (inbox : List W)
    (seen : Nat) (r : Replica V W) : Prop where
  le : seen ≤ log.length
  server : r.server = after apply v (log.take seen)
  /-- What is pending is what is decided and not learnt, and what is not decided. -/
  pending : r.pending = sentOver c (log.drop seen) ++ inbox

variable {apply : W → V → V} {v : V} {log : List (Decision W)} {d : Decision W} {c seen : Nat}
  {inbox : List W} {r : Replica V W}

/-- A new client. -/
theorem learnt_join (apply : W → V → V) (v : V) (log : List (Decision W)) (c : Nat) :
    Learnt apply v log c [] log.length ⟨after apply v log, []⟩ where
  le := Nat.le_refl _
  server := by rw [List.take_length]
  pending := by rw [List.drop_length]; rfl

namespace Learnt

/-- A new connection, over which all that is pending is sent. -/
theorem reconnect (h : Learnt apply v log c inbox seen r) {c' : Nat}
    (hc : ∀ d ∈ log, d.connection ≠ c') : Learnt apply v log c' r.pending seen r where
  le := h.le
  server := h.server
  pending := by rw [sentOver_eq_nil fun d hd => hc d (List.mem_of_mem_drop hd), List.nil_append]

theorem write (h : Learnt apply v log c inbox seen r) (ws : List W) :
    Learnt apply v log c (inbox ++ ws) seen { r with pending := r.pending ++ ws } where
  le := h.le
  server := h.server
  pending := by rw [h.pending, List.append_assoc]

/-- The server decides on the oldest write of the connection. -/
theorem decision (h : Learnt apply v log c (d.write :: inbox) seen r) (hc : d.connection = c) :
    Learnt apply v (log ++ [d]) c inbox seen r where
  le := Nat.le_trans h.le (by simp)
  server := by rw [List.take_append_of_le_length h.le]; exact h.server
  pending := by
    rw [List.drop_append_of_le_length h.le, sentOver_append, sentOver_singleton hc, h.pending,
      List.append_assoc]
    rfl

theorem decision_of_ne (h : Learnt apply v log c inbox seen r) (hc : d.connection ≠ c) :
    Learnt apply v (log ++ [d]) c inbox seen r where
  le := Nat.le_trans h.le (by simp)
  server := by rw [List.take_append_of_le_length h.le]; exact h.server
  pending := by
    rw [List.drop_append_of_le_length h.le, sentOver_append, sentOver_singleton_of_ne hc,
      List.append_nil]
    exact h.pending

theorem drop_eq (hd : log[seen]? = some d) : log.drop seen = [d] ++ log.drop (seen + 1) := by
  obtain ⟨hlt, hd⟩ := List.getElem?_eq_some_iff.mp hd
  rw [List.drop_eq_getElem_cons hlt, hd]
  rfl

/-- A decision that the client learns about its own write is about its oldest pending one. -/
theorem learn (h : Learnt apply v log c inbox seen r) (hd : log[seen]? = some d)
    (hc : d.connection = c) {r' : Replica V W} (hr : r.answer apply d.accepted = some r') :
    r.pending = d.write :: r'.pending ∧ Learnt apply v log c inbox (seen + 1) r' := by
  obtain ⟨w, ws, hp, rfl⟩ := answer_eq_some.mp hr
  have hpending := h.pending
  rw [drop_eq hd, sentOver_append, sentOver_singleton hc, hp] at hpending
  obtain ⟨rfl, rfl⟩ := List.cons.inj hpending
  refine ⟨hp, (List.getElem?_eq_some_iff.mp hd).1, ?_, rfl⟩
  rw [take_succ hd, after_concat, ← h.server]
  rfl

theorem learn_of_ne (h : Learnt apply v log c inbox seen r) (hd : log[seen]? = some d)
    (hc : d.connection ≠ c) :
    Learnt apply v log c inbox (seen + 1) { r with server := result apply r.server d } where
  le := (List.getElem?_eq_some_iff.mp hd).1
  server := by rw [take_succ hd, after_concat, ← h.server]
  pending := by
    have hpending := h.pending
    rwa [drop_eq hd, sentOver_append, sentOver_singleton_of_ne hc, List.nil_append] at hpending

/-- The client learns the value after the first `n` decisions, among which there is none of its
connection. -/
theorem snapshot (h : Learnt apply v log c inbox seen r) {n : Nat} (hseen : seen ≤ n)
    (hn : n ≤ log.length) (hover : sentOver c (log.take n) = []) :
    Learnt apply v log c inbox n { r with server := after apply v (log.take n) } where
  le := hn
  server := rfl
  pending := by
    have hpending := h.pending
    rwa [sentOver_drop hover hseen, ← sentOver_drop hover (Nat.le_refl n)] at hpending

/-- Once the client has learnt all decisions and none of its writes is pending, it sees the value of
the server. -/
theorem view_eq (h : Learnt apply v log c inbox log.length r) (hp : r.pending = []) :
    r.view apply = after apply v log := by
  rw [view, hp, h.server, List.take_length]
  rfl

end Learnt

end Replica
