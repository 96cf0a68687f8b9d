/-!
# A value kept on a server and edited locally first

A client of a remote value applies a write to its own view at once and sends it. The server takes
the writes in the order in which they were sent and accepts or rejects each; a rejected write
leaves the client's view again. `V` is the type of the value, `W` of the writes.

* `Replica.view`: the value that the client sees: the server's, with the pending writes on top.
* `view_write`, `view_accept`, `view_reject`: the view after a write and after its answer.
* `view_of_keeps`: a property of the server's value that each pending write keeps holds of the
  view.
-/

/-- The server's value and the writes that it has not answered, oldest first. -/
structure Replica (V W : Type) where
  server : V
  pending : List W
  deriving DecidableEq

namespace Replica

variable {V W : Type} (apply : W → V → V)

/-- The value that the client sees. -/
def view (r : Replica V W) : V := r.pending.foldl (fun v w => apply w v) r.server

/-- A write of the client. -/
def write (r : Replica V W) (w : W) : Replica V W := { r with pending := r.pending ++ [w] }

/-- The server's answer to the oldest write; `none` if no write is pending. -/
def answer (r : Replica V W) (accepted : Bool) : Option (Replica V W) :=
  match r.pending with
  | [] => none
  | w :: ws => some { server := if accepted then apply w r.server else r.server, pending := ws }

variable {apply} {r r' : Replica V W}

@[simp] theorem view_cons (v : V) (w : W) (ws : List W) :
    view apply ⟨v, w :: ws⟩ = view apply ⟨apply w v, ws⟩ := rfl

/-- What an answer is about: the oldest write. -/
theorem answer_eq_some {b : Bool} : r.answer apply b = some r' ↔ ∃ w ws, r.pending = w :: ws ∧
    r' = { server := if b then apply w r.server else r.server, pending := ws } := by
  unfold answer
  split
  · rename_i h; simp [h]
  · rename_i w ws h
    constructor
    · intro he; exact ⟨w, ws, h, (Option.some.inj he).symm⟩
    · rintro ⟨w', ws', hp, rfl⟩
      rw [h] at hp
      cases hp
      rfl

/-- The view after a write. -/
theorem view_write (w : W) : (r.write w).view apply = apply w (r.view apply) := by
  rw [view, write, List.foldl_append]
  rfl

/-- An accepted write stays in the view. -/
theorem view_accept (h : r.answer apply true = some r') : r'.view apply = r.view apply := by
  obtain ⟨w, ws, hp, rfl⟩ := answer_eq_some.mp h
  rw [view, view, hp]
  rfl

/-- A rejected write leaves the view; the later ones stay. -/
theorem view_reject {w : W} {ws : List W} (hp : r.pending = w :: ws)
    (h : r.answer apply false = some r') : r'.view apply = view apply ⟨r.server, ws⟩ := by
  obtain ⟨_, _, hp', rfl⟩ := answer_eq_some.mp h
  rw [hp] at hp'
  cases hp'
  rfl

theorem view_of_keeps {P : V → Prop} {v : V} {ws : List W} (hv : P v)
    (hw : ∀ w ∈ ws, ∀ v, P v → P (apply w v)) : P (view apply ⟨v, ws⟩) := by
  induction ws generalizing v with
  | nil => exact hv
  | cons w ws ih =>
    rw [view_cons]
    exact ih (hw w List.mem_cons_self v hv) fun w' h => hw w' (List.mem_cons_of_mem _ h)

end Replica
