import MyNews.App.Feed

/-!
# The answers to Done

`done_answered`: each Done of a Sources screen is answered once and on that screen, and the first
answer takes its table away; there is no other way out of the screen.
-/

namespace MyNews
namespace App

open OnlineRepository
open ProfileViewController (newYear2020)

/-- The writes of the Sources screen `k` that are not answered. -/
def unanswered (a : App) (k : Nat) : Nat :=
  a.node.pending.countP fun p => decide (p.completion = some k)

/-- The event is a Done of the Sources screen `k`. -/
def Event.isDone (k : Nat) : Event → Bool
  | sources screen .done => decide (screen = k)
  | _ => false

/-- After `dones` Dones, the Sources screen `k` waits for the answers to its writes, and it shows
its table while none has come. -/
structure Awaits (a : App) (k dones : Nat) : Prop where
  opened : ∀ c, a.sources[k]? = some c → c.saves = a.unanswered k ∧ c.saves ≤ dones ∧
    (c.shown = .table ↔ c.saves = dones)
  unopened : a.sources[k]? = none → a.unanswered k = 0 ∧ dones = 0

theorem Awaits.congr {a : App} {k dones : Nat} (h : Awaits a k dones) (a' : App)
    (hsources : a'.sources[k]? = a.sources[k]?) (hpending : a'.unanswered k = a.unanswered k) :
    Awaits a' k dones :=
  ⟨by rw [hsources, hpending]; exact h.opened, by rw [hsources, hpending]; exact h.unopened⟩

/-- A Sources screen changes, but not the saves or whether the table is shown. -/
theorem Awaits.set {a : App} {k dones : Nat} (h : Awaits a k dones) (a' : App) {j : Nat}
    {c c' : SourcesViewController} (hc : a.sources[j]? = some c)
    (hsources : a'.sources = a.sources.set j c') (hsaves : c'.saves = c.saves)
    (hshown : c'.shown = .table ↔ c.shown = .table) (hpending : a'.unanswered k = a.unanswered k) :
    Awaits a' k dones := by
  by_cases hj : j = k
  · subst hj
    have hget : a'.sources[j]? = some c' := by
      rw [hsources]; exact List.getElem?_set_self (List.getElem?_eq_some_iff.mp hc).1
    refine ⟨fun x hx => ?_, fun hn => by rw [hget] at hn; cases hn⟩
    rw [hget, Option.some.injEq] at hx
    subst hx
    rw [hsaves, hpending, hshown]
    exact h.opened c hc
  · exact h.congr a' (by rw [hsources, List.getElem?_set_ne hj]) hpending

/-- A new Sources screen shows its table. -/
theorem Awaits.present {a : App} {k dones : Nat} (h : Awaits a k dones) (screen : Screen) :
    Awaits (a.present screen) k dones := by
  unfold App.present
  split
  · cases screen with
    | profile => exact h.congr _ rfl rfl
    | news => exact h.congr _ rfl rfl
    | sources =>
      rcases Nat.lt_trichotomy k a.sources.length with hk | rfl | hk
      · exact h.congr _ (List.getElem?_append_left hk) rfl
      · obtain ⟨hun, hdones⟩ := h.unopened (List.getElem?_eq_none (Nat.le_refl _))
        refine ⟨fun c hc => ?_, fun hn => ?_⟩
        · rw [show c = SourcesViewController.viewDidLoad from
            (Option.some.inj (List.getElem?_concat_length.symm.trans hc)).symm]
          exact ⟨hun.symm, Nat.zero_le _, iff_of_true rfl hdones.symm⟩
        · exact absurd (List.getElem?_concat_length.symm.trans hn) (by simp)
      · refine h.congr _ ?_ rfl
        rw [List.getElem?_eq_none (Nat.le_of_lt hk)]
        exact List.getElem?_eq_none (by simp [load]; omega)
  · exact h

theorem Awaits.receive {a : App} {k dones : Nat} (h : Awaits a k dones) (o : Observer)
    (value : DataSnapshot) : Awaits (a.receive o value) k dones := by
  cases o with
  | check =>
    simp only [App.receive, block]
    split
    · exact h.congr _ rfl rfl
    · exact (h.congr { a with
        received := a.received ++ [value], profileSegues := a.profileSegues ++ [a.presented] }
        rfl rfl).present .profile
    · exact h.congr _ rfl rfl
  | sources screen =>
    simp only [App.receive]
    rcases a.sources.modify_cases screen (fun c =>
      c.userSourcesDone (SourcesViewModel.parseUserSources (getUserSources value)))
      with he | ⟨c, hc, he⟩
    · rw [he]; exact h
    · exact h.set _ hc he rfl Iff.rfl rfl
  | _ => exact h.congr _ rfl rfl

/-- The answer to a write of another screen, or of no screen. -/
theorem unanswered_of_ne {a : App} {accepted : Bool} {node : Replica Record Pending} {w : Write}
    {completion : Option Nat} {k : Nat} (hp : a.node.pending.head? = some ⟨w, completion⟩)
    (hn : a.node.answer Pending.apply accepted = some node) (hk : completion ≠ some k) :
    (a.update node).unanswered k = a.unanswered k := by
  obtain ⟨p, ps, hpending, rfl⟩ := Replica.answer_eq_some.mp hn
  rw [hpending, List.head?_cons, Option.some.injEq] at hp
  subst hp
  simp [unanswered, App.update, hpending, hk]

/-- The answer to a write of the screen. -/
theorem unanswered_of_eq {a : App} {accepted : Bool} {node : Replica Record Pending} {w : Write}
    {k : Nat} (hp : a.node.pending.head? = some ⟨w, some k⟩)
    (hn : a.node.answer Pending.apply accepted = some node) :
    (a.update node).unanswered k + 1 = a.unanswered k := by
  obtain ⟨p, ps, hpending, rfl⟩ := Replica.answer_eq_some.mp hn
  rw [hpending, List.head?_cons, Option.some.injEq] at hp
  subst hp
  simp [unanswered, App.update, hpending]

/-- An answer takes the table away. -/
theorem step_saveAnswered {c : SourcesViewController} (h : 0 < c.saves) (error : Bool) :
    ∃ c', SourcesViewController.step c (.saveAnswered error) = some c' ∧ c'.saves + 1 = c.saves ∧
      c'.shown ≠ .table := by
  refine ⟨_, if_pos h, ?_⟩
  cases error with
  | true =>
    refine ⟨Nat.sub_add_cancel h, ?_⟩
    simp only [↓reduceIte, SourcesViewController.failedSaveUserSources]
    split
    · simp
    · assumption
  | false => exact ⟨Nat.sub_add_cancel h, by simp [SourcesViewController.successSaveUserSources]⟩

/-- No other event of the screen changes the saves, or whether the table is shown. -/
theorem step_keeps_table {c c' : SourcesViewController} {e : SourcesViewController.Event}
    (h : SourcesViewController.step c e = some c') (hdone : e ≠ .done)
    (hanswered : ∀ error, e ≠ .saveAnswered error) :
    c'.saves = c.saves ∧ (c'.shown = .table ↔ c.shown = .table) := by
  cases e with
  | done => exact (hdone rfl).elim
  | saveAnswered error => exact (hanswered error rfl).elim
  | allSources response =>
    simp only [SourcesViewController.step] at h
    split at h
    · split at h <;> cases h <;> exact ⟨rfl, Iff.rfl⟩
    · cases h
  | snapshot value =>
    simp only [SourcesViewController.step] at h
    split at h
    · cases h; exact ⟨rfl, Iff.rfl⟩
    · cases h
  | cellForRowAt row =>
    obtain ⟨⟨cell, x⟩, hx, rfl⟩ := Option.map_eq_some_iff.mp h
    obtain ⟨-, rfl⟩ := SourcesViewController.cellForRowAt_eq_some hx
    exact ⟨rfl, Iff.rfl⟩
  | tap row =>
    simp only [SourcesViewController.step] at h
    split at h
    · cases h
      by_cases hm : row ∈ c.selected
      · rw [SourcesViewController.tap_of_mem hm]; exact ⟨rfl, Iff.rfl⟩
      · rw [SourcesViewController.tap_of_not_mem hm]; exact ⟨rfl, Iff.rfl⟩
    · cases h
  | ok =>
    simp only [SourcesViewController.step] at h
    split at h
    · rename_i halert
      cases h
      exact ⟨rfl, iff_of_false (by simp) (by simp [halert])⟩
    · cases h

/-- An answer to the writes of the screen. -/
theorem Awaits.answered {a b : App} {k dones : Nat} (h : Awaits a k dones)
    (hsources : b.sources = a.sources) (hpending : b.unanswered k + 1 = a.unanswered k)
    (accepted : Bool) : Awaits (b.saveAnswered k accepted) k dones := by
  cases hc : a.sources[k]? with
  | none =>
    have := (h.unopened hc).1
    omega
  | some c =>
    obtain ⟨hsaves, hle, -⟩ := h.opened c hc
    obtain ⟨c', hs, hsaves', htable⟩ := step_saveAnswered (c := c) (by omega) !accepted
    have hget : (b.saveAnswered k accepted).sources[k]? = some c' := by
      have hset : (b.sources.set k c')[k]? = some c' := by
        rw [hsources]; exact List.getElem?_set_self (List.getElem?_eq_some_iff.mp hc).1
      simp only [saveAnswered, hsources, hc, hs] at hset ⊢
      split <;> exact hset
    have hun : (b.saveAnswered k accepted).unanswered k = b.unanswered k := by
      rw [unanswered, node_saveAnswered]
      rfl
    refine ⟨fun x hx => ?_, fun hn => by rw [hget] at hn; cases hn⟩
    rw [hget, Option.some.injEq] at hx
    subst hx
    rw [hun]
    exact ⟨by omega, by omega, iff_of_false htable (by omega)⟩

/-- An answer to a write of another screen. -/
theorem Awaits.answered_of_ne {a : App} {k dones : Nat} (h : Awaits a k dones) {j : Nat}
    (hj : j ≠ k) (accepted : Bool) : Awaits (a.saveAnswered j accepted) k dones := by
  refine h.congr _ ?_ (by rw [unanswered, node_saveAnswered]; rfl)
  unfold saveAnswered
  split
  · rfl
  · split
    · rfl
    · simp only
      split <;> exact List.getElem?_set_ne hj

/-- A Done of the screen. -/
theorem Awaits.done {a a' : App} {k dones : Nat} (h : Awaits a k dones)
    {c c' : SourcesViewController} (hc : a.sources[k]? = some c)
    (hs : SourcesViewController.step c .done = some c') (hsources : a'.sources = a.sources.set k c')
    (hpending : a'.unanswered k = a.unanswered k + 1) : Awaits a' k (dones + 1) := by
  have hget : a'.sources[k]? = some c' := by
    rw [hsources]; exact List.getElem?_set_self (List.getElem?_eq_some_iff.mp hc).1
  obtain ⟨hsaves, -, htable⟩ := h.opened c hc
  simp only [SourcesViewController.step] at hs
  split at hs
  · rename_i hshown
    cases hs
    have hdones := htable.mp hshown
    refine ⟨fun x hx => ?_, fun hn => by rw [hget] at hn; cases hn⟩
    rw [hget, Option.some.injEq] at hx
    subst hx
    rw [hpending]
    exact ⟨by simp only [hsaves], by simp only; omega, iff_of_true hshown (by simp only; omega)⟩
  · cases hs

theorem unanswered_setValues (a : App) (writes : List Write) (k : Nat) :
    (a.setValues writes).unanswered k = a.unanswered k := by
  rw [unanswered, node_setValues, unanswered, List.countP_append]
  simp [List.countP_map, Function.comp_def]

theorem Awaits.step {a a' : App} {e : Event} {k dones : Nat} (h : Awaits a k dones)
    (hstep : App.step a e = some a') : Awaits a' k (dones + if e.isDone k then 1 else 0) := by
  cases (step_to hstep).2 with
  | receive i o value bus hd => exact Awaits.receive (h.congr { a with bus } rfl rfl) o value
  | answer accepted node w hp hn => exact h.congr _ rfl (unanswered_of_ne hp hn (by simp))
  | saveAnswered accepted node w screen hp hn =>
    by_cases hk : screen = k
    · subst hk
      exact h.answered (b := a.update node) rfl (unanswered_of_eq hp hn) accepted
    · have hupdate : Awaits (a.update node) k dones :=
        h.congr _ rfl (unanswered_of_ne hp hn (by simpa using hk))
      exact hupdate.answered_of_ne hk accepted
  | newsRow row hp hr => exact h.present .news
  | completion toggle menuOption menu hexit hs =>
    have hmenu : Awaits { a with menu } k dones := h.congr _ rfl rfl
    unfold selectMenuOption
    split
    · exact hmenu.present .sources
    · exact hmenu.present .profile
    · exact hmenu
  | save screen c writes hc hopen hw =>
    obtain ⟨node, bus, hframe⟩ := setValues_frame a writes
    refine h.congr _ ?_ (unanswered_setValues a writes k)
    rw [hframe]
    rfl
  | sources screen e c c' he hc hs =>
    cases e with
    | done =>
      have hpending : (a.sourcesAction screen .done c').unanswered k =
          a.unanswered k + if screen = k then 1 else 0 := by
        simp only [unanswered, sourcesAction, setValue, App.update, Replica.write,
          List.countP_append, List.countP_singleton, decide_eq_true_eq, Option.some.injEq]
      by_cases hk : screen = k
      · subst hk
        rw [if_pos rfl] at hpending
        rw [Event.isDone, if_pos (by simp)]
        exact h.done hc hs rfl hpending
      · rw [if_neg hk] at hpending
        rw [Event.isDone, if_neg (by simp [hk])]
        exact h.congr _ (List.getElem?_set_ne hk) hpending
    | saveAnswered error => exact (he error rfl).elim
    | allSources response =>
      obtain ⟨hsaves, htable⟩ := step_keeps_table hs (by simp) (by simp)
      simp only [sourcesAction]
      split <;> exact h.set _ hc rfl hsaves htable rfl
    | _ =>
      obtain ⟨hsaves, htable⟩ := step_keeps_table hs (by simp) (by simp)
      exact h.set _ hc rfl hsaves htable rfl
  | _ => exact h.congr _ rfl rfl

theorem awaits_run {node : Replica Record Pending} (hnode : ∀ p ∈ node.pending, p.completion = none)
    {today : Date} {es : List Event} {t : App}
    (hrun : Machine.run App.step (enter node today) es = some t) (k : Nat) :
    Awaits t k (es.countP (Event.isDone k)) := by
  refine Machine.run_history (I := fun es a => Awaits a k (es.countP (Event.isDone k))) ?_ ?_ hrun
  · refine ⟨fun c hc => (by cases hc), fun _ => ⟨?_, rfl⟩⟩
    rw [unanswered, List.countP_eq_zero]
    intro p hp
    simp [hnode p hp]
  · intro es e a a' _ h hstep
    rw [List.countP_append, List.countP_singleton]
    exact h.step hstep

/-- For every run of the app: a Sources screen waits for exactly its unanswered Dones, and it shows
its table iff none of its Dones is answered. So once every write is answered, it still shows its
table iff Done was never pressed on it. -/
theorem done_answered {node : Replica Record Pending}
    (hnode : ∀ p ∈ node.pending, p.completion = none) {today : Date} {es : List Event} {t : App}
    (hrun : Machine.run step (enter node today) es = some t) {k : Nat} {c : SourcesViewController}
    (hc : t.sources[k]? = some c) :
    c.saves = t.unanswered k ∧
      (c.shown = .table ↔ t.unanswered k = es.countP (Event.isDone k)) ∧
      (t.node.pending = [] → (c.shown = .table ↔ ∀ e ∈ es, e.isDone k = false)) := by
  obtain ⟨hsaves, -, htable⟩ := (awaits_run hnode hrun k).opened c hc
  refine ⟨hsaves, by rw [htable, hsaves], fun hanswered => ?_⟩
  have hzero : t.unanswered k = 0 := by rw [unanswered, hanswered]; rfl
  rw [htable, hsaves, hzero, eq_comm, List.countP_eq_zero]
  simp

/-- The source is selected, Done is pressed twice, and the first save is accepted. -/
def savedTwice : List Event := selecting ++ [.sources 0 .done, .sources 0 .done, .answer true]

theorem done_answered_savedTwice : ∃ t c,
    Machine.run step (enter registered newYear2020) savedTwice = some t ∧
      t.sources[0]? = some c ∧ c.saves = t.unanswered 0 ∧
      (c.shown = .table ↔ t.unanswered 0 = savedTwice.countP (Event.isDone 0)) ∧
      (t.node.pending = [] → (c.shown = .table ↔ ∀ e ∈ savedTwice, e.isDone 0 = false)) := by
  refine ⟨_, _, rfl, rfl, ?_⟩
  exact @done_answered registered (by simp [registered]) newYear2020 savedTwice _ rfl 0 _ rfl

end App
end MyNews
